import SyncClipboard.Echo
import SyncClipboard.Resources

/-!
What the Linux and Windows clients do about a change of the clipboard, with all branches: an image, a
file or a text, the first one that is there.

An image and a text go out once, since the client keeps the hash of the last one. The file branch of the
Linux client keeps a hash too, but never compares it, and offers the file on every call (`polls_iff`).
-/

namespace SyncClipboard.ClipChange

open FtAuth ServerModel Client

/-- The globals that the monitor uses. -/
structure Monitor where
  client : State
  lastClipHash : String
  loggedIn : Bool
  -- Windows only
  suppressNext : Bool

/-- What a call meets: the socket and the id for an offer, `aes_gcm_encrypt`, whether `queue_send` gets
memory, and whether Windows gets the content of the file into memory. -/
structure Meets where
  listening : Listening
  uuid : String
  encrypt : Bytes → Option String
  queues : Bool
  loaded : Bool

def isSend : Did → Bool
  | .send _ => true
  | _ => false

/-- Without memory, `queue_send` drops the message. -/
def Meets.queueSend (m : Meets) (ds : List Did) : List Did :=
  if m.queues then ds else ds.filter fun d => !isSend d

/-- A branch that works on `g_xfer`. -/
def Monitor.perform (m : Meets) (r : State × List Did) (d : Monitor) : Monitor × List Did :=
  ({ d with client := r.1 }, m.queueSend r.2)

variable (lib : Lib) (opt : Options)

/-- The last lines of both functions. -/
def sendText (m : Meets) (clip : Bytes) (d : Monitor) : Monitor × List Did :=
  if lib.sha256 clip = d.lastClipHash then (d, [])
  else ({ d with lastClipHash := lib.sha256 clip },
    m.queueSend ((m.encrypt clip).map fun enc => .send (.clipboard ⟨none, some enc, none⟩)).toList)

/-! ### Linux -/

def linux : Options := { opt with platform := .linux }

/-- What the tools say about the clipboard: the list of its types, its bytes as one of them, the path
that its URI names, and its text. -/
structure Selection where
  types : String
  bytes : String → Bytes
  fileUri : Option String
  text : Option Bytes

def readType (s : Selection) (mime : String) : Option Bytes :=
  if s.bytes mime = [] then none else some (s.bytes mime)

def hasType (s : Selection) (mime : String) : Bool := strstr mime.toList s.types.toList

def clipboardHasImage (s : Selection) : Bool := hasType s "image/png" || hasType s "image/jpeg"

def clipboardHasFile (s : Selection) : Bool :=
  hasType s "text/uri-list" || hasType s "x-special/gnome-copied-files"

def clipboardGetImage (s : Selection) : Option (String × Bytes) :=
  match readType s "image/png" with
  | some data => some ("image/png", data)
  | none => (readType s "image/jpeg").map fun data => ("image/jpeg", data)

/-- The image of the first branch. -/
def imageOf (s : Selection) (c : State) : Option (String × Bytes) :=
  if 0 < effectiveFileLevel opt c ∧ clipboardHasImage s then clipboardGetImage s else none

/-- The path of the second branch. -/
def fileOf (s : Selection) (c : State) : Option String :=
  if 0 < effectiveFileLevel opt c ∧ clipboardHasFile s then s.fileUri else none

/-- `disk` has the content of the regular files. -/
def processClipboardChange (s : Selection) (disk : String → Option Bytes) (d : Monitor) (m : Meets) :
    Monitor × List Did :=
  match imageOf opt s d.client with
  | some (mime, img) =>
    d.perform m (offerImage lib (linux opt) m.listening m.uuid mime img d.client)
  | none =>
    match fileOf opt s d.client with
    | some path =>
      d.perform m (offerFile lib (linux opt) m.listening m.uuid path (disk path) true d.client)
    | none =>
      match s.text with
      | none => (d, [])
      | some clip => sendText lib m clip d

/-! ### Windows -/

def windows : Options := { opt with platform := .windows }

/-- The clipboard as `clipboard_get_image`, `clipboard_get_file_path` and `clipboard_get` give it. -/
structure Board where
  image : Option Bytes
  filePath : Option String
  text : Option Bytes

def onClipboardChanged (b : Board) (disk : String → Option Bytes) (d : Monitor) (m : Meets) :
    Monitor × List Did :=
  if d.loggedIn = false then (d, [])
  else if d.suppressNext then ({ d with suppressNext := false }, [])
  else
    let level := effectiveFileLevel opt d.client
    match b.image.filter fun img => decide (0 < level ∧ img ≠ []) with
    | some img => d.perform m (offerImage lib (windows opt) m.listening m.uuid "" img d.client)
    | none =>
      match b.filePath.filter fun _ => decide (0 < level) with
      | some path =>
        d.perform m (offerFile lib (windows opt) m.listening m.uuid path (disk path) m.loaded d.client)
      | none =>
        match b.text.filter fun clip => decide (clip ≠ []) with
        | none => (d, [])
        | some clip => sendText lib m clip d

/-! ### The clipboard change of the client -/

/-- What the file transfer sees of a call. -/
def held (s : Selection) (disk : String → Option Bytes) (d : Monitor) (m : Meets) : Held where
  image := if clipboardHasImage s then clipboardGetImage s else none
  file := if clipboardHasFile s then s.fileUri.map fun path => (path, disk path) else none
  loaded := true
  text := s.text.bind fun clip => if lib.sha256 clip = d.lastClipHash then none else m.encrypt clip

lemma sendText_client {s : Selection} {clip : Bytes} (hclip : s.text = some clip)
    (disk : String → Option Bytes) (d : Monitor) {m : Meets} (hm : m.queues = true) :
    ((sendText lib m clip d).1.client, (sendText lib m clip d).2) =
      (d.client, (held lib s disk d m).text.elim [] fun enc =>
        [.send (.clipboard ⟨none, some enc, none⟩)]) := by
  simp only [sendText, held, hclip, Option.bind_some, Meets.queueSend, hm, if_true]
  split_ifs
  · rfl
  · cases m.encrypt clip <;> rfl

/-- As long as there is memory, the monitor moves the client as `clipboardChange` does. -/
theorem processClipboardChange_client (s : Selection) (disk : String → Option Bytes) (d : Monitor)
    {m : Meets} (hm : m.queues = true) :
    ((processClipboardChange lib opt s disk d m).1.client,
        (processClipboardChange lib opt s disk d m).2) =
      clipboardChange lib (linux opt) m.listening m.uuid (held lib s disk d m) d.client := by
  have hlevel : effectiveFileLevel (linux opt) d.client = effectiveFileLevel opt d.client := rfl
  have htext : imageOf opt s d.client = none → fileOf opt s d.client = none →
      ((processClipboardChange lib opt s disk d m).1.client,
        (processClipboardChange lib opt s disk d m).2) =
      (d.client, (held lib s disk d m).text.elim [] fun enc =>
        [.send (.clipboard ⟨none, some enc, none⟩)]) := by
    intro himg hfile
    simp only [processClipboardChange, himg, hfile]
    cases hclip : s.text with
    | none => simp [held, hclip]
    | some clip => exact sendText_client lib hclip disk d hm
  by_cases hpos : effectiveFileLevel opt d.client ≤ 0
  · rw [htext (by simp [imageOf, Int.not_lt.mpr hpos]) (by simp [fileOf, Int.not_lt.mpr hpos]), clipboardChange,
      hlevel, if_pos hpos]
  · have himg : imageOf opt s d.client = (held lib s disk d m).image := by
      simp [imageOf, held, Int.not_le.mp hpos]
    have hfile : (held lib s disk d m).file =
        (fileOf opt s d.client).map fun path => (path, disk path) := by
      simp only [fileOf, held, Int.not_le.mp hpos, true_and]
      split_ifs <;> rfl
    rw [clipboardChange, hlevel, if_neg hpos, ← himg, hfile]
    cases himage : imageOf opt s d.client with
    | some mi => simp [processClipboardChange, himage, Monitor.perform, Meets.queueSend, hm]
    | none =>
      cases hpath : fileOf opt s d.client with
      | some path =>
        simp [processClipboardChange, himage, hpath, Monitor.perform, Meets.queueSend, hm, held]
      | none => exact htext himage hpath

/-- Where there is only a text, the monitor does what the text branch by itself does. -/
theorem processClipboardChange_text (tools : Echo.Tools) (keyHex : Bytes) (nonce : Option Bytes)
    {s : Selection} {desk : Echo.Desk} (htext : s.text = Echo.getText desk.clipboard)
    {d : Monitor} (himg : imageOf opt s d.client = none) (hfile : fileOf opt s d.client = none)
    (hlast : d.lastClipHash = desk.lastClipHash) (hsha : lib.sha256 = tools.sha256) {m : Meets}
    (henc : ∀ clip, (m.encrypt clip).isSome = (Echo.aesGcmEncrypt tools keyHex nonce clip).isSome)
    (hm : m.queues = true) (disk : String → Option Bytes) :
    (processClipboardChange lib opt s disk d m).1.lastClipHash =
        (Echo.processClipboardChange tools keyHex nonce desk).1.lastClipHash ∧
      (processClipboardChange lib opt s disk d m).2.length =
        (Echo.processClipboardChange tools keyHex nonce desk).2.length := by
  simp only [processClipboardChange, himg, hfile, Echo.processClipboardChange, htext]
  cases Echo.getText desk.clipboard with
  | none => exact ⟨hlast, rfl⟩
  | some clip =>
    simp only [sendText, hsha, hlast]
    split_ifs
    · exact ⟨hlast, rfl⟩
    · refine ⟨rfl, ?_⟩
      simp [Meets.queueSend, hm, Option.length_toList, henc]

/-! ### Polling -/

def isQueued : Did → Bool
  | .send (.clipboard _) => true
  | .send (.fileOffer _) => true
  | _ => false

/-- The file branch gets as far as the offer: there is no image, and the URI names a regular file within
the limit. -/
def OffersFile (s : Selection) (disk : String → Option Bytes) (c : State) : Prop :=
  imageOf opt s c = none ∧ ∃ path data, fileOf opt s c = some path ∧ disk path = some data ∧
    0 < (data.length : ℤ) ∧ (data.length : ℤ) < 1024 * 1024 * opt.maxTransferSize

/-- No call does anything. -/
def Quiet (s : Selection) (disk : String → Option Bytes) (d : Monitor) : Prop :=
  ∀ m, processClipboardChange lib opt s disk d m = (d, [])

variable {lib opt} {s : Selection} {disk : String → Option Bytes} {d : Monitor}

lemma outs_quiet (h : Quiet lib opt s disk d) (ms : List Meets) :
    Run.outs (processClipboardChange lib opt s disk) d ms = [] := by
  induction ms with
  | nil => rfl
  | cons m ms ih => rw [Run.outs_cons, h m, List.nil_append, ih]

@[simp] lemma queueSend_nil (m : Meets) : m.queueSend [] = [] := by simp [Meets.queueSend]

lemma countP_queueSend (m : Meets) (ds : List Did) :
    (m.queueSend ds).countP isQueued = if m.queues then ds.countP isQueued else 0 := by
  unfold Meets.queueSend
  split_ifs
  · rfl
  · rw [List.countP_eq_zero]
    intro did hdid
    have hsend := (List.mem_filter.mp hdid).2
    cases did <;> simp_all [isSend, isQueued]

lemma countP_closeListen (x : Xfer) : (closeListen x).countP isQueued = 0 := by
  unfold closeListen
  split_ifs <;> rfl

lemma countP_offer (l : Listening) (x : Xfer) (c : State) : (offer l x c).2.countP isQueued = 1 := by
  rw [offer, List.countP_append, countP_closeListen]
  rfl

lemma countP_clipboard (enc : Option String) :
    ((enc.map fun enc => Did.send (.clipboard ⟨none, some enc, none⟩)).toList).countP isQueued =
      if enc.isSome then 1 else 0 := by
  cases enc <;> rfl

lemma image_quiet {mime : String} {img : Bytes} (himg : imageOf opt s d.client = some (mime, img))
    (hsame : lib.sha256 img = d.client.lastImgHash) : Quiet lib opt s disk d := by
  intro m
  simp [processClipboardChange, himg, offerImage, hsame, Monitor.perform]

lemma text_quiet {clip : Bytes} (himg : imageOf opt s d.client = none)
    (hfile : fileOf opt s d.client = none) (hclip : s.text = some clip)
    (hsame : lib.sha256 clip = d.lastClipHash) : Quiet lib opt s disk d := by
  intro m
  simp [processClipboardChange, himg, hfile, hclip, sendText, hsame]

lemma file_quiet {path : String} (himg : imageOf opt s d.client = none)
    (hfile : fileOf opt s d.client = some path) (hno : ¬ OffersFile opt s disk d.client) :
    Quiet lib opt s disk d := by
  intro m
  have hnone : offerFile lib (linux opt) m.listening m.uuid path (disk path) true d.client =
      (d.client, []) := by
    unfold offerFile
    cases hdata : disk path with
    | none => rfl
    | some data =>
      have hsize : (data.length : ℤ) ≤ 0 ∨ 1024 * 1024 * opt.maxTransferSize ≤ data.length := by
        by_contra hsize
        exact hno ⟨himg, path, data, hfile, hdata, by omega, by omega⟩
      exact if_pos hsize
  simp [processClipboardChange, himg, hfile, hnone, Monitor.perform]

/-- Apart from an offer of a file, a call queues one message at most, and leaves nothing to do. -/
lemma step_quiet (hidle : d.client.activeCount = 0) (hno : ¬ OffersFile opt s disk d.client)
    (m : Meets) : Quiet lib opt s disk (processClipboardChange lib opt s disk d m).1 ∧
      (processClipboardChange lib opt s disk d m).2.countP isQueued ≤ 1 := by
  cases himg : imageOf opt s d.client with
  | some mi =>
    obtain ⟨mime, img⟩ := mi
    by_cases hsame : lib.sha256 img = d.client.lastImgHash
    · have hquiet : Quiet lib opt s disk d := image_quiet himg hsame
      rw [hquiet m]
      exact ⟨hquiet, by simp⟩
    · simp only [processClipboardChange, himg, offerImage, hsame, hidle, linux, if_false,
        Monitor.perform, Nat.lt_irrefl]
      refine ⟨image_quiet himg rfl, ?_⟩
      rw [countP_queueSend, countP_offer]
      split_ifs <;> simp
  | none =>
    cases hfile : fileOf opt s d.client with
    | some path =>
      have hquiet : Quiet lib opt s disk d := file_quiet himg hfile hno
      rw [hquiet m]
      exact ⟨hquiet, by simp⟩
    | none =>
      cases hclip : s.text with
      | none =>
        have hquiet : Quiet lib opt s disk d := by
          intro m
          simp [processClipboardChange, himg, hfile, hclip]
        rw [hquiet m]
        exact ⟨hquiet, by simp⟩
      | some clip =>
        by_cases hsame : lib.sha256 clip = d.lastClipHash
        · have hquiet : Quiet lib opt s disk d := text_quiet himg hfile hclip hsame
          rw [hquiet m]
          exact ⟨hquiet, by simp⟩
        · simp only [processClipboardChange, himg, hfile, hclip, sendText, hsame, if_false]
          refine ⟨text_quiet himg hfile hclip rfl, ?_⟩
          rw [countP_queueSend, countP_clipboard]
          split_ifs <;> simp

/-- An offer of a file goes out if there is memory, and nothing keeps the next one. -/
lemma step_offersFile (hidle : d.client.activeCount = 0) (h : OffersFile opt s disk d.client)
    (m : Meets) :
    (processClipboardChange lib opt s disk d m).1.client.activeCount = 0 ∧
      OffersFile opt s disk (processClipboardChange lib opt s disk d m).1.client ∧
      (processClipboardChange lib opt s disk d m).2.countP isQueued =
        if m.queues then 1 else 0 := by
  have hoffers := h
  obtain ⟨himg, path, data, hfile, hdata, hpos, hlimit⟩ := hoffers
  have hsize : ¬ ((data.length : ℤ) ≤ 0 ∨ 1024 * 1024 * opt.maxTransferSize ≤ data.length) := by
    omega
  simp only [processClipboardChange, himg, hfile, offerFile, hdata, linux, hsize, hidle, if_false,
    Monitor.perform, Nat.lt_irrefl]
  refine ⟨rfl, h, ?_⟩
  rw [countP_queueSend, countP_offer]

lemma countP_outs_offersFile (hidle : d.client.activeCount = 0) (h : OffersFile opt s disk d.client)
    (ms : List Meets) :
    (Run.outs (processClipboardChange lib opt s disk) d ms).countP isQueued =
      ms.countP (·.queues) := by
  induction ms generalizing d with
  | nil => rfl
  | cons m ms ih =>
    obtain ⟨hidle', h', hcount⟩ := @step_offersFile lib opt s disk d hidle h m
    rw [Run.outs_cons, List.countP_append, hcount, ih hidle' h', List.countP_cons, Nat.add_comm]

/-- **Polling an unchanged clipboard.** From every prior value of the hashes, with no transfer active and
neither the clipboard nor the disk changing, the calls queue one message at most if and only if the
file branch does not get as far as an offer, or gets to queue one only once. -/
theorem polls_iff (lib : Lib) (opt : Options) (s : Selection) (disk : String → Option Bytes)
    (d : Monitor) (hidle : d.client.activeCount = 0) (ms : List Meets) :
    (Run.outs (processClipboardChange lib opt s disk) d ms).countP isQueued ≤ 1 ↔
      ¬ OffersFile opt s disk d.client ∨ ms.countP (·.queues) ≤ 1 := by
  by_cases h : OffersFile opt s disk d.client
  · rw [countP_outs_offersFile hidle h]
    simp [h]
  · refine iff_of_true ?_ (.inl h)
    cases ms with
    | nil => simp
    | cons m ms =>
      obtain ⟨hquiet, hcount⟩ := @step_quiet lib opt s disk d hidle h m
      rw [Run.outs_cons, outs_quiet hquiet, List.append_nil]
      exact hcount

section Sample

def sampleFile : Selection where
  types := "text/uri-list"
  bytes mime := if mime = "text/uri-list" then ascii "file:///tmp/a" else []
  fileUri := some "/tmp/a"
  text := some (ascii "/tmp/a")

def sampleText : Selection where
  types := "UTF8_STRING"
  bytes _ := []
  fileUri := none
  text := some (ascii "b")

def sampleDisk (path : String) : Option Bytes := if path = "/tmp/a" then some [9] else none

/-- A client that has just logged in. -/
def sampleMonitor : Monitor := ⟨Client.start, "", true, false⟩

def sampleMeets (fd : ℤ) (uuid : String) : Meets := ⟨⟨fd, []⟩, uuid, fun _ => some "Ag==", true, true⟩

theorem polls_text :
    (Run.outs (processClipboardChange Resources.sampleLib ⟨.linux, 3, 10⟩ sampleText sampleDisk)
      sampleMonitor [sampleMeets 5 "a", sampleMeets 6 "b", sampleMeets 7 "c"]).countP isQueued ≤ 1 := by
  have hnone : fileOf ⟨.linux, 3, 10⟩ sampleText sampleMonitor.client = none := by decide +kernel
  refine (polls_iff _ _ sampleText sampleDisk sampleMonitor rfl _).mpr (.inl ?_)
  rintro ⟨-, path, data, hfile, -⟩
  rw [hnone] at hfile
  cases hfile

/-- Two calls, two offers. -/
theorem polls_file :
    ¬ (Run.outs (processClipboardChange Resources.sampleLib ⟨.linux, 3, 10⟩ sampleFile sampleDisk)
      sampleMonitor [sampleMeets 5 "a", sampleMeets 6 "b"]).countP isQueued ≤ 1 := by
  decide +kernel

end Sample

end SyncClipboard.ClipChange
