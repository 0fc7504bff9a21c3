import SyncClipboard.ClipChange
import SyncClipboard.Phone

/-!
The hashes by which the clients tell that the clipboard has something new.

A client keeps the hash of what it has last sent, and ignores a copy with that hash. Most branches keep
it before they know that something goes out: a call that then gives up has made the client ignore the
next copy of the same content. So the hashes move with a message only as long as no call gives up
(`markers_iff`).
-/

namespace SyncClipboard.Markers

open FtAuth ServerModel Client ClipChange

/-! ### Android -/

section Phone

/-- What sending meets: whether `ServerSocket(0)` opens a socket, and what `connection.send` returns. -/
structure Link where
  listens : Bool
  sends : Bool

def Link.accepted (k : Link) (ds : List Did) : List Did := if k.sends then ds else []

variable (lib : Lib) (store : Android.Store) (platform : Phone.Platform)

/-- `checkAndSendImageClipboard` with its result. -/
def checkAndSendImageClipboard (k : Link) (r : Phone.Reading) (clip : Phone.Clip) (p : Phone.State) :
    Phone.State × List Did × Bool :=
  if store.fileTransferLevel ≤ 0 ∨ p.service.serverFileLevel ≤ 0 then (p, [], false)
  else match Phone.imageOf r clip with
    | none => (p, [], false)
    | some (data, mime) =>
      if lib.sha256 data = p.lastImgHash then (p, [], false)
      else if k.listens then
        let next := Phone.sendImage lib r data mime p
        (next.1, k.accepted next.2, true)
      -- `startSenderOffer` throws when `transferStarted` has been set back
      else ({ p with
        lastImgHash := lib.sha256 data
        service := { p.service with transferStarted := false } }, [], false)

def textOf (clip : Phone.Clip) : Option String := clip.text.filter fun text => decide (text ≠ "")

/-- `onClipboardChanged` of the service, with what is accepted for sending. -/
def onClipboardChanged (k : Link) (r : Phone.Reading) (p : Phone.State) : Phone.State × List Did :=
  if p.loggedIn = false then (p, [])
  else if p.suppressNext then ({ p with suppressNext := false }, [])
  else match Phone.primaryClip r p with
    | none => (p, [])
    | some clip =>
      let image := checkAndSendImageClipboard lib store k r clip p
      if image.2.2 then (image.1, image.2.1)
      else match textOf clip with
        | none => (image.1, [])
        | some text =>
          let next := Phone.sendText platform r text image.1
          (next.1, k.accepted next.2)

def newImage (r : Phone.Reading) (clip : Phone.Clip) (p : Phone.State) : Option (Bytes × String) :=
  if store.fileTransferLevel ≤ 0 ∨ p.service.serverFileLevel ≤ 0 then none
  else (Phone.imageOf r clip).filter fun image => decide (lib.sha256 image.1 ≠ p.lastImgHash)

variable {lib store platform}

lemma check_none {r : Phone.Reading} {clip : Phone.Clip} {p : Phone.State}
    (h : newImage lib store r clip p = none) (k : Link) :
    checkAndSendImageClipboard lib store k r clip p = (p, [], false) ∧
      Phone.checkAndSendImageClipboard lib store r clip p = none := by
  simp only [newImage, checkAndSendImageClipboard, Phone.checkAndSendImageClipboard] at h ⊢
  by_cases hlevel : store.fileTransferLevel ≤ 0 ∨ p.service.serverFileLevel ≤ 0
  · rw [if_pos hlevel, if_pos hlevel]
    exact ⟨rfl, rfl⟩
  · rw [if_neg hlevel] at h ⊢
    rw [if_neg hlevel]
    cases himage : Phone.imageOf r clip with
    | none => exact ⟨rfl, rfl⟩
    | some image =>
      have hsame : lib.sha256 image.1 = p.lastImgHash := by
        rw [himage, Option.filter_some] at h
        simpa using h
      simp [hsame]

lemma check_some {r : Phone.Reading} {clip : Phone.Clip} {p : Phone.State} {data : Bytes}
    {mime : String} (h : newImage lib store r clip p = some (data, mime)) (k : Link) :
    lib.sha256 data ≠ p.lastImgHash ∧
    checkAndSendImageClipboard lib store k r clip p =
      (if k.listens then
        ((Phone.sendImage lib r data mime p).1, k.accepted (Phone.sendImage lib r data mime p).2, true)
      else ({ p with
        lastImgHash := lib.sha256 data
        service := { p.service with transferStarted := false } }, [], false)) ∧
    Phone.checkAndSendImageClipboard lib store r clip p =
      some (Phone.sendImage lib r data mime p) := by
  simp only [newImage, checkAndSendImageClipboard, Phone.checkAndSendImageClipboard] at h ⊢
  split_ifs at h with hlevel
  rw [if_neg hlevel, if_neg hlevel]
  obtain ⟨himage, hnew⟩ := Option.filter_eq_some_iff.mp h
  have hnew : lib.sha256 data ≠ p.lastImgHash := by simpa using hnew
  simp [himage, hnew]

/-- While sending works, this is the listener of the service. -/
theorem onClipboardChanged_service {k : Link} (hl : k.listens = true) (hs : k.sends = true)
    (r : Phone.Reading) (p : Phone.State) : onClipboardChanged lib store platform k r p =
      Phone.serviceChanged lib store platform r p := by
  simp only [onClipboardChanged, Phone.serviceChanged]
  split_ifs
  · rfl
  · rfl
  · cases Phone.primaryClip r p with
    | none => rfl
    | some clip =>
      dsimp only
      cases hnew : newImage lib store r clip p with
      | none =>
        rw [(check_none hnew k).1, (check_none hnew k).2]
        simp only [Link.accepted, hs, if_true, Bool.false_eq_true, if_false]
        unfold textOf
        cases clip.text.filter fun text => decide (text ≠ "") <;> rfl
      | some image =>
        obtain ⟨-, hcheck, hphone⟩ := check_some hnew k
        rw [hcheck, hphone, hl]
        simp [Link.accepted, hs]

end Phone

/-! ### The hashes and the messages -/

/-- If nothing was accepted for sending, the hashes are what they were. -/
def Keeps {σ μ : Type*} (hashes : σ → μ) (before : σ) (out : σ × List Did) : Prop :=
  out.2.countP isQueued = 0 → hashes out.1 = hashes before

/-- `g_last_img_hash`, `g_last_file_hash` and `g_last_clip_hash`. -/
def desktopHashes (d : Monitor) : String × String × String :=
  (d.client.lastImgHash, d.client.lastFileHash, d.lastClipHash)

def phoneHashes (p : Phone.State) : String × String := (p.lastClipHash, p.lastImgHash)

/-- A text that is new is encrypted, and the message gets into the queue. -/
def TextGoes (lib : Lib) (m : Meets) (clip : Bytes) (d : Monitor) : Prop :=
  lib.sha256 clip = d.lastClipHash ∨ ((m.encrypt clip).isSome ∧ m.queues = true)

/-- An image that is new finds no transfer active, and its offer gets into the queue. So does the offer
of a file, or the file was offered last, or it is not offered. -/
def LinuxGoes (lib : Lib) (opt : Options) (s : Selection) (disk : String → Option Bytes) (d : Monitor)
    (m : Meets) : Prop :=
  match imageOf opt s d.client with
  | some (_, img) =>
    lib.sha256 img = d.client.lastImgHash ∨ (d.client.activeCount = 0 ∧ m.queues = true)
  | none =>
    match fileOf opt s d.client with
    | some path => ∀ data, disk path = some data →
        ((data.length : ℤ) ≤ 0 ∨ 1024 * 1024 * opt.maxTransferSize ≤ data.length) ∨
        0 < d.client.activeCount ∨ lib.sha256 data = d.client.lastImgHash ∨ m.queues = true
    | none => ∀ clip, s.text = some clip → TextGoes lib m clip d

variable {lib : Lib} {opt : Options}

lemma keeps_sendText {d : Monitor} (m : Meets) (clip : Bytes) :
    Keeps desktopHashes d (ClipChange.sendText lib m clip d) ↔ TextGoes lib m clip d := by
  unfold Keeps TextGoes ClipChange.sendText
  by_cases hsame : lib.sha256 clip = d.lastClipHash
  · simp [hsame]
  · simp only [hsame, if_false, countP_queueSend, countP_clipboard, desktopHashes, false_or]
    cases m.queues <;> cases (m.encrypt clip).isSome <;> simp [hsame]

/-- What a branch does to the hashes and the queue decides. -/
lemma keeps_perform {d : Monitor} {m : Meets} {r : State × List Did} :
    Keeps desktopHashes d (d.perform m r) ↔
      ((m.queues = true → r.2.countP isQueued = 0) →
        r.1.lastImgHash = d.client.lastImgHash ∧ r.1.lastFileHash = d.client.lastFileHash) := by
  unfold Keeps Monitor.perform
  simp only [countP_queueSend, desktopHashes, Prod.mk.injEq, and_true]
  cases m.queues <;> simp

lemma keeps_perform_same {d : Monitor} {m : Meets} : Keeps desktopHashes d (d.perform m (d.client, [])) :=
  keeps_perform.mpr fun _ => ⟨rfl, rfl⟩

lemma keeps_perform_moved {d : Monitor} {m : Meets} {r : State × List Did}
    (hmoved : ¬ (r.1.lastImgHash = d.client.lastImgHash ∧ r.1.lastFileHash = d.client.lastFileHash)) :
    Keeps desktopHashes d (d.perform m r) ↔ m.queues = true ∧ r.2.countP isQueued ≠ 0 := by
  rw [keeps_perform]
  cases m.queues <;> simp [hmoved]

/-- Both clients keep the hash of an image before they look for a transfer. -/
lemma keeps_offerImage {mime : String} {img : Bytes} {d : Monitor} {m : Meets} {goes : Prop}
    (hgoes : lib.sha256 img ≠ d.client.lastImgHash → d.client.activeCount = 0 →
      (Keeps desktopHashes d (d.perform m (offerImage lib opt m.listening m.uuid mime img d.client)) ↔
        goes)) :
    Keeps desktopHashes d (d.perform m (offerImage lib opt m.listening m.uuid mime img d.client)) ↔
      lib.sha256 img = d.client.lastImgHash ∨ (d.client.activeCount = 0 ∧ goes) := by
  by_cases hsame : lib.sha256 img = d.client.lastImgHash
  · rw [offerImage, if_pos hsame]
    exact iff_of_true keeps_perform_same (.inl hsame)
  · rw [or_iff_right hsame]
    rcases Nat.eq_zero_or_pos d.client.activeCount with hidle | hactive
    · rw [hgoes hsame hidle, and_iff_right hidle]
    · rw [offerImage, if_neg hsame]
      dsimp only
      rw [if_pos hactive, keeps_perform_moved (by simp [hsame])]
      simp [hactive.ne']

lemma keeps_linux_image {mime : String} (img : Bytes) (d : Monitor) (m : Meets) :
    Keeps desktopHashes d (d.perform m
        (offerImage lib (linux opt) m.listening m.uuid mime img d.client)) ↔
      lib.sha256 img = d.client.lastImgHash ∨ (d.client.activeCount = 0 ∧ m.queues = true) := by
  refine keeps_offerImage fun hne hidle => ?_
  simp only [offerImage, hne, hidle, linux, if_false, Nat.lt_irrefl]
  rw [keeps_perform_moved (by simp [hne, offer]), countP_offer]
  simp

/-- The one branch that looks for a transfer before it keeps the hash. -/
lemma keeps_linux_file {path : String} (content : Option Bytes) (d : Monitor) (m : Meets) :
    Keeps desktopHashes d (d.perform m
        (offerFile lib (linux opt) m.listening m.uuid path content true d.client)) ↔
      ∀ data, content = some data →
        ((data.length : ℤ) ≤ 0 ∨ 1024 * 1024 * opt.maxTransferSize ≤ data.length) ∨
        0 < d.client.activeCount ∨ lib.sha256 data = d.client.lastImgHash ∨ m.queues = true := by
  unfold offerFile
  cases content with
  | none => exact iff_of_true keeps_perform_same (by simp)
  | some data =>
    simp only [linux, Option.some.injEq, forall_eq']
    by_cases hsize : (data.length : ℤ) ≤ 0 ∨ 1024 * 1024 * opt.maxTransferSize ≤ data.length
    · simp only [hsize, if_true, true_or, iff_true]
      exact keeps_perform_same
    · simp only [hsize, if_false, false_or]
      by_cases hactive : 0 < d.client.activeCount
      · rw [if_pos hactive]
        exact iff_of_true keeps_perform_same (.inl hactive)
      · rw [if_neg hactive]
        by_cases hsame : lib.sha256 data = d.client.lastImgHash
        · exact iff_of_true (keeps_perform.mpr fun _ => ⟨hsame, rfl⟩) (.inr (.inl hsame))
        · rw [keeps_perform_moved (by simp [hsame, offer]), countP_offer]
          simp [hsame, hactive]

lemma keeps_linux (s : Selection) (disk : String → Option Bytes) (d : Monitor) (m : Meets) :
    Keeps desktopHashes d (processClipboardChange lib opt s disk d m) ↔
      LinuxGoes lib opt s disk d m := by
  unfold LinuxGoes processClipboardChange
  cases imageOf opt s d.client with
  | some mi => exact keeps_linux_image mi.2 d m
  | none =>
    cases fileOf opt s d.client with
    | some path => exact keeps_linux_file (disk path) d m
    | none =>
      cases s.text with
      | none => simp [Keeps]
      | some clip => simpa using keeps_sendText m clip

/-- On Windows an image that is new finds no transfer active and can be converted, a file that is new
fits into memory and finds no transfer active, and their offers get into the queue. -/
def WindowsGoes (lib : Lib) (opt : Options) (b : Board) (disk : String → Option Bytes) (d : Monitor)
    (m : Meets) : Prop :=
  d.loggedIn = false ∨ d.suppressNext = true ∨
  match b.image.filter fun img => decide (0 < effectiveFileLevel opt d.client ∧ img ≠ []) with
  | some img => lib.sha256 img = d.client.lastImgHash ∨ (d.client.activeCount = 0 ∧
      ((lib.bmpToPng img).filter fun png => decide (png ≠ [])).isSome ∧ m.queues = true)
  | none =>
    match b.filePath.filter fun _ => decide (0 < effectiveFileLevel opt d.client) with
    | some path => ∀ data, disk path = some data →
        ((data.length : ℤ) ≤ 0 ∨ 1024 * 1024 * opt.maxTransferSize ≤ data.length) ∨
        lib.sha256 data = d.client.lastFileHash ∨
        (m.loaded = true ∧ d.client.activeCount = 0 ∧ m.queues = true)
    | none => ∀ clip, b.text.filter (fun clip => decide (clip ≠ [])) = some clip →
        TextGoes lib m clip d

lemma keeps_windows_image (img : Bytes) (d : Monitor) (m : Meets) :
    Keeps desktopHashes d (d.perform m
        (offerImage lib (windows opt) m.listening m.uuid "" img d.client)) ↔
      lib.sha256 img = d.client.lastImgHash ∨ (d.client.activeCount = 0 ∧
        ((lib.bmpToPng img).filter fun png => decide (png ≠ [])).isSome ∧ m.queues = true) := by
  refine keeps_offerImage fun hne hidle => ?_
  simp only [offerImage, hne, hidle, windows, if_false, Nat.lt_irrefl]
  cases (lib.bmpToPng img).filter fun png => decide (png ≠ []) with
  | none =>
    dsimp only
    rw [keeps_perform_moved (by simp [hne]), countP_closeListen]
    simp
  | some png =>
    dsimp only
    rw [keeps_perform_moved (by simp [hne, offer]), countP_offer]
    simp

lemma keeps_windows_file {path : String} (content : Option Bytes) (d : Monitor) (m : Meets) :
    Keeps desktopHashes d (d.perform m
        (offerFile lib (windows opt) m.listening m.uuid path content m.loaded d.client)) ↔
      ∀ data, content = some data →
        ((data.length : ℤ) ≤ 0 ∨ 1024 * 1024 * opt.maxTransferSize ≤ data.length) ∨
        lib.sha256 data = d.client.lastFileHash ∨
        (m.loaded = true ∧ d.client.activeCount = 0 ∧ m.queues = true) := by
  unfold offerFile
  cases content with
  | none => exact iff_of_true keeps_perform_same (by simp)
  | some data =>
    simp only [windows, Option.some.injEq, forall_eq']
    by_cases hsize : (data.length : ℤ) ≤ 0 ∨ 1024 * 1024 * opt.maxTransferSize ≤ data.length
    · simp only [hsize, if_true, true_or, iff_true]
      exact keeps_perform_same
    · simp only [hsize, if_false, false_or]
      by_cases hsame : lib.sha256 data = d.client.lastFileHash
      · rw [if_pos hsame]
        exact iff_of_true keeps_perform_same (.inl hsame)
      · rw [if_neg hsame]
        by_cases hskip : m.loaded = false ∨ 0 < d.client.activeCount
        · rw [if_pos hskip, keeps_perform_moved (by simp [hsame])]
          refine iff_of_false (by simp) ?_
          rintro (h | ⟨hl, hactive, -⟩)
          · exact hsame h
          · rw [hl, hactive] at hskip
            simp at hskip
        · rw [if_neg hskip, keeps_perform_moved (by simp [hsame, offer]), countP_offer]
          push Not at hskip
          simp [hsame, hskip.1, Nat.le_zero.mp hskip.2]

lemma keeps_windows (b : Board) (disk : String → Option Bytes) (d : Monitor) (m : Meets) :
    Keeps desktopHashes d (ClipChange.onClipboardChanged lib opt b disk d m) ↔
      WindowsGoes lib opt b disk d m := by
  unfold WindowsGoes ClipChange.onClipboardChanged
  split_ifs with hlogin hsuppress
  · simp [Keeps, hlogin]
  · simp [Keeps, desktopHashes, hsuppress]
  · rw [or_iff_right hlogin, or_iff_right hsuppress]
    dsimp only
    cases b.image.filter fun img => decide (0 < effectiveFileLevel opt d.client ∧ img ≠ []) with
    | some img => exact keeps_windows_image img d m
    | none =>
      cases b.filePath.filter fun _ => decide (0 < effectiveFileLevel opt d.client) with
      | some path => exact keeps_windows_file (disk path) d m
      | none =>
        cases b.text.filter fun clip => decide (clip ≠ []) with
        | none => simp [Keeps]
        | some clip => simpa using keeps_sendText m clip

/-- On Android a text is new, is encrypted, and `connection.send` accepts the message. -/
def PhoneTextGoes (platform : Phone.Platform) (k : Link) (r : Phone.Reading) (text : String)
    (p : Phone.State) : Prop :=
  platform.hashCode text ≠ p.lastClipHash ∧ (r.encrypt text).isSome ∧ k.sends = true

/-- The offer of an image that is new is accepted, or it fails before that and the text of the clip goes
out in its place. A text that is new goes out. -/
def PhoneGoes (lib : Lib) (store : Android.Store) (platform : Phone.Platform) (k : Link)
    (r : Phone.Reading) (p : Phone.State) : Prop :=
  p.loggedIn = false ∨ p.suppressNext = true ∨ ∀ clip, Phone.primaryClip r p = some clip →
    if (newImage lib store r clip p).isSome then
      if k.listens then k.sends = true
      else ∃ text, textOf clip = some text ∧ PhoneTextGoes platform k r text p
    else ∀ text, textOf clip = some text →
      platform.hashCode text = p.lastClipHash ∨ PhoneTextGoes platform k r text p

variable {store : Android.Store} {platform : Phone.Platform}

lemma sendText_hashes {p q : Phone.State} (hclip : q.lastClipHash = p.lastClipHash) (k : Link)
    (r : Phone.Reading) (text : String) :
    (phoneHashes (Phone.sendText platform r text q).1 = phoneHashes q ↔
      platform.hashCode text = p.lastClipHash) ∧
    ((k.accepted (Phone.sendText platform r text q).2).countP isQueued = 0 ↔
      ¬ PhoneTextGoes platform k r text p) := by
  unfold Phone.sendText PhoneTextGoes Link.accepted
  rw [hclip]
  by_cases hsame : platform.hashCode text = p.lastClipHash
  · simp [hsame]
  · simp only [hsame, if_false, phoneHashes]
    cases k.sends <;> cases r.encrypt text <;> simp [hsame, hclip, isQueued]

lemma keeps_phone (k : Link) (r : Phone.Reading) (p : Phone.State) :
    Keeps phoneHashes p (onClipboardChanged lib store platform k r p) ↔
      PhoneGoes lib store platform k r p := by
  unfold PhoneGoes onClipboardChanged
  by_cases hlogin : p.loggedIn = false
  · rw [if_pos hlogin]
    exact iff_of_true (fun _ => rfl) (.inl hlogin)
  rw [if_neg hlogin, or_iff_right hlogin]
  by_cases hsuppress : p.suppressNext = true
  · rw [if_pos hsuppress]
    exact iff_of_true (fun _ => rfl) (.inl hsuppress)
  rw [if_neg hsuppress, or_iff_right hsuppress]
  cases Phone.primaryClip r p with
  | none => exact iff_of_true (fun _ => rfl) (by simp)
  | some clip =>
    simp only [Option.some.injEq, forall_eq']
    cases hnew : newImage lib store r clip p with
    | none =>
      rw [(check_none hnew k).1, if_neg (by simp), if_neg (by simp)]
      cases textOf clip with
      | none => exact iff_of_true (fun _ => rfl) (by simp)
      | some text =>
        obtain ⟨hmoved, hgoes⟩ := @sendText_hashes platform p p rfl k r text
        simp only [Keeps, Option.some.injEq, forall_eq', hmoved, hgoes]
        tauto
    | some image =>
      obtain ⟨hne, hcheck, -⟩ := check_some hnew k
      rw [hcheck, if_pos (show (some image).isSome = true from rfl)]
      by_cases hlistens : k.listens = true
      · rw [if_pos hlistens, if_pos hlistens]
        simp only [Keeps, Phone.sendImage, hne, if_false, if_true, Link.accepted,
          Android.sendImageOffer]
        cases k.sends <;> simp [phoneHashes, hne, isQueued]
      · rw [if_neg hlistens, if_neg hlistens]
        simp only [Bool.false_eq_true, if_false]
        cases textOf clip with
        | none => simp [Keeps, phoneHashes, hne]
        | some text =>
          -- the hash of the image has moved, so a message has to make up for it
          obtain ⟨-, hgoes⟩ := @sendText_hashes platform p
            { p with
              lastImgHash := lib.sha256 image.1
              service := { p.service with transferStarted := false } } rfl k r text
          have himg : ∀ q : Phone.State, (Phone.sendText platform r text q).1.lastImgHash =
              q.lastImgHash := by
            intro q
            unfold Phone.sendText
            dsimp only
            split_ifs <;> rfl
          simp only [Keeps, hgoes, phoneHashes, himg, Prod.mk.injEq, hne, and_false, imp_false,
            not_not, Option.some.injEq, exists_eq_left']

/-- **The hashes move with a message.** A call that returns without anything accepted for sending leaves
every hash as it was, if and only if it does not give up in one of the ways that the conditions exclude:
on Linux, on Windows and on Android. -/
theorem markers_iff (lib : Lib) (opt : Options) (store : Android.Store) (platform : Phone.Platform) :
    (∀ s disk d m, Keeps desktopHashes d (processClipboardChange lib opt s disk d m) ↔
      LinuxGoes lib opt s disk d m) ∧
    (∀ b disk d m, Keeps desktopHashes d (ClipChange.onClipboardChanged lib opt b disk d m) ↔
      WindowsGoes lib opt b disk d m) ∧
    ∀ k r p, Keeps phoneHashes p (onClipboardChanged lib store platform k r p) ↔
      PhoneGoes lib store platform k r p :=
  ⟨keeps_linux, keeps_windows, keeps_phone⟩

def sampleImage : Selection where
  types := "image/png"
  bytes mime := if mime = "image/png" then [9] else []
  fileUri := none
  text := none

/-- A client with a transfer that runs. -/
def busyMonitor : Monitor :=
  ⟨{ Client.start with activeCount := 1, threads := [⟨.zero, true⟩] }, "", true, false⟩

/-- An image that is copied while a transfer runs is not offered, then or later. -/
theorem markers_image :
    ¬ Keeps desktopHashes busyMonitor (processClipboardChange Resources.sampleLib ⟨.linux, 3, 10⟩
      sampleImage sampleDisk busyMonitor (sampleMeets 5 "a")) := by
  intro hkeeps
  exact absurd (hkeeps (by decide +kernel)) (by decide +kernel)

end SyncClipboard.Markers
