import SyncClipboard.Client
import SyncClipboard.Echo

/-!
The flag by which the Windows client ignores the changes it makes itself.

A thread that has received something sets the flag and then tries to set the clipboard. The window is
told about every change, and the first time while the client is logged in it takes the flag back and
looks no further, whoever made the change. So a local copy is sent exactly where nothing has set the
flag since the last such time, and the clipboard still has the text (`one_shot_iff`).
-/

namespace SyncClipboard.OneShot

open FtAuth Crypto Echo
open ClipIntegrity (windowsClipboard)

inductive Content
  | empty
  | text (t : Bytes)
  | image (data : Bytes)
  | file (fileName : String) (data : Bytes)
  deriving DecidableEq

/-- The statements of a thread that has received something. -/
inductive Act
  | suppressNext
  | hashText (text : Bytes)
  /-- `clipboard_set`, `clipboard_set_image` or `clipboard_set_file` -/
  | set (content : Content)
  deriving DecidableEq

/-- Who made a change that the window is told about. -/
inductive Notice
  | own
  | copy (text : Bytes)
  deriving DecidableEq

structure Win where
  loggedIn : Bool
  suppressNext : Bool
  lastClipHash : String
  content : Content
  -- the window is told in this order
  notices : List Notice
  -- what the threads still have to do
  tasks : List (List Act)
  deriving DecidableEq

def init : Win := ⟨false, false, "", .empty, [], []⟩

inductive Out
  | suppressed
  /-- a notification was handled while the client was logged in -/
  | handled
  | queued (text msg : Bytes)
  deriving DecidableEq

variable (tools : Tools) (keyHex : Bytes)

/-! ### Receiving -/

/-- The statements of the `clipboard` branch of the WebSocket callback. -/
def textActs (content : Bytes) : List Act :=
  (windowsClipboard tools.prims keyHex (some content)).filterMap fun
    | .suppressNext => some .suppressNext
    | .hashText text => some (.hashText text)
    | .setText text => some (.set (.text text))
    -- Linux only
    | .suppressMs _ => none
    | .warn _ => none

/-- A file that came over a connection or through the server. -/
def fileActs (mimeType fileName : String) (data : Bytes) : List Act :=
  [.suppressNext,
    .set (if Client.isImage mimeType then .image data else .file fileName data)]

/-- A statement. A clipboard that is not set is not changed, and nobody is told. -/
def perform (ok : Bool) (a : Act) (w : Win) : Win × List Out :=
  match a with
  | .suppressNext => ({ w with suppressNext := true }, [.suppressed])
  | .hashText text => ({ w with lastClipHash := tools.sha256 text }, [])
  | .set content =>
    (if ok then { w with content := content, notices := w.notices ++ [.own] } else w, [])

def act (i : ℕ) (ok : Bool) (w : Win) : Win × List Out :=
  match w.tasks[i]? with
  | some (a :: rest) => perform tools ok a { w with tasks := w.tasks.set i rest }
  | _ => (w, [])

/-! ### The window -/

/-- What the handler meets: whether the clipboard can be opened and read, and `RAND_bytes`. -/
structure Reading where
  opens : Bool
  nonce : Option Bytes

def clipboardGet (r : Reading) (w : Win) : Option Bytes :=
  match w.content with
  | .text t => if r.opens then some t else none
  | _ => none

/-- `on_clipboard_changed`, as far as texts go: an image or a file that can be read is offered, and one
that cannot is no text. -/
def onClipboardChanged (r : Reading) (w : Win) : Win × List Out :=
  if w.loggedIn = false then (w, [])
  else if w.suppressNext then ({ w with suppressNext := false }, [.handled])
  else match clipboardGet r w with
    | none => (w, [.handled])
    | some clip =>
      if clip.length = 0 then (w, [.handled])
      else if tools.sha256 clip = w.lastClipHash then (w, [.handled])
      else
        ({ w with lastClipHash := tools.sha256 clip },
          .handled :: ((aesGcmEncrypt tools keyHex r.nonce clip).map fun enc =>
            .queued clip (buildClipboardMsg enc)).toList)

/-! ### Runs -/

inductive Event
  | message (content : Bytes)
  | file (mimeType fileName : String) (data : Bytes)
  | act (i : ℕ) (ok : Bool)
  /-- the connection is established or lost -/
  | login (loggedIn : Bool)
  | copy (text : Bytes)
  | notice (r : Reading)

def step (w : Win) : Event → Win × List Out
  | .message content => ({ w with tasks := w.tasks ++ [textActs tools keyHex content] }, [])
  | .file mimeType fileName data =>
    ({ w with tasks := w.tasks ++ [fileActs mimeType fileName data] }, [])
  | .act i ok => OneShot.act tools i ok w
  | .login loggedIn => ({ w with loggedIn := loggedIn }, [])
  | .copy text =>
    ({ w with
      content := .text (cString text)
      notices := w.notices ++ [.copy (cString text)] }, [])
  | .notice r =>
    match w.notices with
    | [] => (w, [])
    | _ :: rest => onClipboardChanged tools keyHex r { w with notices := rest }

/-- The step handles the notification of a local copy, while the client is logged in, and the text is
not the one that was last sent or received. -/
def Concerns (w : Win) (text : Bytes) : Event → Prop
  | .notice _ => w.notices.head? = some (.copy text) ∧ w.loggedIn = true ∧
      tools.sha256 text ≠ w.lastClipHash
  | _ => False

/-- Then the text is queued. -/
def Queues (w : Win) (e : Event) : Prop :=
  ∀ text, Concerns tools w text e → ∃ msg, .queued text msg ∈ (step tools keyHex w e).2

/-! ### What stands in the way -/

/-- What becomes of the flag. -/
def mark (flag : Bool) : Out → Bool
  | .suppressed => true
  | .handled => false
  | .queued _ _ => flag

/-- Something has set the flag since the last notification that was handled. -/
def flagged (tr : List Out) : Bool := tr.foldl mark false

/-- The handler finds the text, and can read and encrypt it. -/
def Finds (w : Win) (text : Bytes) : Event → Prop
  | .notice r => w.content = .text text ∧ r.opens = true ∧ text ≠ [] ∧
      (aesGcmEncrypt tools keyHex r.nonce text).isSome = true
  | _ => True

/-- Nothing stands in the way of a local copy. -/
def Clear (w : Win) (tr : List Out) (e : Event) : Prop :=
  ∀ text, Concerns tools w text e → flagged tr = false ∧ Finds tools keyHex w text e

variable {tools keyHex} {w : Win}

lemma flagged_append (tr os : List Out) : flagged (tr ++ os) = os.foldl mark (flagged tr) :=
  List.foldl_append

lemma flag_perform (ok : Bool) (a : Act) :
    (perform tools ok a w).1.suppressNext = (perform tools ok a w).2.foldl mark w.suppressNext := by
  cases a with
  | suppressNext => rfl
  | hashText text => rfl
  | set content => cases ok <;> rfl

lemma flag_onClipboardChanged (r : Reading) :
    (onClipboardChanged tools keyHex r w).1.suppressNext =
      (onClipboardChanged tools keyHex r w).2.foldl mark w.suppressNext := by
  have hqueued : ∀ text (enc : Option Bytes),
      (enc.map fun enc => Out.queued text (buildClipboardMsg enc)).toList.foldl mark false = false := by
    intro text enc
    cases enc <;> rfl
  unfold onClipboardChanged
  split_ifs with hlogged hsuppress
  · rfl
  · rfl
  · have hflag : w.suppressNext = false := by simpa using hsuppress
    split
    · exact hflag
    · split_ifs
      · exact hflag
      · exact hflag
      · exact hflag.trans (hqueued _ _).symm

lemma flag_step (e : Event) :
    (step tools keyHex w e).1.suppressNext = (step tools keyHex w e).2.foldl mark w.suppressNext := by
  cases e with
  | act i ok =>
    simp only [step, OneShot.act]
    split
    · exact flag_perform ok _
    · rfl
  | notice r =>
    simp only [step]
    split
    · rfl
    · exact flag_onClipboardChanged r
  | _ => rfl

lemma queued_onClipboardChanged {r : Reading} {text : Bytes} (hlogged : w.loggedIn = true)
    (hhash : tools.sha256 text ≠ w.lastClipHash) :
    (∃ msg, .queued text msg ∈ (onClipboardChanged tools keyHex r w).2) ↔
      w.suppressNext = false ∧ w.content = .text text ∧ r.opens = true ∧ text ≠ [] ∧
        (aesGcmEncrypt tools keyHex r.nonce text).isSome = true := by
  unfold onClipboardChanged clipboardGet
  simp only [hlogged, Bool.true_eq_false, if_false]
  cases hsuppress : w.suppressNext with
  | true => simp
  | false =>
    cases hcontent : w.content with
    | text t =>
      by_cases hopens : r.opens = true
      · simp only [Bool.false_eq_true, if_false, hopens, if_true, true_and, Content.text.injEq]
        constructor
        · rintro ⟨msg, hmsg⟩
          split_ifs at hmsg with hempty hsame
          · simp at hmsg
          · simp at hmsg
          · rw [List.mem_cons, Option.mem_toList] at hmsg
            obtain ⟨enc, henc, heq⟩ := Option.map_eq_some_iff.mp (hmsg.resolve_left (by simp))
            cases heq
            exact ⟨rfl, fun hnil => hempty (by rw [hnil]; rfl), by rw [henc]; rfl⟩
        · rintro ⟨rfl, hne, hsome⟩
          obtain ⟨enc, henc⟩ := Option.isSome_iff_exists.mp hsome
          have hlen : ¬ t.length = 0 := fun h => hne (List.length_eq_zero_iff.mp h)
          rw [if_neg hlen, if_neg hhash, henc]
          exact ⟨_, List.mem_cons_of_mem _ (List.mem_singleton_self _)⟩
      · simp [hopens]
    | _ => simp

lemma queues_iff {tr : List Out} (hflag : w.suppressNext = flagged tr) (e : Event) :
    Queues tools keyHex w e ↔ Clear tools keyHex w tr e := by
  cases e with
  | notice r =>
    unfold Queues Clear
    refine forall_congr' fun text => forall_congr' fun hconcerns => ?_
    obtain ⟨hhead, hlogged, hhash⟩ := hconcerns
    rw [← hflag]
    simp only [step, Finds]
    cases hnotices : w.notices with
    | nil =>
      rw [hnotices] at hhead
      cases hhead
    | cons n rest =>
      exact queued_onClipboardChanged (w := { w with notices := rest }) hlogged hhash
  | _ => exact ⟨fun _ _ h => h.elim, fun _ _ h => h.elim⟩

/-- **The flag swallows only the change it was set for**: in a run, every local copy that the window is
told about while the client is logged in is queued, unless it is the text that was last sent or
received, if and only if each time nothing has set the flag since the last notification that was
handled, and the handler finds the text in the clipboard and can read and encrypt it. -/
theorem one_shot_iff (tools : Tools) (keyHex : Bytes) (es : List Event) :
    Run.Steps (step tools keyHex) (Queues tools keyHex) init es ↔
      Run.Guarded (step tools keyHex) (Clear tools keyHex) init [] es := by
  have hstep : ∀ w tr e, w.suppressNext = flagged tr →
      (step tools keyHex w e).1.suppressNext = flagged (tr ++ (step tools keyHex w e).2) := by
    intro w tr e hflag
    rw [flagged_append, ← hflag]
    exact flag_step e
  exact Run.steps_iff_guarded hstep (fun w tr e hflag => queues_iff hflag e) rfl es

section Sample

/-- An image comes and cannot be put into the clipboard, and the user copies a text. -/
def failedImage : List Event :=
  [.login true, .file "image/png" "a.png" [1], .act 0 true, .act 0 false, .copy (ascii "b")]

def readable : Reading := ⟨true, some (List.replicate 12 0)⟩

/-- The copy is taken for the image. -/
theorem failed_set_swallows_copy :
    ¬ Run.Steps (step copyTools sampleKeyHex) (Queues copyTools sampleKeyHex) init
      (failedImage ++ [.notice readable]) := by
  intro hsteps
  obtain ⟨msg, hmsg⟩ := Run.steps_at hsteps (ascii "b") ⟨by decide, by decide, by decide⟩
  have hout : (step copyTools sampleKeyHex
      (Run.exec (step copyTools sampleKeyHex) init failedImage) (.notice readable)).2 =
      [.handled] := by decide
  rw [hout] at hmsg
  simp at hmsg

end Sample

end SyncClipboard.OneShot
