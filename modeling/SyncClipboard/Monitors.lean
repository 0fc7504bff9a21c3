import SyncClipboard.Echo

/-!
The two clipboard monitors of the Linux client, on the same history.

Both read the clipboard and send a text whose hash is another one, and both leave it alone for two
seconds after a text was received. The polling monitor comes back later. The monitor that waits for
XFIXES events drops an event it gets in that time, and does not look again before the next one. So they
agree on the last local copy exactly where an event is left for it (`agree_iff`).

Times are in milliseconds, the client is logged in, and `RAND_bytes` gives a nonce. A turn of a monitor
takes no time, apart from the time it waits before it reads.
-/

namespace SyncClipboard.Monitors

open FtAuth Crypto ClipIntegrity Echo

/-- What happens to the clipboard. Who copies a text may select it too. -/
inductive Deed
  | receive (nowMs : ℤ) (content : Bytes)
  | copy (nowMs : ℤ) (text : Bytes) (selected : Bool)

def Deed.nowMs : Deed → ℤ
  | .receive nowMs _ => nowMs
  | .copy nowMs _ _ => nowMs

/-- A turn of a monitor: when it is, and whether the owner of the selection answers. -/
structure Turn where
  nowMs : ℤ
  reads : Bool
  nonce : Bytes

/-- A message that was queued, the text in it, and the text that the selection held. -/
structure Queued where
  held : Bytes
  text : Bytes
  msg : Bytes
  deriving DecidableEq

variable (tools : Tools) (keyHex : Bytes)

/-- The text that a message sets. -/
def receivedText (content : Bytes) : Option Bytes :=
  ((aesGcmDecrypt tools.prims (cString content) keyHex).or
    (aesDecrypt tools.prims (cString content) keyHex)).map cString

/-- What both monitors do with a text they have read. -/
def sendText (held nonce clip : Bytes) (d : Desk) : Desk × List Queued :=
  if tools.sha256 clip = d.lastClipHash then (d, [])
  else
    ({ d with lastClipHash := tools.sha256 clip },
      ((aesGcmEncrypt tools keyHex (some nonce) clip).map fun enc =>
        ⟨held, clip, buildClipboardMsg enc⟩).toList)

/-! ### Polling -/

inductive PollEvent
  | deed (d : Deed)
  | poll (t : Turn)

def onDeed (d : Desk) : Deed → Desk
  | .receive nowMs content => onClipboardMessage tools keyHex nowMs content d
  | .copy _ text _ => { d with clipboard := cString text }

/-- A turn of `fallback_polling`. -/
def pollTurn (t : Turn) (d : Desk) : Desk × List Queued :=
  if t.nowMs < d.suppressUntilMs then (d, [])
  else match if t.reads then getText d.clipboard else none with
    | none => (d, [])
    | some clip => sendText tools keyHex d.clipboard t.nonce clip d

def pollStep (d : Desk) : PollEvent → Desk × List Queued
  | .deed e => (onDeed tools keyHex d e, [])
  | .poll t => pollTurn tools keyHex t d

/-! ### XFIXES -/

inductive Selection
  | clipboard
  | primary
  deriving DecidableEq

/-- A `XFixesSelectionNotify` event that has arrived. -/
structure Notice where
  selection : Selection
  arrivalMs : ℤ
  deriving DecidableEq

structure Display where
  desk : Desk
  primary : Bytes
  notices : List Notice
  primaryPendingMs : ℤ

inductive XEvent
  | deed (d : Deed)
  /-- the next event; the reads that follow it swallow events that have arrived -/
  | next (t : Turn) (swallowed : ℕ)
  /-- the events are used up -/
  | idle (t : Turn)

def onDisplay (x : Display) : Deed → Display
  | .receive nowMs content =>
    match receivedText tools keyHex content with
    | none => x
    | some text =>
      { x with
        desk := onClipboardMessage tools keyHex nowMs content x.desk
        primary := text
        notices := x.notices ++ [⟨.clipboard, nowMs⟩, ⟨.primary, nowMs⟩] }
  | .copy nowMs text selected =>
    { x with
      desk := { x.desk with clipboard := cString text }
      primary := if selected then cString text else x.primary
      notices := x.notices ++ (if selected then [⟨.primary, nowMs⟩] else []) ++
        [⟨.clipboard, nowMs⟩] }

/-- `x11_clipboard_get_text`, and the read of `process_primary_change`. -/
def x11GetText (stream : Bytes) : Option Bytes := if stream = [] then none else some (cString stream)

/-- A text that was read from a selection. -/
def process (t : Turn) (stream : Bytes) (x : Display) : Display × List Queued :=
  match if t.reads then x11GetText stream else none with
  | none => (x, [])
  | some clip =>
    let sent := sendText tools keyHex clip t.nonce clip x.desk
    ({ x with desk := sent.1 }, sent.2)

/-- The body of the inner loop; the clipboard is read 100 ms after the event. -/
def nextEvent (t : Turn) (swallowed : ℕ) (x : Display) : Display × List Queued :=
  match x.notices with
  | [] => (x, [])
  | ⟨.primary, _⟩ :: rest => ({ x with notices := rest, primaryPendingMs := t.nowMs }, [])
  | ⟨.clipboard, arrivalMs⟩ :: rest =>
    if t.nowMs < arrivalMs + 100 then (x, [])
    else if t.nowMs < x.desk.suppressUntilMs then ({ x with notices := rest }, [])
    else process tools keyHex t x.desk.clipboard { x with notices := rest.drop swallowed }

/-- The debounced processing of the primary selection. -/
def idleTurn (t : Turn) (x : Display) : Display × List Queued :=
  if x.notices = [] ∧ 0 < x.primaryPendingMs ∧ 500 ≤ t.nowMs - x.primaryPendingMs then
    let x := { x with primaryPendingMs := 0 }
    if t.nowMs < x.desk.suppressUntilMs then (x, []) else process tools keyHex t x.primary x
  else (x, [])

def xStep (x : Display) : XEvent → Display × List Queued
  | .deed d => (onDisplay tools keyHex x d, [])
  | .next t swallowed => nextEvent tools keyHex t swallowed x
  | .idle t => idleTurn tools keyHex t x

/-! ### Histories -/

def pollDeeds (es : List PollEvent) : List Deed :=
  es.filterMap fun
    | .deed d => some d
    | .poll _ => none

def xDeeds (es : List XEvent) : List Deed :=
  es.filterMap fun
    | .deed d => some d
    | _ => none

/-- A text is received. -/
def Sets : Deed → Prop
  | .receive _ content => (receivedText tools keyHex content).isSome = true
  | .copy _ _ _ => False

def isCopy : Deed → Bool
  | .copy _ _ _ => true
  | _ => false

/-- A message with the whole text, read where the text was. -/
def Carries (text : Bytes) (q : Queued) : Prop := q.held = text ∧ q.text = text

instance (text : Bytes) (q : Queued) : Decidable (Carries text q) :=
  inferInstanceAs (Decidable (_ ∧ _))

/-- The text that a step reads. -/
def pollReading (d : Desk) : PollEvent → Option Bytes
  | .deed _ => none
  | .poll t =>
    if t.nowMs < d.suppressUntilMs then none else if t.reads then getText d.clipboard else none

def xReading (x : Display) : XEvent → Option Bytes
  | .deed _ => none
  | .next t _ =>
    match x.notices with
    | ⟨.clipboard, arrivalMs⟩ :: _ =>
      if t.nowMs < arrivalMs + 100 ∨ t.nowMs < x.desk.suppressUntilMs then none
      else if t.reads then x11GetText x.desk.clipboard else none
    | _ => none
  | .idle t =>
    if (x.notices = [] ∧ 0 < x.primaryPendingMs ∧ 500 ≤ t.nowMs - x.primaryPendingMs) ∧
        ¬ t.nowMs < x.desk.suppressUntilMs then
      if t.reads then x11GetText x.primary else none
    else none

variable {tools keyHex}

/-- A poll queues what `Echo.poll` says. -/
lemma pollTurn_eq (t : Turn) (hreads : t.reads = true) (d : Desk) :
    (pollTurn tools keyHex t d).1 = (Echo.poll tools keyHex d ⟨t.nowMs, true, some t.nonce⟩).1 ∧
      (pollTurn tools keyHex t d).2.map Queued.msg =
        (Echo.poll tools keyHex d ⟨t.nowMs, true, some t.nonce⟩).2 := by
  unfold pollTurn Echo.poll processClipboardChange
  simp only [hreads, if_true, Bool.true_eq_false, if_false]
  split_ifs
  · exact ⟨rfl, rfl⟩
  · cases getText d.clipboard with
    | none => exact ⟨rfl, rfl⟩
    | some clip =>
      simp only [sendText]
      split_ifs
      · exact ⟨rfl, rfl⟩
      · refine ⟨rfl, ?_⟩
        cases aesGcmEncrypt tools keyHex (some t.nonce) clip <;> rfl

/-! ### What is sent -/

/-- `aes_gcm_encrypt` gives nothing for the text, for want of a key or because of its length. -/
def Unencrypted (tools : Tools) (keyHex text : Bytes) : Prop :=
  ∀ nonce, aesGcmEncrypt tools keyHex (some nonce) text = none

lemma sendText_new {clip : Bytes} (henc : ¬ Unencrypted tools keyHex clip) {d : Desk}
    (hnew : tools.sha256 clip ≠ d.lastClipHash) (nonce : Bytes) :
    ∃ q ∈ (sendText tools keyHex clip nonce clip d).2, Carries clip q := by
  obtain ⟨nonce', hsome⟩ := not_forall.mp henc
  rw [← ne_eq, Option.ne_none_iff_isSome, aesGcmEncrypt_isSome nonce' nonce, Option.isSome_iff_exists] at hsome
  obtain ⟨enc, henc⟩ := hsome
  refine ⟨⟨clip, clip, buildClipboardMsg enc⟩, ?_, rfl, rfl⟩
  simp [sendText, hnew, henc]

lemma mem_sendText {held nonce clip : Bytes} {d : Desk} {q : Queued}
    (h : q ∈ (sendText tools keyHex held nonce clip d).2) :
    q.held = held ∧ q.text = clip ∧ tools.sha256 clip ≠ d.lastClipHash := by
  unfold sendText at h
  split_ifs at h with hsame
  · cases h
  · obtain ⟨enc, -, rfl⟩ := Option.map_eq_some_iff.mp (Option.mem_toList.mp h)
    exact ⟨rfl, rfl, hsame⟩

/-- Nothing but the hash changes, and only to that of the text. -/
lemma sendText_desk (held nonce clip : Bytes) (d : Desk) :
    (sendText tools keyHex held nonce clip d).1.clipboard = d.clipboard ∧
      (sendText tools keyHex held nonce clip d).1.suppressUntilMs = d.suppressUntilMs ∧
      ((sendText tools keyHex held nonce clip d).1.lastClipHash = d.lastClipHash ∨
        (sendText tools keyHex held nonce clip d).1.lastClipHash = tools.sha256 clip) := by
  unfold sendText
  split_ifs
  · exact ⟨rfl, rfl, .inl rfl⟩
  · exact ⟨rfl, rfl, .inr rfl⟩

/-- A turn of the polling monitor sends what it reads. -/
lemma pollStep_poll (d : Desk) (t : Turn) :
    pollStep tools keyHex d (.poll t) =
      match pollReading d (.poll t) with
      | none => (d, [])
      | some clip => sendText tools keyHex d.clipboard t.nonce clip d := by
  simp only [pollStep, pollTurn, pollReading]
  split_ifs <;> rfl

/-- A turn that reads nothing changes nothing but the events. -/
def Alike (x y : Display) : Prop := y.desk = x.desk ∧ y.primary = x.primary

lemma process_of_none {t : Turn} {stream : Bytes} (x : Display)
    (h : (if t.reads then x11GetText stream else none) = none) :
    process tools keyHex t stream x = (x, []) := by
  simp only [process, h]

lemma process_of_some {t : Turn} {stream clip : Bytes} (x : Display)
    (h : (if t.reads then x11GetText stream else none) = some clip) :
    clip = cString stream ∧ process tools keyHex t stream x =
      ({ x with desk := (sendText tools keyHex clip t.nonce clip x.desk).1 },
        (sendText tools keyHex clip t.nonce clip x.desk).2) := by
  refine ⟨?_, by simp only [process, h]⟩
  unfold x11GetText at h
  split_ifs at h
  exact (Option.some.inj h).symm

lemma xStep_of_none {x : Display} {e : XEvent} (he : ∀ d, e ≠ .deed d) (h : xReading x e = none) :
    Alike x (xStep tools keyHex x e).1 ∧ (xStep tools keyHex x e).2 = [] := by
  have hsame : Alike x x := ⟨rfl, rfl⟩
  cases e with
  | deed d => exact absurd rfl (he d)
  | next t swallowed =>
    simp only [xStep, nextEvent, xReading] at h ⊢
    rcases hn : x.notices with _ | ⟨⟨selection, arrivalMs⟩, rest⟩
    · exact ⟨hsame, rfl⟩
    · cases selection with
      | primary => exact ⟨hsame, rfl⟩
      | clipboard =>
        simp only [hn] at h
        dsimp only
        split_ifs with hearly hsuppressed
        · exact ⟨hsame, rfl⟩
        · exact ⟨hsame, rfl⟩
        · rw [if_neg (not_or.mpr ⟨hearly, hsuppressed⟩)] at h
          rw [process_of_none _ h]
          exact ⟨hsame, rfl⟩
  | idle t =>
    simp only [xStep, idleTurn, xReading] at h ⊢
    split_ifs with hdue hsuppressed
    · exact ⟨hsame, rfl⟩
    · rw [if_pos ⟨hdue, hsuppressed⟩] at h
      rw [process_of_none _ h]
      exact ⟨hsame, rfl⟩
    · exact ⟨hsame, rfl⟩

/-- A turn sends what it reads, from one of the selections. -/
lemma xStep_of_some {x : Display} {e : XEvent} {clip : Bytes} (h : xReading x e = some clip) :
    (clip = cString x.desk.clipboard ∨ clip = cString x.primary) ∧
      (xStep tools keyHex x e).1.primary = x.primary ∧
      ∃ nonce, (xStep tools keyHex x e).1.desk = (sendText tools keyHex clip nonce clip x.desk).1 ∧
        (xStep tools keyHex x e).2 = (sendText tools keyHex clip nonce clip x.desk).2 := by
  cases e with
  | deed d => cases h
  | next t swallowed =>
    simp only [xStep, nextEvent, xReading] at h ⊢
    rcases hn : x.notices with _ | ⟨⟨selection, arrivalMs⟩, rest⟩
    · rw [hn] at h
      cases h
    · cases selection with
      | primary =>
        rw [hn] at h
        cases h
      | clipboard =>
        simp only [hn] at h
        dsimp only
        split_ifs at h with hskip hreads
        obtain ⟨hearly, hsuppressed⟩ := not_or.mp hskip
        rw [if_neg hearly, if_neg hsuppressed]
        obtain ⟨hclip, hprocess⟩ := @process_of_some tools keyHex t _ _
          { x with notices := rest.drop swallowed } (by rw [if_pos hreads]; exact h)
        rw [hprocess]
        exact ⟨.inl hclip, rfl, t.nonce, rfl, rfl⟩
  | idle t =>
    simp only [xStep, idleTurn, xReading] at h ⊢
    split_ifs at h with hdue hreads
    rw [if_pos hdue.1, if_neg hdue.2]
    obtain ⟨hclip, hprocess⟩ := @process_of_some tools keyHex t _ _ { x with primaryPendingMs := 0 }
      (by rw [if_pos hreads]; exact h)
    rw [hprocess]
    exact ⟨.inr hclip, rfl, t.nonce, rfl, rfl⟩

/-! ### What is received -/

lemma onClipboardMessage_some {content text : Bytes} (h : receivedText tools keyHex content = some text)
    (nowMs : ℤ) (d : Desk) : cString text = text ∧
      onClipboardMessage tools keyHex nowMs content d = ⟨tools.sha256 text, nowMs + 2000, text⟩ := by
  obtain ⟨dec, hdec, rfl⟩ := Option.map_eq_some_iff.mp h
  exact ⟨cString_cString dec, onClipboardMessage_eq hdec nowMs d⟩

lemma onClipboardMessage_none {content : Bytes} (h : receivedText tools keyHex content = none)
    (nowMs : ℤ) (d : Desk) : onClipboardMessage tools keyHex nowMs content d = d := by
  have hdec := Option.map_eq_none_iff.mp h
  simp [onClipboardMessage, linuxClipboard, onClipboard, hdec, perform]

/-! ### The XFIXES monitor -/

variable {text : Bytes}

variable (tools) in
/-- The copy is in the clipboard, and it is new. -/
def XHeld (text : Bytes) (x : Display) : Prop :=
  x.desk.clipboard = text ∧ tools.sha256 text ≠ x.desk.lastClipHash ∧
    (tools.sha256 (cString x.primary) = tools.sha256 text → cString x.primary = text)

variable (tools) in
/-- A received text is everywhere. -/
def XGone (x : Display) : Prop :=
  ∃ text, cString text = text ∧ x.desk.clipboard = text ∧ x.primary = text ∧
    x.desk.lastClipHash = tools.sha256 text

variable (tools keyHex) in
def xSets : XEvent → Prop
  | .deed d => Sets tools keyHex d
  | _ => False

/-- Nothing is copied any more. -/
def xLater : XEvent → Prop
  | .deed d => isCopy d = false
  | _ => True

lemma xStep_receive {x : Display} {d : Deed} (hd : isCopy d = false) :
    (Sets tools keyHex d → XGone tools (xStep tools keyHex x (.deed d)).1) ∧
      (¬ Sets tools keyHex d → (xStep tools keyHex x (.deed d)).1 = x) := by
  cases d with
  | copy nowMs text selected => cases hd
  | receive nowMs content =>
    simp only [Sets, xStep, onDisplay]
    cases hreceived : receivedText tools keyHex content with
    | none => simp
    | some text =>
      obtain ⟨hc, hdesk⟩ := onClipboardMessage_some hreceived nowMs x.desk
      refine ⟨fun _ => ⟨text, hc, ?_, rfl, ?_⟩, fun hnot => absurd rfl hnot⟩
      · dsimp only
        rw [hdesk]
      · dsimp only
        rw [hdesk]

/-- A deed, a turn that reads nothing, or one that sends what it reads. -/
lemma xStep_cases (x : Display) (e : XEvent) :
    (∃ d, e = .deed d) ∨ ¬ xSets tools keyHex e ∧
      ((Alike x (xStep tools keyHex x e).1 ∧ (xStep tools keyHex x e).2 = []) ∨
        ∃ clip nonce, xReading x e = some clip ∧
          (clip = cString x.desk.clipboard ∨ clip = cString x.primary) ∧
          (xStep tools keyHex x e).1.primary = x.primary ∧
          (xStep tools keyHex x e).1.desk = (sendText tools keyHex clip nonce clip x.desk).1 ∧
          (xStep tools keyHex x e).2 = (sendText tools keyHex clip nonce clip x.desk).2) := by
  by_cases hdeed : ∃ d, e = .deed d
  · exact .inl hdeed
  · push Not at hdeed
    have hnot : ¬ xSets tools keyHex e := by
      cases e with
      | deed d => exact absurd rfl (hdeed d)
      | _ => exact id
    refine .inr ⟨hnot, ?_⟩
    cases hreading : xReading x e with
    | none => exact .inl (xStep_of_none hdeed hreading)
    | some clip =>
      obtain ⟨hfrom, hprimary, nonce, hdesk, hout⟩ := @xStep_of_some tools keyHex x e clip hreading
      exact .inr ⟨clip, nonce, rfl, hfrom, hprimary, hdesk, hout⟩

lemma XGone.step {x : Display} (h : XGone tools x) {e : XEvent} (he : xLater e) :
    (∀ q ∈ (xStep tools keyHex x e).2, ¬ Carries text q) ∧ XGone tools (xStep tools keyHex x e).1 := by
  obtain ⟨d, rfl⟩ | ⟨-, ⟨⟨hdesk, hprimary⟩, hout⟩ | ⟨clip, nonce, -, hfrom, hprimary, hdesk, hout⟩⟩ :=
    @xStep_cases tools keyHex x e
  · obtain ⟨hsets, hsame⟩ := @xStep_receive tools keyHex x d he
    refine ⟨by simp [xStep], ?_⟩
    by_cases hs : Sets tools keyHex d
    · exact hsets hs
    · rw [hsame hs]
      exact h
  · refine ⟨by simp [hout], ?_⟩
    unfold XGone
    rw [hdesk, hprimary]
    exact h
  · obtain ⟨t, hc, hclip, hprim, hlast⟩ := h
    have hread : clip = t := by
      rcases hfrom with rfl | rfl
      · rw [hclip, hc]
      · rw [hprim, hc]
    have hknown : sendText tools keyHex clip nonce clip x.desk = (x.desk, []) := by
      simp [sendText, hread, hlast]
    rw [hknown] at hdesk hout
    refine ⟨by simp [hout], t, hc, ?_⟩
    rw [hdesk, hprimary]
    exact ⟨hclip, hprim, hlast⟩

lemma XHeld.step (htext : cString text = text) {x : Display} (h : XHeld tools text x) {e : XEvent}
    (he : xLater e) (hsees : xReading x e ≠ some text) :
    (∀ q ∈ (xStep tools keyHex x e).2, ¬ Carries text q) ∧
      (xSets tools keyHex e → XGone tools (xStep tools keyHex x e).1) ∧
      (¬ xSets tools keyHex e → XHeld tools text (xStep tools keyHex x e).1) := by
  obtain ⟨d, rfl⟩ |
      ⟨hnot, ⟨⟨hdesk, hprimary⟩, hout⟩ | ⟨clip, nonce, hreading, hfrom, hprimary, hdesk, hout⟩⟩ :=
    @xStep_cases tools keyHex x e
  · obtain ⟨hsets, hsame⟩ := @xStep_receive tools keyHex x d he
    refine ⟨by simp [xStep], hsets, fun hs => ?_⟩
    rw [hsame hs]
    exact h
  · refine ⟨by simp [hout], fun hs => absurd hs hnot, fun _ => ?_⟩
    unfold XHeld
    rw [hdesk, hprimary]
    exact h
  · -- then it reads the primary selection, and something else there
    obtain ⟨hclip, hnew, hother⟩ := h
    have hne : clip ≠ text := fun heq => hsees (heq ▸ hreading)
    have hprim : clip = cString x.primary := by
      rcases hfrom with rfl | hprim
      · rw [hclip, htext] at hne
        exact absurd rfl hne
      · exact hprim
    have hhash : tools.sha256 clip ≠ tools.sha256 text := by
      intro heq
      rw [hprim] at heq hne
      exact hne (hother heq)
    obtain ⟨hsame, -, hlast⟩ := @sendText_desk tools keyHex clip nonce clip x.desk
    refine ⟨fun q hq hcarries => ?_, fun hs => absurd hs hnot, fun _ => ⟨?_, ?_, ?_⟩⟩
    · rw [hout] at hq
      exact hne ((mem_sendText hq).2.1.symm.trans hcarries.2)
    · rw [hdesk, hsame, hclip]
    · rw [hdesk]
      rcases hlast with hlast | hlast
      · rwa [hlast]
      · rw [hlast]
        exact hhash.symm
    · rw [hprimary]
      exact hother

/-- The copy is queued if and only if a turn reads it before another text is received. -/
lemma xQueued_iff (henc : ¬ Unencrypted tools keyHex text) (htext : cString text = text)
    {x : Display} (h : XHeld tools text x) {es : List XEvent} (hes : ∀ e ∈ es, xLater e) :
    (∃ q ∈ Run.outs (xStep tools keyHex) x es, Carries text q) ↔
      Run.Before (xStep tools keyHex) (fun x e => xReading x e = some text) (xSets tools keyHex) x
        es := by
  have hgone : ∀ x e, XGone tools x → xLater e →
      (∀ q ∈ (xStep tools keyHex x e).2, ¬ Carries text q) ∧ XGone tools (xStep tools keyHex x e).1 :=
    fun x e hx he => hx.step he
  have hheld : ∀ x e, XHeld tools text x → xLater e → xReading x e ≠ some text →
      (∀ q ∈ (xStep tools keyHex x e).2, ¬ Carries text q) ∧
        (xSets tools keyHex e → XGone tools (xStep tools keyHex x e).1) ∧
        (¬ xSets tools keyHex e → XHeld tools text (xStep tools keyHex x e).1) :=
    fun x e hx he hsees => hx.step htext he hsees
  refine Run.exists_out_iff_before (I := XHeld tools text) ?_ hheld hgone h hes
  intro x e hx hreads
  obtain ⟨-, -, nonce, -, hout⟩ := @xStep_of_some tools keyHex x e text hreads
  rw [hout]
  exact sendText_new henc hx.2.1 nonce

/-! ### The polling monitor -/

variable (tools) in
/-- The copy is in the clipboard, and it is new where it can be read as a whole. -/
def PollHeld (text : Bytes) (d : Desk) : Prop :=
  d.clipboard = text ∧ (getText text = some text → tools.sha256 text ≠ d.lastClipHash)

variable (tools) in
/-- A received text is in the clipboard. -/
def PollGone (d : Desk) : Prop :=
  getText d.clipboard = some d.clipboard → d.lastClipHash = tools.sha256 d.clipboard

variable (tools keyHex) in
def pollSets : PollEvent → Prop
  | .deed d => Sets tools keyHex d
  | _ => False

/-- Nothing is copied any more. -/
def pollLater : PollEvent → Prop
  | .deed d => isCopy d = false
  | _ => True

lemma pollReading_eq_some {d : Desk} {t : Turn} {clip : Bytes} :
    pollReading d (.poll t) = some clip ↔
      d.suppressUntilMs ≤ t.nowMs ∧ t.reads = true ∧ getText d.clipboard = some clip := by
  simp only [pollReading]
  split_ifs with hsuppressed hreads
  · have hearly : ¬ d.suppressUntilMs ≤ t.nowMs := by omega
    simp [hearly]
  · have hlate : d.suppressUntilMs ≤ t.nowMs := by omega
    simp [hlate, hreads]
  · simp [hreads]

lemma pollStep_receive {d : Desk} {e : Deed} (he : isCopy e = false) :
    (Sets tools keyHex e → PollGone tools (pollStep tools keyHex d (.deed e)).1) ∧
      (¬ Sets tools keyHex e → (pollStep tools keyHex d (.deed e)).1 = d) := by
  cases e with
  | copy nowMs text selected => cases he
  | receive nowMs content =>
    simp only [Sets, pollStep, onDeed]
    cases hreceived : receivedText tools keyHex content with
    | none => simp [onClipboardMessage_none hreceived]
    | some text =>
      rw [(onClipboardMessage_some hreceived nowMs d).2]
      exact ⟨fun _ _ => rfl, fun hnot => absurd rfl hnot⟩

lemma PollGone.step {d : Desk} (h : PollGone tools d) {e : PollEvent} (he : pollLater e) :
    (∀ q ∈ (pollStep tools keyHex d e).2, ¬ Carries text q) ∧
      PollGone tools (pollStep tools keyHex d e).1 := by
  cases e with
  | deed e =>
    obtain ⟨hsets, hsame⟩ := @pollStep_receive tools keyHex d e he
    refine ⟨by simp [pollStep], ?_⟩
    by_cases hs : Sets tools keyHex e
    · exact hsets hs
    · rw [hsame hs]
      exact h
  | poll t =>
    rw [pollStep_poll]
    cases hreading : pollReading d (.poll t) with
    | none => exact ⟨by simp, h⟩
    | some clip =>
      obtain ⟨-, -, hclip⟩ := pollReading_eq_some.mp hreading
      dsimp only
      obtain ⟨hsame, -, hlast⟩ := @sendText_desk tools keyHex d.clipboard t.nonce clip d
      refine ⟨fun q hq hcarries => ?_, fun hwhole => ?_⟩
      · obtain ⟨hheld, htext, hnew⟩ := mem_sendText hq
        have hwhole : clip = d.clipboard :=
          htext.symm.trans (hcarries.2.trans (hcarries.1.symm.trans hheld))
        rw [hwhole] at hclip hnew
        exact hnew (h hclip).symm
      · rw [hsame] at hwhole ⊢
        rw [hwhole, Option.some.injEq] at hclip
        rcases hlast with hlast | hlast
        · rw [hlast]
          exact h hwhole
        · rw [hlast, ← hclip]

lemma PollHeld.step {d : Desk} (h : PollHeld tools text d) {e : PollEvent} (he : pollLater e)
    (hsees : pollReading d e ≠ some text) :
    (∀ q ∈ (pollStep tools keyHex d e).2, ¬ Carries text q) ∧
      (pollSets tools keyHex e → PollGone tools (pollStep tools keyHex d e).1) ∧
      (¬ pollSets tools keyHex e → PollHeld tools text (pollStep tools keyHex d e).1) := by
  cases e with
  | deed e =>
    obtain ⟨hsets, hsame⟩ := @pollStep_receive tools keyHex d e he
    refine ⟨by simp [pollStep], hsets, fun hs => ?_⟩
    rw [hsame hs]
    exact h
  | poll t =>
    rw [pollStep_poll]
    cases hreading : pollReading d (.poll t) with
    | none => exact ⟨by simp, fun hs => hs.elim, fun _ => h⟩
    | some clip =>
      obtain ⟨-, -, hclip⟩ := pollReading_eq_some.mp hreading
      obtain ⟨hdesk, hnew⟩ := h
      have hne : clip ≠ text := fun heq => hsees (heq ▸ hreading)
      obtain ⟨hsame, -, -⟩ := @sendText_desk tools keyHex d.clipboard t.nonce clip d
      refine ⟨fun q hq hcarries => ?_, fun hs => hs.elim, fun _ => ⟨hsame.trans hdesk, ?_⟩⟩
      · exact hne ((mem_sendText hq).2.1.symm.trans hcarries.2)
      · intro hwhole
        rw [hdesk, hwhole, Option.some.injEq] at hclip
        exact absurd hclip.symm hne

lemma pollQueued_iff (henc : ¬ Unencrypted tools keyHex text) {d : Desk}
    (h : PollHeld tools text d) {es : List PollEvent} (hes : ∀ e ∈ es, pollLater e) :
    (∃ q ∈ Run.outs (pollStep tools keyHex) d es, Carries text q) ↔
      Run.Before (pollStep tools keyHex) (fun d e => pollReading d e = some text)
        (pollSets tools keyHex) d es := by
  have hgone : ∀ d e, PollGone tools d → pollLater e →
      (∀ q ∈ (pollStep tools keyHex d e).2, ¬ Carries text q) ∧
        PollGone tools (pollStep tools keyHex d e).1 := fun d e hd he => hd.step he
  have hheld : ∀ d e, PollHeld tools text d → pollLater e → pollReading d e ≠ some text →
      (∀ q ∈ (pollStep tools keyHex d e).2, ¬ Carries text q) ∧
        (pollSets tools keyHex e → PollGone tools (pollStep tools keyHex d e).1) ∧
        (¬ pollSets tools keyHex e → PollHeld tools text (pollStep tools keyHex d e).1) :=
    fun d e hd he hsees => hd.step he hsees
  refine Run.exists_out_iff_before (I := PollHeld tools text) ?_ hheld hgone h hes
  intro d e hd hreads
  cases e with
  | deed e => cases hreads
  | poll t =>
    obtain ⟨-, -, hclip⟩ := pollReading_eq_some.mp hreads
    rw [hd.1] at hclip
    rw [pollStep_poll, hreads]
    dsimp only
    rw [hd.1]
    exact sendText_new henc (hd.2 hclip) t.nonce

/-! ### The same history under both monitors -/

/-- A history that ends with a quiet period: what happens up to the last local copy and after it, under
both monitors, from the same clipboard. In the quiet period there is a poll that finds a text, more
than two seconds after all that has happened. -/
structure History where
  lastClipHash : String
  clipboard : Bytes
  primary : Bytes
  -- the last local copy
  nowMs : ℤ
  text : Bytes
  selected : Bool
  xBefore : List XEvent
  xAfter : List XEvent
  pollBefore : List PollEvent
  pollAfter : List PollEvent
  same_before : xDeeds xBefore = pollDeeds pollBefore
  same_after : xDeeds xAfter = pollDeeds pollAfter
  last : ∀ d ∈ xDeeds xAfter, isCopy d = false
  quiet : ∃ t, .poll t ∈ pollAfter ∧ t.reads = true ∧ 0 ≤ t.nowMs ∧ nowMs + 2000 ≤ t.nowMs ∧
    ∀ d ∈ xDeeds xBefore ++ xDeeds xAfter, d.nowMs + 2000 ≤ t.nowMs

namespace History

variable (h : History)

def copy : Deed := .copy h.nowMs h.text h.selected

variable (tools keyHex)

/-- After the copy. -/
def display : Display :=
  Run.exec (xStep tools keyHex) ⟨⟨h.lastClipHash, 0, h.clipboard⟩, h.primary, [], 0⟩
    (h.xBefore ++ [.deed h.copy])

def desk : Desk :=
  Run.exec (pollStep tools keyHex) ⟨h.lastClipHash, 0, h.clipboard⟩ (h.pollBefore ++ [.deed h.copy])

/-- The copy is neither the text that was last sent or received nor, by its hash, what the primary
selection has. -/
structure New : Prop where
  x : tools.sha256 (cString h.text) ≠ (h.display tools keyHex).desk.lastClipHash
  poll : tools.sha256 (cString h.text) ≠ (h.desk tools keyHex).lastClipHash
  primary : tools.sha256 (cString (h.display tools keyHex).primary) = tools.sha256 (cString h.text) →
    cString (h.display tools keyHex).primary = cString h.text

def XQueued : Prop :=
  ∃ q ∈ Run.outs (xStep tools keyHex) (h.display tools keyHex) h.xAfter, Carries (cString h.text) q

def PollQueued : Prop :=
  ∃ q ∈ Run.outs (pollStep tools keyHex) (h.desk tools keyHex) h.pollAfter,
    Carries (cString h.text) q

/-- Before another text is received, an event for the clipboard is handled outside the two seconds, and
the copy is read; or it is read from the primary selection. -/
def XSees : Prop :=
  Run.Before (xStep tools keyHex) (fun x e => xReading x e = some (cString h.text))
    (xSets tools keyHex) (h.display tools keyHex) h.xAfter

/-- A poll outside the two seconds. -/
def looks (d : Desk) : PollEvent → Prop
  | .deed _ => False
  | .poll t => d.suppressUntilMs ≤ t.nowMs ∧ t.reads = true

def PollLooks : Prop :=
  Run.Before (pollStep tools keyHex) looks (pollSets tools keyHex) (h.desk tools keyHex) h.pollAfter

variable {tools keyHex}

lemma display_clipboard : (h.display tools keyHex).desk.clipboard = cString h.text := by
  rw [display, Run.exec_append]
  rfl

lemma desk_clipboard : (h.desk tools keyHex).clipboard = cString h.text := by
  rw [desk, Run.exec_append]
  rfl

lemma xLater_of_mem : ∀ e ∈ h.xAfter, xLater e := by
  intro e he
  cases e with
  | deed d => exact h.last d (List.mem_filterMap.mpr ⟨.deed d, he, rfl⟩)
  | _ => trivial

lemma pollLater_of_mem : ∀ e ∈ h.pollAfter, pollLater e := by
  intro e he
  cases e with
  | deed d =>
    refine h.last d ?_
    rw [h.same_after]
    exact List.mem_filterMap.mpr ⟨.deed d, he, rfl⟩
  | poll t => trivial

/-! ### Texts that are not encrypted -/

lemma not_carries_of_unencrypted {text : Bytes} (hno : Unencrypted tools keyHex text) (held nonce clip : Bytes)
    (d : Desk) : ∀ q ∈ (sendText tools keyHex held nonce clip d).2, ¬ Carries text q := by
  intro q hq hcarries
  obtain rfl : clip = text := (mem_sendText hq).2.1.symm.trans hcarries.2
  unfold sendText at hq
  split_ifs at hq
  · cases hq
  · rw [hno nonce] at hq
    cases hq

lemma not_xQueued_of_unencrypted (hno : Unencrypted tools keyHex (cString h.text)) : ¬ h.XQueued tools keyHex := by
  rintro ⟨q, hq, hcarries⟩
  refine Run.outs_inv (I := fun _ => True) (P := fun q => ¬ Carries (cString h.text) q)
    (fun x e _ => ⟨trivial, ?_⟩) trivial h.xAfter q hq hcarries
  obtain ⟨d, rfl⟩ | ⟨-, ⟨-, hout⟩ | ⟨clip, nonce, -, -, -, -, hout⟩⟩ := @xStep_cases tools keyHex x e
  · simp [xStep]
  · simp [hout]
  · rw [hout]
    exact not_carries_of_unencrypted hno clip nonce clip x.desk

lemma not_pollQueued_of_unencrypted (hno : Unencrypted tools keyHex (cString h.text)) :
    ¬ h.PollQueued tools keyHex := by
  rintro ⟨q, hq, hcarries⟩
  refine Run.outs_inv (I := fun _ => True) (P := fun q => ¬ Carries (cString h.text) q)
    (fun d e _ => ⟨trivial, ?_⟩) trivial h.pollAfter q hq hcarries
  cases e with
  | deed e => simp [pollStep]
  | poll t =>
    rw [pollStep_poll]
    cases pollReading d (.poll t) with
    | none => simp
    | some clip => exact not_carries_of_unencrypted hno d.clipboard t.nonce clip d

/-! ### Polls -/

/-- The clipboard is left alone for two seconds at most. -/
lemma suppressUntilMs_le {T : ℤ} {es : List PollEvent} (hes : ∀ d ∈ pollDeeds es, d.nowMs + 2000 ≤ T)
    {d : Desk} (hd : d.suppressUntilMs ≤ T) :
    (Run.exec (pollStep tools keyHex) d es).suppressUntilMs ≤ T := by
  induction es generalizing d with
  | nil => exact hd
  | cons e es ih =>
    refine ih (fun d' hd' => hes d' ?_) ?_
    · cases e with
      | deed e => exact List.mem_cons_of_mem _ hd'
      | poll t => exact hd'
    · cases e with
      | poll t =>
        rw [pollStep_poll]
        cases pollReading d (.poll t) with
        | none => exact hd
        | some clip =>
          dsimp only
          rw [(sendText_desk d.clipboard t.nonce clip d).2.1]
          exact hd
      | deed e =>
        have htime := hes e (List.mem_cons_self ..)
        cases e with
        | copy nowMs text selected => exact hd
        | receive nowMs content =>
          simp only [pollStep, onDeed]
          cases hreceived : receivedText tools keyHex content with
          | none =>
            rw [onClipboardMessage_none hreceived]
            exact hd
          | some text =>
            rw [(onClipboardMessage_some hreceived nowMs d).2]
            exact htime

/-- Where no other text is received, the poll of the quiet period looks. -/
lemma pollLooks_of_quiet (hnone : ∀ d ∈ xDeeds h.xAfter, ¬ Sets tools keyHex d) :
    h.PollLooks tools keyHex := by
  obtain ⟨t, ht, hreads, hzero, hcopy, hafter⟩ := h.quiet
  obtain ⟨pre, post, hsplit⟩ := List.append_of_mem ht
  have hdeeds : pollDeeds h.pollAfter = pollDeeds pre ++ pollDeeds post := by
    rw [hsplit]
    simp [pollDeeds]
  have hmem : ∀ d ∈ pollDeeds pre, d ∈ xDeeds h.xAfter := by
    intro d hd
    rw [h.same_after, hdeeds]
    exact List.mem_append_left _ hd
  rw [PollLooks, hsplit]
  refine Run.before_of_step ?_ ⟨?_, hreads⟩
  · intro e he
    cases e with
    | deed d => exact hnone d (hmem d (List.mem_filterMap.mpr ⟨.deed d, he, rfl⟩))
    | poll t => exact id
  · rw [desk, ← Run.exec_append]
    refine suppressUntilMs_le ?_ hzero
    intro d hd
    simp only [pollDeeds, List.filterMap_append, List.mem_append] at hd
    rcases hd with (hd | hd) | hd
    · rw [← pollDeeds, ← h.same_before] at hd
      exact hafter d (List.mem_append_left _ hd)
    · simp only [List.filterMap_cons, List.filterMap_nil, List.mem_singleton] at hd
      rw [hd]
      exact hcopy
    · exact hafter d (List.mem_append_right _ (hmem d hd))

lemma getText_whole_iff {text : Bytes} (htext : cString text = text) :
    getText text = some text ↔ text ≠ [] ∧ text.length ≤ maxClipboardSize - 1 := by
  rw [getText_eq htext]
  constructor
  · intro hwhole
    split_ifs at hwhole with hempty
    have htake := Option.some.inj hwhole
    have hlen := congrArg List.length htake
    rw [List.length_take] at hlen
    rw [htake] at hempty
    exact ⟨hempty, by omega⟩
  · rintro ⟨hne, hlen⟩
    rw [List.take_of_length_le hlen, if_neg hne]

/-- The clipboard keeps the copy until another text is received. -/
lemma clipboard_pollStep {d : Desk} {e : PollEvent} {text : Bytes} (hd : d.clipboard = text)
    (he : pollLater e) (hnot : ¬ pollSets tools keyHex e) :
    (pollStep tools keyHex d e).1.clipboard = text := by
  cases e with
  | deed e => rwa [(@pollStep_receive tools keyHex d e he).2 hnot]
  | poll t =>
    rw [pollStep_poll]
    cases pollReading d (.poll t) with
    | none => exact hd
    | some clip => exact (sendText_desk d.clipboard t.nonce clip d).1.trans hd

/-- A poll that looks finds the whole copy if it fits into the buffer. -/
lemma pollSees_iff :
    Run.Before (pollStep tools keyHex) (fun d e => pollReading d e = some (cString h.text))
        (pollSets tools keyHex) (h.desk tools keyHex) h.pollAfter ↔
      getText (cString h.text) = some (cString h.text) ∧ h.PollLooks tools keyHex := by
  have hkeep : ∀ d e, d.clipboard = cString h.text → pollLater e → ¬ pollSets tools keyHex e →
      (pollStep tools keyHex d e).1.clipboard = cString h.text :=
    fun d e hd he hnot => clipboard_pollStep hd he hnot
  have hreads : ∀ d e, d.clipboard = cString h.text →
      (pollReading d e = some (cString h.text) ↔
        getText (cString h.text) = some (cString h.text) ∧ looks d e) := by
    intro d e hd
    cases e with
    | deed e => simp [pollReading, looks]
    | poll t =>
      rw [pollReading_eq_some, hd, looks]
      tauto
  constructor
  · intro hsees
    refine ⟨Run.Before.const (hsees.imp (I := fun d => d.clipboard = cString h.text)
      (fun d e hd hr => ((hreads d e hd).mp hr).1) hkeep h.desk_clipboard h.pollLater_of_mem), ?_⟩
    exact hsees.imp (I := fun d => d.clipboard = cString h.text)
      (fun d e hd hr => ((hreads d e hd).mp hr).2) hkeep h.desk_clipboard h.pollLater_of_mem
  · rintro ⟨hwhole, hlooks⟩
    exact hlooks.imp (I := fun d => d.clipboard = cString h.text)
      (fun d e hd hl => (hreads d e hd).mpr ⟨hwhole, hl⟩) hkeep h.desk_clipboard h.pollLater_of_mem

/-- **Both monitors agree on the last local copy** of a history with a quiet period, if it is new to
both, if and only if the copy cannot be encrypted, or an event is left for the copy after the two seconds
exactly where a poll reads all of it: where it is not empty and fits into the buffer, and no other text
is received or a poll outside the two seconds comes first. -/
theorem agree_iff (tools : Tools) (keyHex : Bytes) (h : History) (hnew : h.New tools keyHex) :
    (h.XQueued tools keyHex ↔ h.PollQueued tools keyHex) ↔
      Unencrypted tools keyHex (cString h.text) ∨
        (h.XSees tools keyHex ↔
          (cString h.text ≠ [] ∧ (cString h.text).length ≤ maxClipboardSize - 1) ∧
            ((∀ d ∈ xDeeds h.xAfter, ¬ Sets tools keyHex d) ∨ h.PollLooks tools keyHex)) := by
  have htext : cString (cString h.text) = cString h.text := cString_cString h.text
  by_cases hno : Unencrypted tools keyHex (cString h.text)
  · have hx : ¬ h.XQueued tools keyHex := h.not_xQueued_of_unencrypted hno
    have hpoll : ¬ h.PollQueued tools keyHex := h.not_pollQueued_of_unencrypted hno
    simp [hx, hpoll, hno]
  · have hx : h.XQueued tools keyHex ↔ h.XSees tools keyHex :=
      xQueued_iff hno htext ⟨h.display_clipboard, hnew.x, hnew.primary⟩ h.xLater_of_mem
    have hpoll : h.PollQueued tools keyHex ↔
        getText (cString h.text) = some (cString h.text) ∧ h.PollLooks tools keyHex :=
      (pollQueued_iff hno ⟨h.desk_clipboard, fun _ => hnew.poll⟩ h.pollLater_of_mem).trans
        h.pollSees_iff
    have hquiet : ((∀ d ∈ xDeeds h.xAfter, ¬ Sets tools keyHex d) ∨ h.PollLooks tools keyHex) ↔
        h.PollLooks tools keyHex :=
      ⟨fun hor => hor.elim h.pollLooks_of_quiet id, .inr⟩
    rw [hx, hpoll, hquiet, getText_whole_iff htext]
    simp [hno]

/-- **What is not encrypted.** With OpenSSL as it is documented, a text that fits into the buffer is encrypted
exactly if there is a key. -/
theorem unencrypted_iff (hT : tools.Documented) {text : Bytes} (hlen : text.length ≤ maxClipboardSize - 1) :
    Unencrypted tools keyHex text ↔ scHexToBytes keyHex 32 = none := by
  constructor
  · intro hno
    by_contra hkey
    obtain ⟨key, hkey⟩ := Option.ne_none_iff_exists'.mp hkey
    have hnone := hno []
    rw [aesGcmEncrypt_of_fits hT hkey (frameFits_of_read hlen)] at hnone
    cases hnone
  · intro hkey nonce
    simp [aesGcmEncrypt, hkey]

end History

section Sample

def turn (nowMs : ℤ) : Turn := ⟨nowMs, true, List.replicate 12 0⟩

/-- A text is copied, and nothing is received. -/
def plain : History where
  lastClipHash := ""
  clipboard := []
  primary := []
  nowMs := 1000
  text := ascii "b"
  selected := false
  xBefore := []
  xAfter := [.next (turn 1100) 0]
  pollBefore := []
  pollAfter := [.poll (turn 1400), .poll (turn 3400)]
  same_before := rfl
  same_after := rfl
  last := by simp [xDeeds]
  quiet := ⟨turn 3400, by simp, rfl, by decide, by decide, by simp [xDeeds]⟩

/-- Both monitors queue it. -/
theorem agree_plain :
    plain.New copyTools sampleKeyHex ∧
      (plain.XQueued copyTools sampleKeyHex ↔ plain.PollQueued copyTools sampleKeyHex) := by
  have hnew : plain.New copyTools sampleKeyHex :=
    ⟨by decide +kernel, by decide +kernel, by decide +kernel⟩
  have hsees : plain.XSees copyTools sampleKeyHex := .inl (by decide +kernel)
  refine ⟨hnew, (History.agree_iff copyTools sampleKeyHex plain hnew).mpr (.inr ?_)⟩
  refine ⟨fun _ => ⟨⟨by decide, by decide⟩, .inl (by simp [plain, xDeeds])⟩, fun _ => hsees⟩

/-- A text is received, and half a second later another one is copied. -/
def early : History where
  lastClipHash := ""
  clipboard := []
  primary := []
  nowMs := 1500
  text := ascii "b"
  selected := false
  xBefore := [.deed (.receive 1000 sealedHello), .next (turn 1100) 0, .next (turn 1100) 0]
  xAfter := [.next (turn 1600) 0, .idle (turn 1700)]
  pollBefore := [.deed (.receive 1000 sealedHello), .poll (turn 1400)]
  pollAfter := [.poll (turn 1900), .poll (turn 2400), .poll (turn 2900), .poll (turn 3400),
    .poll (turn 3900)]
  same_before := rfl
  same_after := rfl
  last := by simp [xDeeds]
  quiet := ⟨turn 3900, by simp, rfl, by decide, by decide, by simp [xDeeds, Deed.nowMs, turn]⟩

/-- The event of the copy is dropped, and no event is left. Only the polling monitor queues the text. -/
theorem early_copy_lost :
    early.New copyTools sampleKeyHex ∧
      (Run.exec (xStep copyTools sampleKeyHex) (early.display copyTools sampleKeyHex)
        early.xAfter).notices = [] ∧
      ¬ (early.XQueued copyTools sampleKeyHex ↔ early.PollQueued copyTools sampleKeyHex) := by
  have hpoll : early.PollQueued copyTools sampleKeyHex := by
    unfold History.PollQueued
    decide +kernel
  have hx : ¬ early.XQueued copyTools sampleKeyHex := by
    unfold History.XQueued
    decide +kernel
  refine ⟨⟨by decide +kernel, by decide +kernel, by decide +kernel⟩, by decide +kernel, ?_⟩
  exact fun hiff => hx (hiff.mpr hpoll)

end Sample

end SyncClipboard.Monitors
