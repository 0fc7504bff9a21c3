import SyncClipboard.GrowBuf
import SyncClipboard.Run

/-!
Reading a selection from its owner, on X11.

The requestor asks for a target and polls for events: for the answer, and where the owner announces an
incremental transfer for each further value of the property. The owner answers, and writes the next value
once the last one is deleted, whenever it likes. Every wait ends after a number of polls, answered or not.
What is returned is a beginning of what the owner offers for that target, and all of it if
the owner has nothing left to do (`read_selection`). The program is for 64 bits.
-/

namespace SyncClipboard.X11Selection

open FtAuth GrowBuf
open Reassembly (realloc length_realloc)

/-! ### The owner and the server -/

/-- A value of the property, as `XGetWindowProperty` hands it over: items of 8, 16 or 32 bits, the last
each in a `long`. -/
structure Content where
  format : ℕ
  nitems : ℕ
  data : Bytes
  covers : data.length = nitems * (if format = 32 then 8 else if format = 16 then 2 else 1)
  deriving DecidableEq

def Content.none : Content := ⟨8, 0, [], rfl⟩

/-- The property on the window, and whether its type is `INCR`. -/
structure Property where
  incr : Bool
  content : Content
  deriving DecidableEq

/-- No part of an incremental transfer is empty. -/
abbrev Part := {c : Content // c.nitems ≠ 0}

/-- What the owner has for a target. -/
inductive Answer
  | refuse
  | whole (c : Content)
  | parts (lowerBound : Content) (cs : List Part)

/-- The events of the window. What the waits ignore is `other`. -/
inductive XEvent
  | selectionNotify (property : Bool)
  | propertyNotify (newValue : Bool)
  | other
  deriving DecidableEq

/-- The events that have arrived, the property, the requests the owner has not answered, and what it has
still to write. -/
structure Display (T : Type) where
  queue : List XEvent
  property : Option Property
  requests : List T
  sending : Option (List Part)

/-- What can happen between two polls. -/
inductive Deed
  | answers
  | writes
  | foreign
  deriving DecidableEq

variable {T : Type} (answer : T → Answer)

def Deed.run (x : Display T) : Deed → Display T
  | .answers =>
    match x.requests with
    | [] => x
    | t :: ts =>
      match answer t with
      | .refuse => { x with requests := ts, queue := x.queue ++ [.selectionNotify false] }
      | .whole c =>
        { x with
          requests := ts
          property := some ⟨false, c⟩
          queue := x.queue ++ [.propertyNotify true, .selectionNotify true] }
      | .parts lowerBound cs =>
        { x with
          requests := ts
          property := some ⟨true, lowerBound⟩
          sending := some cs
          queue := x.queue ++ [.propertyNotify true, .selectionNotify true] }
  | .writes =>
    match x.property, x.sending with
    | none, some [] =>
      { x with property := some ⟨false, .none⟩, sending := none, queue := x.queue ++ [.propertyNotify true] }
    | none, some (c :: cs) =>
      { x with property := some ⟨false, c⟩, sending := some cs, queue := x.queue ++ [.propertyNotify true] }
    | _, _ => x
  | .foreign => { x with queue := x.queue ++ [.other] }

/-- `XGetWindowProperty` with `delete`, or `XDeleteProperty`. -/
def deleteProperty (x : Display T) : Display T :=
  if x.property.isSome then { x with property := none, queue := x.queue ++ [.propertyNotify false] } else x

/-! ### The requestor -/

/-- What happens before each poll. -/
abbrev Sched := List (List Deed)

/-- A wait of so many polls. A poll takes the next event, or sleeps. -/
def wait (stop : XEvent → Bool) : ℕ → Sched → Display T → Option XEvent × Sched × Display T
  | 0, s, x => (none, s, x)
  | n + 1, s, x =>
    let x := (s.headD []).foldl (Deed.run answer) x
    match x.queue with
    | [] => wait stop n s.tail x
    | ev :: queue =>
      if stop ev then (some ev, s.tail, { x with queue := queue })
      else wait stop n s.tail { x with queue := queue }

def isSelectionNotify : XEvent → Bool
  | .selectionNotify _ => true
  | _ => false

def isNewValue : XEvent → Bool
  | .propertyNotify newValue => newValue
  | _ => false

def chunkSize (c : Content) : ℕ :=
  c.nitems * (if c.format = 32 then 8 else if c.format = 16 then 2 else 1) % 2 ^ 64

variable (junk : ℕ → UInt8)

/-- The buffer before the copy. -/
def grow (total : ℕ) (buf : Buf) : Except Fault Buf :=
  if total > buf.cap then do
    let cap ← growLoop 64 total 64 buf.cap
    return ⟨realloc junk buf.data cap, buf.len, cap⟩
  else return buf

def append (buf : Buf) (c : Content) : Except Fault Buf := do
  let total := (buf.len + chunkSize c) % 2 ^ 64
  let buf ← grow junk total buf
  let data ← memcpy buf.data buf.len (c.data.take (chunkSize c))
  return ⟨data, total, buf.cap⟩

/-- The incremental transfer, for so many rounds. -/
def readChunks : ℕ → Sched → Display T → Buf → Except Fault (Buf × Sched × Display T)
  | 0, _, _, _ => .error .running
  | rounds + 1, s, x, buf =>
    match wait answer isNewValue 200 s x with
    | (none, s, x) => .ok (buf, s, x)
    | (some _, s, x) =>
      match x.property with
      | none => .ok (buf, s, x)
      | some p =>
        if p.content.nitems = 0 then .ok (buf, s, deleteProperty x)
        else do
          let buf ← append junk buf p.content
          readChunks rounds s (deleteProperty x) buf

/-- `x11_read_selection_ex`; no bytes are `NULL`. -/
def x11ReadSelection (rounds : ℕ) (target : T) (s : Sched) (x : Display T) :
    Except Fault (Option Bytes × Sched × Display T) :=
  match wait answer isSelectionNotify 100 s { x with requests := x.requests ++ [target] } with
  | (some (.selectionNotify true), s, x) =>
    if (x.property.map Property.incr).getD false then do
      let (buf, s, x) ← readChunks answer junk rounds s (deleteProperty x)
        ⟨(List.range 65536).map junk, 0, 65536⟩
      return (if buf.len = 0 then none else some (buf.data.take buf.len), s, x)
    else
      match x.property with
      | none => .ok (none, s, x)
      | some p =>
        .ok (if p.content.nitems = 0 then none else some (p.content.data.take (chunkSize p.content)), s,
          deleteProperty x)
  | (_, s, x) => .ok (none, s, x)

/-! ### What is to be shown -/

/-- The bytes of some parts. -/
def bytesOf (cs : List Part) : Bytes := cs.flatMap fun c => c.1.data

/-- Empty contents are not told from none. -/
def offered : Answer → Option Bytes
  | .refuse => none
  | .whole c => if c.data = [] then none else some c.data
  | .parts _ cs => if bytesOf cs = [] then none else some (bytesOf cs)

/-- Neither the owner nor the requestor has anything left to do. -/
structure Clean (x : Display T) : Prop where
  requests : x.requests = []
  sending : x.sending = none
  queue : ∀ ev ∈ x.queue, isSelectionNotify ev = false

/-! ### The buffer -/

/-- The buffer holds the bytes, and is never empty. -/
structure Room (msg : Bytes) (buf : Buf) : Prop where
  holds : Holds 64 (2 ^ 16) msg buf
  cap : buf.cap ≠ 0

variable {answer} {junk}

lemma room_start : Room [] ⟨(List.range 65536).map junk, 0, 65536⟩ :=
  ⟨⟨by simp, rfl, Nat.zero_le _, rfl, .inr ⟨Nat.le_refl _, 16, by decide, rfl⟩⟩, by simp⟩

lemma chunkSize_eq {c : Content} (h : c.data.length < 2 ^ 64) : chunkSize c = c.data.length := by
  rw [chunkSize, ← c.covers]
  exact Nat.mod_eq_of_lt h

lemma Room.grow {msg : Bytes} {buf : Buf} (h : Room msg buf) {total : ℕ} (htotal : total ≤ 2 ^ 63) :
    ∃ buf', grow junk total buf = .ok buf' ∧ Room msg buf' ∧ total ≤ buf'.cap := by
  unfold X11Selection.grow
  split
  · obtain hzero | ⟨hfirst, j, hj, hcap⟩ := h.holds.cap
    · exact absurd hzero h.cap
    · obtain ⟨i, hi, hji, hloop, hle⟩ := @growLoop_ok 64 total j htotal hj 64 (by omega)
      have hkeep : buf.cap ≤ 2 ^ i := hcap ▸ Nat.pow_le_pow_right (by omega) hji
      have hsize := h.holds.size
      have hfits := h.holds.fits
      refine ⟨⟨realloc junk buf.data (2 ^ i), buf.len, 2 ^ i⟩, ?_,
        ⟨⟨?_, h.holds.len, Nat.le_trans hfits hkeep, ?_, .inr ⟨?_, i, hi, rfl⟩⟩, by simp⟩, hle⟩
      · rw [hcap, hloop]
        rfl
      · exact length_realloc junk (by omega)
      · dsimp only
        rw [realloc, List.take_append_of_le_length (by omega)]
        exact h.holds.held
      · exact Nat.le_trans hfirst hkeep
  · exact ⟨buf, rfl, h, by omega⟩

lemma Room.append {msg : Bytes} {buf : Buf} (h : Room msg buf) {c : Content}
    (hfits : (msg ++ c.data).length < 2 ^ 63) :
    ∃ buf', append junk buf c = .ok buf' ∧ Room (msg ++ c.data) buf' := by
  have hlen := h.holds.len
  rw [List.length_append] at hfits
  have htotal : (buf.len + c.data.length) % 2 ^ 64 = buf.len + c.data.length := Nat.mod_eq_of_lt (by omega)
  obtain ⟨b, hb, hroom, hle⟩ := @Room.grow junk msg buf h (buf.len + c.data.length) (by omega)
  have hblen : b.len = buf.len := by rw [hroom.holds.len, hlen]
  obtain ⟨data, hcopy, hholds⟩ := @Holds.memcpy 64 _ msg b hroom.holds c.data (by omega)
  refine ⟨⟨data, buf.len + c.data.length, b.cap⟩, ?_, ?_, hroom.cap⟩
  · rw [X11Selection.append, chunkSize_eq (by omega), List.take_length]
    rw [htotal, hb]
    simp only [bind, Except.bind, hcopy]
    rfl
  · rwa [hblen] at hholds

/-! ### A wait -/

/-- What a wait keeps, if the deeds and the events it passes over keep it. -/
lemma wait_spec {stop : XEvent → Bool} {I : Display T → Prop} (hdeed : ∀ x d, I x → I (Deed.run answer x d))
    (hpass : ∀ x ev queue, I x → x.queue = ev :: queue → stop ev = false → I { x with queue := queue })
    {n : ℕ} {s s' : Sched} {x x' : Display T} {r : Option XEvent} (h : I x)
    (hw : wait answer stop n s x = (r, s', x')) :
    (r = none ∧ I x') ∨
      ∃ ev y, r = some ev ∧ I y ∧ y.queue = ev :: x'.queue ∧ stop ev = true ∧ x' = { y with queue := x'.queue } := by
  induction n generalizing s x with
  | zero =>
    obtain ⟨rfl, -, rfl⟩ : none = r ∧ s = s' ∧ x = x' := by simpa [wait] using hw
    exact .inl ⟨rfl, h⟩
  | succ n ih =>
    have hdeeds : ∀ (ds : List Deed) (x : Display T), I x → I (ds.foldl (Deed.run answer) x) := by
      intro ds
      induction ds with
      | nil => exact fun x hx => hx
      | cons d ds ihd => exact fun x hx => ihd _ (hdeed x d hx)
    have hy := hdeeds (s.headD []) x h
    rw [wait] at hw
    generalize (s.headD []).foldl (Deed.run answer) x = y at hw hy
    cases hq : y.queue with
    | nil =>
      rw [hq] at hw
      exact ih hy hw
    | cons ev queue =>
      rw [hq] at hw
      dsimp only at hw
      split at hw
      · next hstop =>
        obtain ⟨rfl, -, rfl⟩ : some ev = r ∧ s.tail = s' ∧ { y with queue := queue } = x' := by simpa using hw
        exact .inr ⟨ev, y, rfl, hy, hq, hstop, rfl⟩
      · next hstop => exact ih (hpass y ev queue hy hq (by simpa using hstop)) hw

/-! ### The answer -/

/-- The owner has answered a request, and so far done nothing else for it. -/
def Answered (x : Display T) (property : Bool) : Answer → Prop
  | .refuse => property = false ∧ x.sending = none
  | .whole c => property = true ∧ x.sending = none ∧ x.property = some ⟨false, c⟩
  | .parts lowerBound cs => property = true ∧ x.sending = some cs ∧ x.property = some ⟨true, lowerBound⟩

variable (answer) in
/-- A request of a requestor that was clean before: it is not answered, or the answer has not been read. -/
inductive Asked (t : T) (x : Display T) : Prop
  | waits (hreq : x.requests = [t]) (hsending : x.sending = none)
      (hqueue : ∀ ev ∈ x.queue, isSelectionNotify ev = false)
  | arrived {before after : List XEvent} {property : Bool} (hreq : x.requests = [])
      (hqueue : x.queue = before ++ .selectionNotify property :: after)
      (hbefore : ∀ ev ∈ before, isSelectionNotify ev = false) (hafter : ∀ ev ∈ after, ev = .other)
      (hanswer : Answered x property (answer t))

/-- An owner that is waited for writes nothing. -/
lemma Answered.writes {x : Display T} {property : Bool} {a : Answer} (h : Answered x property a) :
    Deed.run answer x .writes = x := by
  cases a with
  | refuse => simp [Deed.run, h.2]
  | whole c => simp [Deed.run, h.2.2]
  | parts lowerBound cs => simp [Deed.run, h.2.2]

lemma forall_mem_snoc {P : XEvent → Prop} {queue evs : List XEvent} (h : ∀ ev ∈ queue, P ev)
    (hevs : ∀ ev ∈ evs, P ev) : ∀ ev ∈ queue ++ evs, P ev := by
  intro ev hev
  rcases List.mem_append.mp hev with hev | hev
  · exact h ev hev
  · exact hevs ev hev

lemma asked_deed {t : T} (x : Display T) (d : Deed) (h : Asked answer t x) :
    Asked answer t (Deed.run answer x d) := by
  cases h with
  | waits hreq hsending hqueue =>
    cases d with
    | answers =>
      cases ha : answer t with
      | refuse =>
        refine @Asked.arrived _ _ _ _ x.queue [] false ?_ ?_ hqueue (by simp) ?_
        · simp [Deed.run, hreq, ha]
        · simp [Deed.run, hreq, ha]
        · rw [ha]
          simp [Deed.run, hreq, ha, Answered, hsending]
      | whole c =>
        refine @Asked.arrived _ _ _ _ (x.queue ++ [.propertyNotify true]) [] true ?_ ?_
          (forall_mem_snoc hqueue (by simp [isSelectionNotify])) (by simp) ?_
        · simp [Deed.run, hreq, ha]
        · simp [Deed.run, hreq, ha]
        · rw [ha]
          simp [Deed.run, hreq, ha, Answered, hsending]
      | parts lowerBound cs =>
        refine @Asked.arrived _ _ _ _ (x.queue ++ [.propertyNotify true]) [] true ?_ ?_
          (forall_mem_snoc hqueue (by simp [isSelectionNotify])) (by simp) ?_
        · simp [Deed.run, hreq, ha]
        · simp [Deed.run, hreq, ha]
        · rw [ha]
          simp [Deed.run, hreq, ha, Answered]
    | writes =>
      rw [show Deed.run answer x .writes = x by simp [Deed.run, hsending]]
      exact .waits hreq hsending hqueue
    | foreign => exact .waits hreq hsending (forall_mem_snoc hqueue (by simp [isSelectionNotify]))
  | @arrived before after property hreq hqueue hbefore hafter hanswer =>
    cases d with
    | answers =>
      rw [show Deed.run answer x .answers = x by simp [Deed.run, hreq]]
      exact .arrived hreq hqueue hbefore hafter hanswer
    | writes =>
      rw [hanswer.writes]
      exact .arrived hreq hqueue hbefore hafter hanswer
    | foreign =>
      refine @Asked.arrived _ _ _ _ before (after ++ [.other]) property hreq ?_ hbefore
        (forall_mem_snoc hafter (by simp)) hanswer
      simp [Deed.run, hqueue]

lemma asked_pass {t : T} (x : Display T) (ev : XEvent) (queue : List XEvent) (h : Asked answer t x)
    (hq : x.queue = ev :: queue) (hstop : isSelectionNotify ev = false) :
    Asked answer t { x with queue := queue } := by
  cases h with
  | waits hreq hsending hqueue =>
    exact .waits hreq hsending fun ev' hev' => hqueue ev' (by simp [hq, hev'])
  | @arrived before after property hreq hqueue hbefore hafter hanswer =>
    rw [hq] at hqueue
    cases before with
    | nil =>
      obtain ⟨rfl, -⟩ := List.cons.inj hqueue
      simp [isSelectionNotify] at hstop
    | cons ev' before =>
      obtain ⟨-, rfl⟩ := List.cons.inj hqueue
      exact .arrived hreq rfl (fun ev hev => hbefore ev (by simp [hev])) hafter hanswer

lemma asked_found {t : T} {x : Display T} {ev : XEvent} {queue : List XEvent} (h : Asked answer t x)
    (hq : x.queue = ev :: queue) (hstop : isSelectionNotify ev = true) :
    ∃ property, ev = .selectionNotify property ∧ x.requests = [] ∧ (∀ ev ∈ queue, ev = .other) ∧
      Answered x property (answer t) := by
  cases h with
  | waits hreq hsending hqueue =>
    rw [hqueue ev (by simp [hq])] at hstop
    cases hstop
  | @arrived before after property hreq hqueue hbefore hafter hanswer =>
    rw [hq] at hqueue
    cases before with
    | nil =>
      obtain ⟨rfl, rfl⟩ := List.cons.inj hqueue
      exact ⟨property, rfl, hreq, hafter, hanswer⟩
    | cons ev' before =>
      obtain ⟨rfl, -⟩ := List.cons.inj hqueue
      rw [hbefore ev (by simp)] at hstop
      cases hstop

lemma Asked.not_clean {t : T} {x : Display T} (h : Asked answer t x) : ¬ Clean x := by
  intro hclean
  cases h with
  | waits hreq _ _ =>
    rw [hclean.requests] at hreq
    cases hreq
  | @arrived before after property _ hqueue _ _ _ =>
    have hno := hclean.queue (.selectionNotify property) (by simp [hqueue])
    simp [isSelectionNotify] at hno

/-! ### The parts -/

/-- No notice that is waited for. -/
def Quiet (ev : XEvent) : Prop := isSelectionNotify ev = false ∧ isNewValue ev = false

/-- The first of the parts is in the property, or the end is. -/
def Written (x : Display T) : List Part → Prop
  | [] => x.sending = none ∧ x.property = some ⟨false, .none⟩
  | c :: cs => x.sending = some cs ∧ x.property = some ⟨false, c⟩

/-- The owner has these parts left; it has to write the first, or has and the notice has not been read. -/
inductive Sends (rest : List Part) (x : Display T) : Prop
  | due (hreq : x.requests = []) (hsending : x.sending = some rest) (hproperty : x.property = none)
      (hqueue : ∀ ev ∈ x.queue, Quiet ev)
  | written {before after : List XEvent} (hreq : x.requests = [])
      (hqueue : x.queue = before ++ .propertyNotify true :: after) (hbefore : ∀ ev ∈ before, Quiet ev)
      (hafter : ∀ ev ∈ after, Quiet ev) (hwritten : Written x rest)

lemma Written.writes {x : Display T} {rest : List Part} (h : Written x rest) :
    Deed.run answer x .writes = x := by
  cases rest with
  | nil => simp [Deed.run, h.2]
  | cons c cs => simp [Deed.run, h.2]

lemma sends_deed {rest : List Part} (x : Display T) (d : Deed) (h : Sends rest x) :
    Sends rest (Deed.run answer x d) := by
  have hother : ∀ ev ∈ [XEvent.other], Quiet ev := by simp [Quiet, isSelectionNotify, isNewValue]
  cases h with
  | due hreq hsending hproperty hqueue =>
    cases d with
    | answers =>
      rw [show Deed.run answer x .answers = x by simp [Deed.run, hreq]]
      exact .due hreq hsending hproperty hqueue
    | writes =>
      cases rest with
      | nil =>
        refine @Sends.written _ _ _ x.queue [] ?_ ?_ hqueue (by simp) ?_
        all_goals simp [Deed.run, hproperty, hsending, hreq, Written]
      | cons c cs =>
        refine @Sends.written _ _ _ x.queue [] ?_ ?_ hqueue (by simp) ?_
        all_goals simp [Deed.run, hproperty, hsending, hreq, Written]
    | foreign => exact .due hreq hsending hproperty (forall_mem_snoc hqueue hother)
  | @written before after hreq hqueue hbefore hafter hwritten =>
    cases d with
    | answers =>
      rw [show Deed.run answer x .answers = x by simp [Deed.run, hreq]]
      exact .written hreq hqueue hbefore hafter hwritten
    | writes =>
      rw [hwritten.writes]
      exact .written hreq hqueue hbefore hafter hwritten
    | foreign =>
      refine @Sends.written _ _ _ before (after ++ [.other]) hreq ?_ hbefore
        (forall_mem_snoc hafter hother) ?_
      · simp [Deed.run, hqueue]
      · cases rest with
        | nil => exact hwritten
        | cons c cs => exact hwritten

lemma sends_pass {rest : List Part} (x : Display T) (ev : XEvent)
    (queue : List XEvent) (h : Sends rest x) (hq : x.queue = ev :: queue) (hstop : isNewValue ev = false) :
    Sends rest { x with queue := queue } := by
  cases h with
  | due hreq hsending hproperty hqueue =>
    exact .due hreq hsending hproperty fun ev' hev' => hqueue ev' (by simp [hq, hev'])
  | @written before after hreq hqueue hbefore hafter hwritten =>
    rw [hq] at hqueue
    cases before with
    | nil =>
      obtain ⟨rfl, -⟩ := List.cons.inj hqueue
      simp [isNewValue] at hstop
    | cons ev' before =>
      obtain ⟨-, rfl⟩ := List.cons.inj hqueue
      refine .written hreq rfl (fun ev hev => hbefore ev (by simp [hev])) hafter ?_
      cases rest with
      | nil => exact hwritten
      | cons c cs => exact hwritten

lemma sends_found {rest : List Part} {x : Display T} {ev : XEvent}
    {queue : List XEvent} (h : Sends rest x) (hq : x.queue = ev :: queue) (hstop : isNewValue ev = true) :
    x.requests = [] ∧ (∀ ev ∈ queue, Quiet ev) ∧ Written x rest := by
  cases h with
  | due hreq hsending hproperty hqueue =>
    rw [(hqueue ev (by simp [hq])).2] at hstop
    cases hstop
  | @written before after hreq hqueue hbefore hafter hwritten =>
    rw [hq] at hqueue
    cases before with
    | nil =>
      obtain ⟨-, rfl⟩ := List.cons.inj hqueue
      exact ⟨hreq, hafter, hwritten⟩
    | cons ev' before =>
      obtain ⟨rfl, -⟩ := List.cons.inj hqueue
      rw [(hbefore ev (by simp)).2] at hstop
      cases hstop

/-- With parts left the display is not clean. -/
lemma Sends.all_of_clean {rest : List Part} {x : Display T} (h : Sends rest x)
    (hclean : Clean x) : rest = [] := by
  cases h with
  | due _ hsending _ _ =>
    rw [hclean.sending] at hsending
    cases hsending
  | written _ _ _ _ hwritten =>
    cases rest with
    | nil => rfl
    | cons c cs =>
      have hsending := hwritten.1
      rw [hclean.sending] at hsending
      cases hsending

/-! ### What is read -/

lemma bytesOf_cons (c : Part) (cs : List Part) :
    bytesOf (c :: cs) = c.1.data ++ bytesOf cs := rfl

lemma deleteProperty_eq {x : Display T} {p : Property} (h : x.property = some p) :
    deleteProperty x = { x with property := none, queue := x.queue ++ [.propertyNotify false] } := by
  rw [deleteProperty, h]
  rfl

lemma sends_next {cs : List Part} {x : Display T} (hreq : x.requests = []) (hqueue : ∀ ev ∈ x.queue, Quiet ev)
    (hsending : x.sending = some cs) {p : Property} (hp : x.property = some p) : Sends cs (deleteProperty x) := by
  rw [deleteProperty_eq hp]
  exact .due hreq hsending rfl (forall_mem_snoc hqueue (by simp [Quiet, isSelectionNotify, isNewValue]))

/-- The loop ends, with the first parts in the buffer, and all of them if the display is clean. -/
lemma readChunks_spec {rest : List Part} {msg : Bytes} {buf : Buf} {x : Display T}
    (h : Sends rest x) (hroom : Room msg buf) (hfits : (msg ++ bytesOf rest).length < 2 ^ 63) {rounds : ℕ}
    (hrounds : rest.length < rounds) (s : Sched) :
    ∃ buf' s' x' k, readChunks answer junk rounds s x buf = .ok (buf', s', x') ∧
      Room (msg ++ bytesOf (rest.take k)) buf' ∧ (Clean x' → rest.take k = rest) := by
  induction rest generalizing msg buf x rounds s with
  | nil =>
    obtain ⟨rounds, rfl⟩ : ∃ r, rounds = r + 1 := ⟨rounds - 1, by simp at hrounds; omega⟩
    have hroom' : Room (msg ++ bytesOf (([] : List Part).take 0)) buf := by
      simpa [bytesOf] using hroom
    rw [readChunks]
    rcases hw : wait answer isNewValue 200 s x with ⟨r, s', x'⟩
    rcases wait_spec sends_deed sends_pass h hw with ⟨rfl, -⟩ | ⟨ev, y, rfl, hy, hq, hstop, hx'⟩
    · exact ⟨buf, s', x', 0, rfl, hroom', fun _ => rfl⟩
    · obtain ⟨-, -, -, hproperty⟩ := sends_found hy hq hstop
      have hp : x'.property = some ⟨false, .none⟩ := by rw [hx']; exact hproperty
      refine ⟨buf, s', deleteProperty x', 0, ?_, hroom', fun _ => rfl⟩
      dsimp only
      rw [hp]
      rfl
  | cons c cs ih =>
    obtain ⟨rounds, rfl⟩ : ∃ r, rounds = r + 1 := ⟨rounds - 1, by omega⟩
    rw [readChunks]
    rcases hw : wait answer isNewValue 200 s x with ⟨r, s', x'⟩
    rcases wait_spec sends_deed sends_pass h hw with ⟨rfl, hx'⟩ | ⟨ev, y, rfl, hy, hq, hstop, hx'⟩
    · refine ⟨buf, s', x', 0, rfl, by simpa [bytesOf] using hroom, fun hclean => ?_⟩
      cases hx'.all_of_clean hclean
    · obtain ⟨hreq, hquiet, hsending, hproperty⟩ := sends_found hy hq hstop
      have hp : x'.property = some ⟨false, c⟩ := by rw [hx']; exact hproperty
      have hnext : Sends cs (deleteProperty x') := by
        refine sends_next ?_ hquiet ?_ hp
        · rw [hx']; exact hreq
        · rw [hx']; exact hsending
      rw [bytesOf_cons, ← List.append_assoc] at hfits
      have hfirst : (msg ++ c.1.data).length < 2 ^ 63 := by
        rw [List.length_append] at hfits
        omega
      obtain ⟨buf₁, happend, hroom₁⟩ := @Room.append junk msg buf hroom c.1 hfirst
      obtain ⟨buf', s'', x'', k, hrun, hroom', hall⟩ :=
        ih hnext hroom₁ hfits (Nat.lt_of_succ_lt_succ hrounds) s'
      refine ⟨buf', s'', x'', k + 1, ?_, ?_, fun hclean => ?_⟩
      · dsimp only
        rw [hp]
        dsimp only
        rw [if_neg c.2, happend]
        exact hrun
      · rwa [List.take_succ_cons, bytesOf_cons, ← List.append_assoc]
      · rw [List.take_succ_cons, hall hclean]

lemma bytesOf_take (cs : List Part) (k : ℕ) : bytesOf (cs.take k) <+: bytesOf cs := by
  refine ⟨bytesOf (cs.drop k), ?_⟩
  rw [bytesOf, bytesOf, ← List.flatMap_append, List.take_append_drop]
  rfl

/-- How many bytes an answer has. -/
def Answer.size : Answer → ℕ
  | .refuse => 0
  | .whole c => c.data.length
  | .parts _ cs => (bytesOf cs).length

/-- How many rounds an answer takes. -/
def Answer.rounds : Answer → ℕ
  | .parts _ cs => cs.length + 1
  | _ => 0

lemma content_empty (c : Content) : c.nitems = 0 ↔ c.data = [] := by
  have hpos : (if c.format = 32 then 8 else if c.format = 16 then 2 else 1) ≠ 0 := by split_ifs <;> decide
  rw [← List.length_eq_zero_iff, c.covers, Nat.mul_eq_zero, or_iff_left hpos]

/-- **One read.** -/
lemma x11ReadSelection_spec {x : Display T} (hx : Clean x) (t : T) (s : Sched) (hfits : (answer t).size < 2 ^ 63)
    {rounds : ℕ} (hrounds : (answer t).rounds ≤ rounds) :
    ∃ r s' x', x11ReadSelection answer junk rounds t s x = .ok (r, s', x') ∧
      (∀ b, r = some b → ∃ all, offered (answer t) = some all ∧ b <+: all) ∧
      (Clean x' → r = offered (answer t)) := by
  have hasked : Asked answer t { x with requests := x.requests ++ [t] } :=
    .waits (by simp [hx.requests]) hx.sending hx.queue
  rw [x11ReadSelection]
  rcases hw : wait answer isSelectionNotify 100 s { x with requests := x.requests ++ [t] } with ⟨r, s', x'⟩
  rcases wait_spec asked_deed asked_pass hasked hw with ⟨rfl, hx'⟩ | ⟨ev, y, rfl, hy, hq, hstop, hx'⟩
  · exact ⟨none, s', x', rfl, by simp, fun hclean => absurd hclean hx'.not_clean⟩
  · obtain ⟨property, rfl, hreq, hother, hanswer⟩ := asked_found hy hq hstop
    have hreq' : x'.requests = [] := by rw [hx']; exact hreq
    cases ha : answer t with
    | refuse =>
      rw [ha] at hanswer
      obtain ⟨rfl, -⟩ := hanswer
      exact ⟨none, s', x', rfl, by simp, fun _ => rfl⟩
    | whole c =>
      rw [ha] at hanswer hfits
      obtain ⟨rfl, -, hproperty⟩ := hanswer
      have hp : x'.property = some ⟨false, c⟩ := by rw [hx']; exact hproperty
      have hlt : c.data.length < 2 ^ 64 := Nat.lt_trans hfits (by decide)
      refine ⟨offered (.whole c), s', deleteProperty x', ?_, fun b hb => ⟨b, hb, List.prefix_refl _⟩,
        fun _ => rfl⟩
      dsimp only
      rw [hp]
      simp only [Option.map_some, Option.getD_some, Bool.false_eq_true, if_false, content_empty,
        chunkSize_eq hlt, List.take_length, offered]
    | parts lowerBound cs =>
      rw [ha] at hanswer hfits hrounds
      obtain ⟨rfl, hsending, hproperty⟩ := hanswer
      have hp : x'.property = some ⟨true, lowerBound⟩ := by rw [hx']; exact hproperty
      have hsends : Sends cs (deleteProperty x') := by
        rw [deleteProperty_eq hp]
        refine .due hreq' (by rw [hx']; exact hsending) rfl (forall_mem_snoc (fun ev hev => ?_) ?_)
        · rw [hother ev hev]
          exact ⟨rfl, rfl⟩
        · simp [Quiet, isSelectionNotify, isNewValue]
      obtain ⟨buf, s'', x'', k, hrun, hroom, hall⟩ :=
        @readChunks_spec T answer junk _ _ _ _ hsends room_start hfits _ hrounds s'
      rw [List.nil_append] at hroom
      have hread : (if buf.len = 0 then none else some (buf.data.take buf.len)) =
          if bytesOf (cs.take k) = [] then none else some (bytesOf (cs.take k)) := by
        rw [hroom.holds.held, hroom.holds.len]
        simp only [List.length_eq_zero_iff]
      refine ⟨if buf.len = 0 then none else some (buf.data.take buf.len), s'', x'', ?_, fun b hb => ?_,
        fun hclean => ?_⟩
      · dsimp only
        rw [hp, Option.map_some, Option.getD_some, if_pos rfl, hrun]
        rfl
      · rw [hread] at hb
        split_ifs at hb with hnil
        obtain rfl := Option.some.inj hb
        obtain ⟨tail, htail⟩ := bytesOf_take cs k
        have hne : bytesOf cs ≠ [] := by
          intro hall
          rw [hall] at htail
          exact hnil (List.append_eq_nil_iff.mp htail).1
        exact ⟨bytesOf cs, by rw [offered, if_neg hne], tail, htail⟩
      · rw [hread, hall hclean, offered]

/-! ### Many reads -/

/-- The calls on the display: reads, what the owner does between them, and events that the monitor takes. -/
inductive Call (T : Type)
  | read (target : T) (s : Sched)
  | deed (d : Deed)
  | next

variable (answer junk) in
/-- A call, and the result of a read. -/
def step (rounds : ℕ) (x : Display T) : Call T → Display T × List (T × Except Fault (Option Bytes))
  | .read target s =>
    match x11ReadSelection answer junk rounds target s x with
    | .ok (r, _, x') => (x', [(target, .ok r)])
    | .error f => (x, [(target, .error f)])
  | .deed d => (Deed.run answer x d, [])
  | .next => ({ x with queue := x.queue.tail }, [])

lemma step_read {rounds : ℕ} {x x' : Display T} {t : T} {s s' : Sched} {r : Option Bytes}
    (h : x11ReadSelection answer junk rounds t s x = .ok (r, s', x')) :
    step answer junk rounds x (.read t s) = (x', [(t, .ok r)]) := by
  simp only [step, h]

/-- **Reading a selection.** As long as every read has left the display clean, every read has returned what
the owner offers for its target. The next read does not write outside its buffer and ends, and what it
returns is a beginning of what the owner offers, and all of it if the display is clean again. -/
theorem read_selection (junk : ℕ → UInt8) (hfits : ∀ t, (answer t).size < 2 ^ 63) {rounds : ℕ}
    (hrounds : ∀ t, (answer t).rounds ≤ rounds) {x : Display T} (hx : Clean x) {calls : List (Call T)}
    (hcalls : Run.Steps (step answer junk rounds) (fun x c => Clean (step answer junk rounds x c).1) x calls) :
    (∀ o ∈ Run.outs (step answer junk rounds) x calls, o.2 = .ok (offered (answer o.1))) ∧
    ∀ t s, ∃ r s' y,
      x11ReadSelection answer junk rounds t s (Run.exec (step answer junk rounds) x calls) = .ok (r, s', y) ∧
      (∀ b, r = some b → ∃ all, offered (answer t) = some all ∧ b <+: all) ∧
      (Clean y → r = offered (answer t)) := by
  constructor
  · refine Run.outs_inv_of_steps ?_ hx hcalls
    intro x c hx hclean
    refine ⟨hclean, fun o ho => ?_⟩
    cases c with
    | read t s =>
      obtain ⟨r, s', y, hread, -, hall⟩ :=
        @x11ReadSelection_spec T answer junk _ hx t s (hfits t) _ (hrounds t)
      rw [step_read hread] at ho hclean
      obtain rfl := List.mem_singleton.mp ho
      exact congrArg _ (hall hclean)
    | deed d => simp [step] at ho
    | next => simp [step] at ho
  · intro t s
    have hend := Run.exec_inv_of_steps (fun x c _ hclean => hclean) hx hcalls
    exact x11ReadSelection_spec hend t s (hfits t) (hrounds t)

/-- An owner of a text, which it hands over at once, and of a picture in two parts. -/
def sampleOwner : Bool → Answer
  | true => .whole ⟨8, 2, [104, 105], rfl⟩
  | false => .parts ⟨32, 1, [4, 0, 0, 0, 0, 0, 0, 0], rfl⟩
      [⟨⟨8, 3, [1, 2, 3], rfl⟩, by decide⟩, ⟨⟨16, 1, [4, 5], rfl⟩, by decide⟩]

/-- The text is read; then the owner writes one part of the picture and is not heard of again. -/
theorem read_selection_late :
    ∃ r s' y, x11ReadSelection sampleOwner (fun _ => 0) 3 false [[.answers], [.foreign], [.writes]]
        (Run.exec (step sampleOwner (fun _ => 0) 3) ⟨[], none, [], none⟩ [.read true [[.answers]], .next]) =
          .ok (r, s', y) ∧
      (∀ b, r = some b → ∃ all, some [1, 2, 3, 4, 5] = some all ∧ b <+: all) ∧
      (Clean y → r = some [1, 2, 3, 4, 5]) := by
  have hfits : ∀ t, (sampleOwner t).size < 2 ^ 63 := by decide
  have hrounds : ∀ t, (sampleOwner t).rounds ≤ 3 := by decide
  refine (@read_selection Bool sampleOwner (fun _ => 0) hfits 3 hrounds ⟨[], none, [], none⟩
    ⟨rfl, rfl, by simp⟩ [.read true [[.answers]], .next] ⟨⟨rfl, rfl, ?_⟩, ⟨rfl, rfl, ?_⟩, trivial⟩).2 false
      [[.answers], [.foreign], [.writes]]
  · exact List.forall_mem_singleton.mpr rfl
  · exact List.forall_mem_nil _

/-! ### An owner in time -/

/-- Before each of the next polls the owner does what it can. -/
def Prompt (n : ℕ) (s : Sched) : Prop := ∀ i < n, s[i]? = some [.answers, .writes]

lemma Prompt.head {n : ℕ} {s : Sched} (h : Prompt (n + 1) s) : s.headD [] = [.answers, .writes] := by
  have h0 := h 0 (Nat.succ_pos n)
  rw [← List.head?_eq_getElem?] at h0
  rw [List.headD_eq_head?_getD, h0, Option.getD_some]

lemma Prompt.drop {n k : ℕ} {s : Sched} (h : Prompt (k + n) s) : Prompt n (s.drop k) := by
  intro i hi
  rw [List.getElem?_drop]
  exact h (k + i) (by omega)

lemma Prompt.mono {m n : ℕ} {s : Sched} (h : Prompt n s) (hmn : m ≤ n) : Prompt m s :=
  fun i hi => h i (by omega)

/-- The owner has nothing to do at the moment, whatever is in the queue. -/
structure Settled (answer : T → Answer) (x : Display T) : Prop where
  requests : x.requests = []
  writes : ∀ queue, Deed.run answer { x with queue := queue } .writes = { x with queue := queue }

lemma Settled.deeds {x : Display T} (h : Settled answer x) :
    [Deed.answers, Deed.writes].foldl (Deed.run answer) x = x := by
  have hanswers : Deed.run answer x .answers = x := by simp [Deed.run, h.requests]
  rw [List.foldl_cons, List.foldl_cons, List.foldl_nil, hanswers]
  exact h.writes x.queue

lemma wait_at {stop : XEvent → Bool} {x : Display T} (h : Settled answer x) {before after : List XEvent}
    {ev : XEvent} (hq : x.queue = before ++ ev :: after) (hbefore : ∀ ev ∈ before, stop ev = false)
    (hev : stop ev = true) {n k : ℕ} (hn : before.length < n) {s : Sched} (hs : Prompt (before.length + 1 + k) s) :
    ∃ s', wait answer stop n s x = (some ev, s', { x with queue := after }) ∧ Prompt k s' := by
  induction before generalizing x n s with
  | nil =>
    obtain ⟨n, rfl⟩ : ∃ m, n = m + 1 := ⟨n - 1, by omega⟩
    have hhead : s.headD [] = [.answers, .writes] := Prompt.head (n := k) (by rwa [Nat.add_comm] at hs)
    refine ⟨s.tail, ?_, ?_⟩
    · rw [wait, hhead, h.deeds, hq]
      simp [hev]
    · rw [← List.drop_one]
      exact Prompt.drop (k := 1) hs
  | cons ev' before ih =>
    obtain ⟨n, rfl⟩ : ∃ m, n = m + 1 := ⟨n - 1, by simp at hn; omega⟩
    have hlen : (ev' :: before).length + 1 + k = (before.length + 1 + k) + 1 := by
      rw [List.length_cons]
      omega
    rw [hlen] at hs
    have hnext : Settled answer { x with queue := before ++ ev :: after } := ⟨h.requests, h.writes⟩
    obtain ⟨s', hw, hs'⟩ := ih hnext rfl (fun ev hev => hbefore ev (by simp [hev]))
      (Nat.lt_of_succ_lt_succ hn) (s := s.tail) (by
        rw [← List.drop_one]
        exact Prompt.drop (k := 1) (by rwa [Nat.add_comm] at hs))
    refine ⟨s', ?_, hs'⟩
    rw [wait, hs.head, h.deeds, hq]
    simp only [List.cons_append]
    rw [if_neg (by simp [hbefore ev' (by simp)])]
    exact hw

/-- What the owner does before the first poll it could have done before the wait. -/
lemma wait_deeds {stop : XEvent → Bool} {x y : Display T} {n k : ℕ} {s : Sched} (hs : Prompt (k + 1) s)
    (hdeeds : [Deed.answers, Deed.writes].foldl (Deed.run answer) x = y) (hy : Settled answer y) :
    wait answer stop (n + 1) s x = wait answer stop (n + 1) s y := by
  rw [wait, wait, hs.head, hdeeds, hy.deeds]

/-- The owner writes the next value at once, and the wait finds it. -/
lemma wait_next {x : Display T} {rest : List Part} (hreq : x.requests = []) (hsending : x.sending = some rest)
    (hproperty : x.property = none) (hqueue : x.queue = [.propertyNotify false]) {k : ℕ} {s : Sched}
    (hs : Prompt (2 + k) s) :
    ∃ s' y, wait answer isNewValue 200 s x = (some (.propertyNotify true), s', y) ∧ Prompt k s' ∧
      y.requests = [] ∧ y.queue = [] ∧ Written y rest := by
  obtain ⟨y, hdeeds, hyreq, hyqueue, hwritten⟩ : ∃ y, [Deed.answers, Deed.writes].foldl (Deed.run answer) x = y ∧
      y.requests = [] ∧ y.queue = [.propertyNotify false, .propertyNotify true] ∧ Written y rest := by
    cases rest with
    | nil => exact ⟨_, rfl, by simp [Deed.run, hreq, hsending, hproperty, hqueue, Written]⟩
    | cons c cs => exact ⟨_, rfl, by simp [Deed.run, hreq, hsending, hproperty, hqueue, Written]⟩
  have hsettled : Settled answer y := by
    refine ⟨hyreq, fun queue => @Written.writes T answer _ rest ?_⟩
    cases rest with
    | nil => exact hwritten
    | cons c cs => exact hwritten
  obtain ⟨s', hw, hs'⟩ := @wait_at T answer isNewValue y hsettled [.propertyNotify false] []
    (.propertyNotify true) hyqueue (by simp [isNewValue]) rfl 200 k (by decide) s hs
  refine ⟨s', { y with queue := [] }, ?_, hs', hyreq, rfl, ?_⟩
  · rw [wait_deeds (k := k + 1) (by rwa [Nat.add_comm] at hs) hdeeds hsettled, hw]
  · cases rest with
    | nil => exact hwritten
    | cons c cs => exact hwritten

lemma readChunks_prompt {rest : List Part} {x : Display T} (hreq : x.requests = [])
    (hsending : x.sending = some rest) (hproperty : x.property = none)
    (hqueue : x.queue = [.propertyNotify false]) {s s' : Sched} (hs : Prompt (2 * (rest.length + 1)) s)
    {rounds : ℕ} {buf buf' : Buf} {x' : Display T}
    (h : readChunks answer junk rounds s x buf = .ok (buf', s', x')) : Clean x' ∧ x'.queue.length ≤ 1 := by
  induction rest generalizing x s rounds buf with
  | nil =>
    cases rounds with
    | zero => simp [readChunks] at h
    | succ rounds =>
      obtain ⟨s₁, y, hw, -, hyreq, hyqueue, hysending, hyproperty⟩ :=
        @wait_next T answer _ _ hreq hsending hproperty hqueue 0 _ hs
      rw [readChunks, hw] at h
      dsimp only at h
      rw [hyproperty] at h
      obtain ⟨-, -, rfl⟩ : buf = buf' ∧ s₁ = s' ∧ deleteProperty y = x' := by
        simpa [Content.none] using h
      rw [deleteProperty_eq hyproperty]
      refine ⟨⟨hyreq, hysending, ?_⟩, by simp [hyqueue]⟩
      simp [hyqueue, isSelectionNotify]
  | cons c cs ih =>
    cases rounds with
    | zero => simp [readChunks] at h
    | succ rounds =>
      have hlen : 2 * ((c :: cs).length + 1) = 2 + 2 * (cs.length + 1) := by
        rw [List.length_cons]
        omega
      rw [hlen] at hs
      obtain ⟨s₁, y, hw, hs₁, hyreq, hyqueue, hysending, hyproperty⟩ :=
        @wait_next T answer _ _ hreq hsending hproperty hqueue _ _ hs
      rw [readChunks, hw] at h
      dsimp only at h
      rw [hyproperty] at h
      dsimp only at h
      rw [if_neg c.2] at h
      cases happend : append junk buf c.1 with
      | error f =>
        rw [happend] at h
        cases h
      | ok buf₁ =>
        rw [happend] at h
        refine ih (x := deleteProperty y) ?_ ?_ ?_ ?_ hs₁ h
        all_goals simp [deleteProperty_eq hyproperty, hyreq, hyqueue, hysending]

/-- **An owner in time is read to the end.** If at every poll the owner has done what it can, and there are no
more than 98 events before, a read returns all that it offers and leaves the display clean. -/
theorem read_prompt (junk : ℕ → UInt8) {x : Display T} (hx : Clean x) (hqueue : x.queue.length ≤ 98) (t : T)
    (hfits : (answer t).size < 2 ^ 63) {rounds : ℕ} (hrounds : (answer t).rounds ≤ rounds) {s : Sched}
    (hs : Prompt (x.queue.length + 2 + 2 * (answer t).rounds) s) :
    ∃ s' x', x11ReadSelection answer junk rounds t s x = .ok (offered (answer t), s', x') ∧ Clean x' ∧
      x'.queue.length ≤ 1 := by
  obtain ⟨r, s', x', hread, -, hall⟩ := @x11ReadSelection_spec T answer junk _ hx t s hfits _ hrounds
  suffices hclean : Clean x' ∧ x'.queue.length ≤ 1 by
    exact ⟨s', x', hall hclean.1 ▸ hread, hclean⟩
  -- the first deeds are the answer
  obtain ⟨y, notices, property, hdeeds, hyreq, hyqueue, hnotices, hlen, hanswer⟩ :
      ∃ y notices property,
        [Deed.answers, Deed.writes].foldl (Deed.run answer) { x with requests := x.requests ++ [t] } = y ∧
        y.requests = [] ∧ y.queue = (x.queue ++ notices) ++ [.selectionNotify property] ∧
        (∀ ev ∈ notices, isSelectionNotify ev = false) ∧ notices.length ≤ 1 ∧
        Answered y property (answer t) := by
    cases ha : answer t with
    | refuse =>
      refine ⟨_, [], false, rfl, ?_, ?_, by simp, by simp, ?_⟩
      all_goals simp [Deed.run, hx.requests, hx.sending, ha, Answered]
    | whole c =>
      refine ⟨_, [.propertyNotify true], true, rfl, ?_, ?_, by simp [isSelectionNotify], by simp, ?_⟩
      all_goals simp [Deed.run, hx.requests, hx.sending, ha, Answered]
    | parts lowerBound cs =>
      refine ⟨_, [.propertyNotify true], true, rfl, ?_, ?_, by simp [isSelectionNotify], by simp, ?_⟩
      all_goals simp [Deed.run, hx.requests, ha, Answered]
  have hsettled : Settled answer y := by
    refine ⟨hyreq, fun queue => @Answered.writes T answer _ property (answer t) ?_⟩
    cases ha : answer t <;> rw [ha] at hanswer <;> exact hanswer
  have hbefore : ∀ ev ∈ x.queue ++ notices, isSelectionNotify ev = false := forall_mem_snoc hx.queue hnotices
  have hpolls : (x.queue ++ notices).length + 1 + 2 * (answer t).rounds ≤
      x.queue.length + 2 + 2 * (answer t).rounds := by
    rw [List.length_append]
    omega
  have hlt : (x.queue ++ notices).length < 100 := by
    rw [List.length_append]
    omega
  obtain ⟨s₁, hw, hs₁⟩ := wait_at hsettled hyqueue hbefore rfl hlt (hs.mono hpolls)
  have hs' : Prompt ((x.queue.length + 1 + 2 * (answer t).rounds) + 1) s := hs.mono (by omega)
  rw [x11ReadSelection, wait_deeds hs' hdeeds hsettled, hw] at hread
  obtain ⟨z, hz⟩ : ∃ z : Display T, { y with queue := [] } = z := ⟨_, rfl⟩
  have hzreq : z.requests = [] := by rw [← hz]; exact hyreq
  have hzqueue : z.queue = [] := by rw [← hz]
  have hzanswer : Answered z property (answer t) := by
    rw [← hz]
    cases ha : answer t <;> rw [ha] at hanswer <;> exact hanswer
  rw [hz] at hread
  cases ha : answer t with
  | refuse =>
    rw [ha] at hzanswer
    obtain ⟨rfl, hsending⟩ := hzanswer
    obtain ⟨-, -, rfl⟩ : none = r ∧ s₁ = s' ∧ z = x' := by simpa using hread
    exact ⟨⟨hzreq, hsending, by simp [hzqueue]⟩, by simp [hzqueue]⟩
  | whole c =>
    rw [ha] at hzanswer
    obtain ⟨rfl, hsending, hproperty⟩ := hzanswer
    dsimp only at hread
    rw [hproperty] at hread
    obtain ⟨-, -, rfl⟩ : _ ∧ s₁ = s' ∧ deleteProperty z = x' := by simpa using hread
    rw [deleteProperty_eq hproperty]
    exact ⟨⟨hzreq, hsending, by simp [hzqueue, isSelectionNotify]⟩, by simp [hzqueue]⟩
  | parts lowerBound cs =>
    rw [ha] at hzanswer hs₁
    obtain ⟨rfl, hsending, hproperty⟩ := hzanswer
    dsimp only at hread
    rw [hproperty, Option.map_some, Option.getD_some, if_pos rfl] at hread
    cases hchunks : readChunks answer junk rounds s₁ (deleteProperty z)
        ⟨(List.range 65536).map junk, 0, 65536⟩ with
    | error f =>
      rw [hchunks] at hread
      cases hread
    | ok res =>
      obtain ⟨buf, s₂, z'⟩ := res
      rw [hchunks] at hread
      obtain ⟨-, -, rfl⟩ : _ ∧ s₂ = s' ∧ z' = x' := by simpa [bind, Except.bind, pure, Except.pure] using hread
      refine readChunks_prompt ?_ ?_ ?_ ?_ hs₁ hchunks
      all_goals simp [deleteProperty_eq hproperty, hzreq, hzqueue, hsending]

/-- The picture in two parts. -/
theorem read_prompt_parts :
    ∃ s' x', x11ReadSelection sampleOwner (fun _ => 0) 3 false (List.replicate 8 [.answers, .writes])
        ⟨[], none, [], none⟩ = .ok (some [1, 2, 3, 4, 5], s', x') ∧ Clean x' ∧ x'.queue.length ≤ 1 := by
  have hs : Prompt 8 (List.replicate 8 [.answers, .writes]) := by
    intro i hi
    rw [List.getElem?_replicate, if_pos hi]
  exact @read_prompt Bool sampleOwner (fun _ => 0) ⟨[], none, [], none⟩ ⟨rfl, rfl, by simp⟩ (by decide) false
    (by decide) 3 (by decide) _ hs

end SyncClipboard.X11Selection
