import SyncClipboard.Run
import SyncClipboard.FtAuth

/-!
Two parties that race for each other: each listens, and each connects to the other's listener.

Both connections come up, and each party takes up whichever its poll loop shows it first: the
listening socket before the connecting one. From then on it is blocked in the handshake on that
connection. If the two take up different ones, the sender waits for an answer on a connection
nobody reads, and the receiver for a message on a connection nobody writes to
(`both_accept_deadlock`), for good (`deadlock_lasts`). As long as a party takes up a connection
only when the other is not in a handshake on the other one, this does not happen (`no_deadlock`).

The receive timeout, which would end the wait, is left out.
-/

namespace SyncClipboard.Crossing

open FtAuth

inductive Side | sender | receiver
  deriving DecidableEq

def Side.other : Side → Side
  | .sender => .receiver
  | .receiver => .sender

/-- Where a party is in `ft_lan_transfer_auth`. A connection goes by the side that listens for it.
A handshake that fails goes on at the connecting socket, with what the poll said of it, or at the
head of the loop. -/
inductive Pc
  | idle
  | loop
  | polled (listenReady connReady : Bool)
  | connecting (connReady : Bool)
  | sending (k : Side) (next : Option Bool)
  | waiting (k : Side) (got : Bytes) (next : Option Bool)
  | over (result : Option Side)
  deriving DecidableEq

def Pc.handshake : Pc → Option Side
  | .sending k _ => some k
  | .waiting k _ _ => some k
  | _ => none

/-- The program of each party, the connections it has taken up, and the two connections: whether
`connect` has succeeded and whether the listener has it in its queue, the bytes under way towards a
party and those that wait in its socket, and who has closed it. -/
structure State where
  pc : Side → Pc
  tried : Side → Side → Bool
  established : Side → Bool
  queued : Side → Bool
  net : Side → Side → Bytes
  buf : Side → Side → Bytes
  closed : Side → Side → Bool

def init : State :=
  ⟨fun _ => .idle, fun _ _ => false, fun _ => false, fun _ => false, fun _ _ => [], fun _ _ => [],
    fun _ _ => false⟩

/-- Change the value at a connection and a party. -/
def set {α : Type} (f : Side → Side → α) (k p : Side) (a : α) : Side → Side → α :=
  Function.update f k (Function.update (f k) p a)

lemma set_apply {α : Type} (f : Side → Side → α) (k p k' p' : Side) (a : α) :
    set f k p a k' p' = if k' = k ∧ p' = p then a else f k' p' := by
  by_cases hk : k' = k
  · subst hk
    simp [set, Function.update_apply]
  · simp [set, hk]

/-! ### The steps of a party -/

def State.goto (st : State) (p : Side) (pc : Pc) : State :=
  { st with pc := Function.update st.pc p pc }

/-- `try_authenticate` begins: the sender is about to send, the receiver waits. -/
def State.begin (st : State) (p k : Side) (next : Option Bool) : State :=
  { st.goto p (match p with
      | .sender => .sending k next
      | .receiver => .waiting k [] next) with
    tried := set st.tried p k true }

def resume : Option Bool → Pc
  | some connReady => .connecting connReady
  | none => .loop

/-- The handshake fails, and the socket is closed. -/
def State.fail (st : State) (p k : Side) (next : Option Bool) : State :=
  { st.goto p (resume next) with closed := set st.closed k p true }

/-- The call returns, and closes the connecting socket if it was not taken up. -/
def State.finish (st : State) (p : Side) (result : Option Side) : State :=
  { st.goto p (.over result) with
    closed := if st.tried p p.other then st.closed else set st.closed p.other p true }

/-- What the party waits for: the answer, or the message of the sender. -/
def expected (hmac : Bytes) : Side → Bytes
  | .sender => ascii "AKOK"
  | .receiver => authFrame hmac

def reply (ok : Bool) : Side → Bytes
  | .sender => []
  | .receiver => if ok then ascii "AKOK" else ascii "FAIL"

/-- The handshake on `k` has read all it waited for. -/
def State.settle (hmac : Bytes) (st : State) (p k : Side) (got : Bytes) (next : Option Bool) :
    State :=
  let ok := got = expected hmac p
  let st := { st with net := set st.net k p.other (st.net k p.other ++ reply ok p) }
  if ok then st.finish p (some k) else st.fail p k next

inductive Event
  | start (p : Side)
  | established (k : Side)
  | queued (k : Side)
  | poll (p : Side)
  | expire (p : Side)
  | go (p : Side)
  | recv (p : Side) (n : ℕ)
  | broken (p : Side)
  | deliver (k p : Side) (n : ℕ)

/-- One step of a party's own program, other than a call that blocks. -/
def State.go (hmac : Bytes) (st : State) (p : Side) : State :=
  match st.pc p with
  | .polled true connReady => st.begin p p (some connReady)
  | .polled false connReady => st.goto p (.connecting connReady)
  | .connecting true => st.begin p p.other none
  | .connecting false => st.goto p .loop
  | .sending k next =>
    { st.goto p (.waiting k [] next) with
      net := set st.net k p.other (st.net k p.other ++ authFrame hmac) }
  | _ => st

/-- A `recv` that finds something returns a piece of it, at most what is still missing. -/
def State.recv (hmac : Bytes) (st : State) (p : Side) (n : ℕ) : State :=
  match st.pc p with
  | .waiting k got next =>
    let len := min n ((expected hmac p).length - got.length)
    let got' := got ++ (st.buf k p).take len
    let st' := { st with buf := set st.buf k p ((st.buf k p).drop len) }
    if got'.length < (expected hmac p).length then st'.goto p (.waiting k got' next)
    else st'.settle hmac p k got' next
  | _ => st

/-- A handshake on a connection that the other party has closed fails, once all that was sent on it
has been read. -/
def State.broken (st : State) (p : Side) : State :=
  match st.pc p with
  | .sending k next => if st.closed k p.other then st.fail p k next else st
  | .waiting k _ next =>
    if st.closed k p.other ∧ st.buf k p = [] ∧ st.net k p = [] then st.fail p k next else st
  | _ => st

def react (hmac : Bytes) (st : State) : Event → State
  | .start p => if st.pc p = .idle then st.goto p .loop else st
  | .established k =>
    if st.pc k.other = .idle then st
    else { st with established := Function.update st.established k true }
  | .queued k =>
    if st.established k then { st with queued := Function.update st.queued k true } else st
  | .poll p =>
    if st.pc p = .loop then
      st.goto p (.polled (st.queued p && !st.tried p p)
        (st.established p.other && !st.tried p p.other))
    else st
  | .expire p => if st.pc p = .loop then st.finish p none else st
  | .go p => st.go hmac p
  | .recv p n => st.recv hmac p n
  | .broken p => st.broken p
  | .deliver k p n =>
    { st with
      buf := set st.buf k p (st.buf k p ++ (st.net k p).take n)
      net := set st.net k p ((st.net k p).drop n) }

def step (hmac : Bytes) (st : State) (e : Event) : State × List Empty := (react hmac st e, [])

/-! ### Deadlock -/

/-- The party is in a `recv` of its handshake that finds nothing. -/
def Blocked (st : State) (p : Side) : Prop :=
  ∃ k got next, st.pc p = .waiting k got next ∧ st.buf k p = [] ∧ st.closed k p.other = false

/-- Both parties are blocked, and no bytes are under way to either. -/
structure Deadlocked (st : State) : Prop where
  blocked : ∀ p, Blocked st p
  quiet : ∀ k p, st.net k p = []

/-- The connection a step makes a party take up. -/
def takesUp (st : State) : Event → Option (Side × Side)
  | .go p =>
    match st.pc p with
    | .polled true _ => some (p, p)
    | .connecting true => some (p, p.other)
    | _ => none
  | _ => none

/-- A party that takes up a connection finds the other in no handshake, or in one on the same
connection. -/
def Together (st : State) (e : Event) : Prop :=
  ∀ pk ∈ takesUp st e, (st.pc pk.1.other).handshake = none ∨
    (st.pc pk.1.other).handshake = some pk.2

instance (st : State) (e : Event) : Decidable (Together st e) :=
  inferInstanceAs (Decidable (∀ pk ∈ takesUp st e, _))

/-! ### What is on its way to the receiver -/

/-- The bytes the receiver can still read from a connection. -/
def State.stream (st : State) (k : Side) : Bytes := st.buf k .receiver ++ st.net k .receiver

/-- The connections a party may take up before it polls again. -/
def Pc.ready (p : Side) : Pc → Side → Prop
  | .polled listenReady connReady, k => k = p ∧ listenReady ∨ k = p.other ∧ connReady
  | .connecting connReady, k => k = p.other ∧ connReady
  | .sending _ next, k => k = p.other ∧ next = some true
  | .waiting _ _ next, k => k = p.other ∧ next = some true
  | _, _ => False

/-- The parties are in handshakes on one connection only. What the sender has sent on a connection
is what the receiver has read and can still read from it. -/
structure Inv (hmac : Bytes) (st : State) : Prop where
  together : ∀ k k', (st.pc .sender).handshake = some k → (st.pc .receiver).handshake = some k' →
    k = k'
  fresh : ∀ p k, (st.pc p).ready p k → st.tried p k = false
  marked : ∀ p k, (st.pc p).handshake = some k → st.tried p k = true
  receives : ∀ k next, st.pc .receiver ≠ .sending k next
  short : ∀ k got next, st.pc .receiver = .waiting k got next →
    got.length < (authFrame hmac).length
  unsent : ∀ k, (st.tried .sender k = false ∨ ∃ next, st.pc .sender = .sending k next) →
    st.stream k = [] ∧ ∀ got next, st.pc .receiver = .waiting k got next → got = []
  sent : ∀ k got next, st.pc .sender = .waiting k got next →
    (st.tried .receiver k = false → st.stream k = authFrame hmac) ∧
    ∀ got' next', st.pc .receiver = .waiting k got' next' → got' ++ st.stream k = authFrame hmac

variable {hmac : Bytes} {st : State}

lemma inv_init : Inv hmac init where
  together := by simp [init, Pc.handshake]
  fresh := by simp [init]
  marked := by simp [init, Pc.handshake]
  receives := by simp [init]
  short := by simp [init]
  unsent := by simp [init, State.stream]
  sent := by simp [init]

lemma Inv.congr (h : Inv hmac st) {st' : State} (hpc : st'.pc = st.pc) (htried : st'.tried = st.tried)
    (hstream : ∀ k, st'.stream k = st.stream k) : Inv hmac st' := by
  constructor
  · rw [hpc]; exact h.together
  · rw [hpc, htried]; exact h.fresh
  · rw [hpc, htried]; exact h.marked
  · rw [hpc]; exact h.receives
  · rw [hpc]; exact h.short
  · simp only [hpc, htried, hstream]; exact h.unsent
  · simp only [hpc, htried, hstream]; exact h.sent

lemma Inv.goto (h : Inv hmac st) {p : Side} {pc : Pc} (hout : pc.handshake = none)
    (hready : ∀ k, pc.ready p k → st.tried p k = false) : Inv hmac (st.goto p pc) := by
  have hsend : ∀ k next, pc ≠ .sending k next := by
    rintro k next rfl
    cases hout
  have hwait : ∀ k got next, pc ≠ .waiting k got next := by
    rintro k got next rfl
    cases hout
  cases p with
  | sender =>
    refine ⟨?_, ?_, ?_, h.receives, h.short, ?_, ?_⟩
    · simp [State.goto, hout]
    · intro p k hk
      cases p with
      | sender => exact hready k (by simpa [State.goto] using hk)
      | receiver => exact h.fresh .receiver k hk
    · intro p k hk
      cases p with
      | sender => simp [State.goto, hout] at hk
      | receiver => exact h.marked .receiver k hk
    · rintro k (hk | ⟨next, hk⟩)
      · exact h.unsent k (.inl hk)
      · exact absurd hk (by simpa [State.goto] using hsend k next)
    · intro k got next hk
      exact absurd hk (by simpa [State.goto] using hwait k got next)
  | receiver =>
    refine ⟨?_, ?_, ?_, ?_, ?_, ?_, ?_⟩
    · simp [State.goto, hout]
    · intro p k hk
      cases p with
      | sender => exact h.fresh .sender k hk
      | receiver => exact hready k (by simpa [State.goto] using hk)
    · intro p k hk
      cases p with
      | sender => exact h.marked .sender k hk
      | receiver => simp [State.goto, hout] at hk
    · simpa [State.goto] using hsend
    · intro k got next hk
      exact absurd hk (by simpa [State.goto] using hwait k got next)
    · intro k hk
      refine ⟨(h.unsent k hk).1, fun got next hk' => ?_⟩
      exact absurd hk' (by simpa [State.goto] using hwait k got next)
    · intro k got next hk
      refine ⟨(h.sent k got next hk).1, fun got' next' hk' => ?_⟩
      exact absurd hk' (by simpa [State.goto] using hwait k got' next')

lemma Inv.begin (h : Inv hmac st) {p k : Side} {next : Option Bool} (hfree : st.tried p k = false)
    (hnext : next = some true → k ≠ p.other ∧ st.tried p p.other = false)
    (hother : (st.pc p.other).handshake = none ∨ (st.pc p.other).handshake = some k) :
    Inv hmac (st.begin p k next) := by
  have hpos : 0 < (authFrame hmac).length := by simp [authFrame, ascii]
  cases p with
  | sender =>
    refine ⟨?_, ?_, ?_, h.receives, h.short, ?_, ?_⟩
    · intro k₁ k₂ h₁ h₂
      cases h₁
      rcases hother with hnone | hsame
      · exact absurd (h₂.symm.trans hnone) (by simp)
      · exact Option.some.inj (hsame.symm.trans h₂)
    · intro p k' hk'
      cases p with
      | sender =>
        obtain ⟨rfl, rfl⟩ : k' = Side.sender.other ∧ next = some true := hk'
        obtain ⟨hne, hfree'⟩ := hnext rfl
        simp only [State.begin, set_apply, Ne.symm hne, and_false, if_false, hfree']
      | receiver => simpa [State.begin, set_apply] using h.fresh .receiver k' hk'
    · intro p k' hk'
      cases p with
      | sender =>
        cases hk'
        simp [State.begin, set_apply]
      | receiver => simpa [State.begin, set_apply] using h.marked .receiver k' hk'
    · intro k' hk'
      by_cases hkk : k' = k
      · subst hkk
        exact h.unsent k' (.inl hfree)
      · refine h.unsent k' (.inl ?_)
        rcases hk' with hk' | ⟨next', hk'⟩
        · simpa [State.begin, set_apply, hkk] using hk'
        · cases hk'
          exact absurd rfl hkk
    · intro k' got next' hk'
      cases hk'
  | receiver =>
    refine ⟨?_, ?_, ?_, ?_, ?_, ?_, ?_⟩
    · intro k₁ k₂ h₁ h₂
      cases h₂
      have h₁ : (st.pc .sender).handshake = some k₁ := h₁
      rcases hother with hnone | hsame
      · exact absurd (h₁.symm.trans hnone) (by simp)
      · exact Option.some.inj (h₁.symm.trans hsame)
    · intro p k' hk'
      cases p with
      | sender => simpa [State.begin, set_apply] using h.fresh .sender k' hk'
      | receiver =>
        obtain ⟨rfl, rfl⟩ : k' = Side.receiver.other ∧ next = some true := hk'
        obtain ⟨hne, hfree'⟩ := hnext rfl
        simp only [State.begin, set_apply, Ne.symm hne, and_false, if_false, hfree']
    · intro p k' hk'
      cases p with
      | sender => simpa [State.begin, set_apply] using h.marked .sender k' hk'
      | receiver =>
        cases hk'
        simp [State.begin, set_apply]
    · intro k' next' hk'
      cases hk'
    · intro k' got next' hk'
      cases hk'
      exact hpos
    · intro k' hk'
      refine ⟨(h.unsent k' ?_).1, fun got next' hgot => by cases hgot; rfl⟩
      simpa [State.begin, set_apply, State.goto] using hk'
    · intro k' got next' hk'
      obtain ⟨hwhole, -⟩ := h.sent k' got next' hk'
      refine ⟨fun ht => hwhole ?_, fun got' next'' hgot => ?_⟩
      · by_cases hkk : k' = k
        · rw [hkk]
          exact hfree
        · simpa [State.begin, set_apply, hkk] using ht
      · cases hgot
        exact hwhole hfree

lemma Inv.send (h : Inv hmac st) {k : Side} {next : Option Bool}
    (hpc : st.pc .sender = .sending k next) : Inv hmac (st.go hmac .sender) := by
  have hgo : st.go hmac .sender = { st.goto .sender (.waiting k [] next) with
      net := set st.net k .receiver (st.net k .receiver ++ authFrame hmac) } := by
    simp only [State.go, hpc]
    rfl
  obtain ⟨hnil, hgot⟩ := h.unsent k (.inr ⟨next, hpc⟩)
  have hstream : (st.go hmac .sender).stream k = authFrame hmac := by
    obtain ⟨hbuf, hnet⟩ := List.append_eq_nil_iff.mp hnil
    rw [hgo]
    simp [State.stream, State.goto, set_apply, hbuf, hnet]
  have hrest : ∀ k', k' ≠ k → (st.go hmac .sender).stream k' = st.stream k' := by
    intro k' hne
    rw [hgo]
    simp [State.stream, State.goto, set_apply, hne]
  have hsender : (st.go hmac .sender).pc .sender = .waiting k [] next := by rw [hgo]; rfl
  have hreceiver : (st.go hmac .sender).pc .receiver = st.pc .receiver := by rw [hgo]; rfl
  have htried : (st.go hmac .sender).tried = st.tried := by rw [hgo]; rfl
  have hmarked : st.tried .sender k = true := h.marked .sender k (by rw [hpc]; rfl)
  refine ⟨?_, ?_, ?_, ?_, ?_, ?_, ?_⟩
  · rw [hsender, hreceiver]
    have hsame := h.together
    rw [hpc] at hsame
    exact hsame
  · intro p k' hk'
    rw [htried]
    cases p with
    | sender =>
      rw [hsender] at hk'
      exact h.fresh .sender k' (by rw [hpc]; exact hk')
    | receiver =>
      rw [hreceiver] at hk'
      exact h.fresh .receiver k' hk'
  · intro p k' hk'
    rw [htried]
    cases p with
    | sender =>
      rw [hsender] at hk'
      cases hk'
      exact hmarked
    | receiver =>
      rw [hreceiver] at hk'
      exact h.marked .receiver k' hk'
  · rw [hreceiver]; exact h.receives
  · rw [hreceiver]; exact h.short
  · intro k' hk'
    rw [htried, hsender] at hk'
    rcases hk' with hfree | ⟨next', hk'⟩
    · have hne : k' ≠ k := by
        rintro rfl
        rw [hmarked] at hfree
        cases hfree
      rw [hrest k' hne, hreceiver]
      exact h.unsent k' (.inl hfree)
    · cases hk'
  · intro k' got next' hk'
    rw [hsender] at hk'
    cases hk'
    rw [hreceiver, htried, hstream]
    refine ⟨fun _ => rfl, fun got' next'' hk'' => ?_⟩
    rw [hgot got' next'' hk'', List.nil_append]

lemma Inv.resume (h : Inv hmac st) {p : Side} {next : Option Bool}
    (hnext : next = some true → st.tried p p.other = false) :
    Inv hmac (st.goto p (resume next)) := by
  refine h.goto ?_ fun k hk => ?_
  · cases next <;> rfl
  · match next, hk with
    | some true, hk => rw [hk.1, hnext rfl]
    | some false, hk => exact absurd hk.2 (by simp)

/-- The receiver, which is out of the handshake on `k`, has read from it. -/
lemma Inv.read (h : Inv hmac st) {k : Side} (ht : st.tried .receiver k = true)
    (hout : (st.pc .receiver).handshake = none) (n : ℕ) :
    Inv hmac { st with buf := set st.buf k .receiver ((st.buf k .receiver).drop n) } := by
  have hwait : ∀ k got next, st.pc .receiver ≠ .waiting k got next := by
    intro k got next hk
    rw [hk] at hout
    cases hout
  refine ⟨h.together, h.fresh, h.marked, h.receives, h.short, ?_, ?_⟩
  · intro k' hk'
    refine ⟨?_, fun got next hgot => absurd hgot (hwait k' got next)⟩
    obtain ⟨hbuf, hnet⟩ := List.append_eq_nil_iff.mp (h.unsent k' hk').1
    simp only [State.stream, set_apply, hnet, List.append_nil]
    split_ifs with hkk
    · rw [← hkk.1, hbuf, List.drop_nil]
    · exact hbuf
  · intro k' got next hk'
    refine ⟨fun hfree => ?_, fun got' next' hgot => absurd hgot (hwait k' got' next')⟩
    have hne : k' ≠ k := by
      rintro rfl
      rw [show st.tried .receiver k' = false from hfree] at ht
      cases ht
    simpa [State.stream, set_apply, hne] using (h.sent k' got next hk').1 hfree

lemma Inv.readMore (h : Inv hmac st) {k : Side} {got : Bytes} {next : Option Bool} (n : ℕ)
    (hpc : st.pc .receiver = .waiting k got next)
    (hshort : (got ++ (st.buf k .receiver).take n).length < (authFrame hmac).length) :
    Inv hmac { st.goto .receiver (.waiting k (got ++ (st.buf k .receiver).take n) next) with
      buf := set st.buf k .receiver ((st.buf k .receiver).drop n) } := by
  have htogether := h.together
  have hmarked : ∀ p k, (st.pc p).handshake = some k → st.tried p k = true := h.marked
  have hfresh := h.fresh
  refine ⟨?_, ?_, ?_, ?_, ?_, ?_, ?_⟩
  · intro k₁ k₂ h₁ h₂
    cases h₂
    exact htogether k₁ k h₁ (by rw [hpc]; rfl)
  · intro p k' hk'
    cases p with
    | sender => exact hfresh .sender k' hk'
    | receiver => exact hfresh .receiver k' (by rw [hpc]; exact hk')
  · intro p k' hk'
    cases p with
    | sender => exact hmarked .sender k' hk'
    | receiver =>
      cases hk'
      exact hmarked .receiver k (by rw [hpc]; rfl)
  · intro k' next' hk'
    cases hk'
  · intro k' got' next' hk'
    cases hk'
    exact hshort
  · intro k' hk'
    obtain ⟨hnil, hgot⟩ := h.unsent k' hk'
    obtain ⟨hbuf, hnet⟩ := List.append_eq_nil_iff.mp hnil
    refine ⟨?_, fun got' next' hk'' => ?_⟩
    · simp only [State.stream, State.goto, set_apply, hnet, List.append_nil]
      split_ifs with hkk
      · rw [← hkk.1, hbuf, List.drop_nil]
      · exact hbuf
    · cases hk''
      rw [hgot got next hpc, hbuf, List.take_nil, List.append_nil]
  · intro k' got' next' hk'
    obtain ⟨hwhole, hrest⟩ := h.sent k' got' next' hk'
    refine ⟨fun hfree => ?_, fun got'' next'' hk'' => ?_⟩
    · have hne : k' ≠ k := by
        rintro rfl
        have := hmarked .receiver k' (by rw [hpc]; rfl)
        rw [show st.tried .receiver k' = false from hfree] at this
        cases this
      simpa [State.stream, State.goto, set_apply, hne] using hwhole hfree
    · cases hk''
      simp only [State.stream, State.goto, set_apply, and_self, if_true, List.append_assoc]
      rw [← List.append_assoc (List.take _ _), List.take_append_drop]
      exact hrest got next hpc

lemma Inv.readAnswer (h : Inv hmac st) {k : Side} {got : Bytes} {next : Option Bool}
    (hpc : st.pc .sender = .waiting k got next) (got' : Bytes) :
    Inv hmac (st.goto .sender (.waiting k got' next)) := by
  refine ⟨?_, ?_, ?_, h.receives, h.short, ?_, ?_⟩
  · intro k₁ k₂ h₁ h₂
    cases h₁
    exact h.together k k₂ (by rw [hpc]; rfl) h₂
  · intro p k' hk'
    cases p with
    | sender => exact h.fresh .sender k' (by rw [hpc]; exact hk')
    | receiver => exact h.fresh .receiver k' hk'
  · intro p k' hk'
    cases p with
    | sender =>
      cases hk'
      exact h.marked .sender k (by rw [hpc]; rfl)
    | receiver => exact h.marked .receiver k' hk'
  · rintro k' (hk' | ⟨next', hk'⟩)
    · exact h.unsent k' (.inl hk')
    · cases hk'
  · intro k' got'' next' hk'
    cases hk'
    exact h.sent k got next hpc

lemma Inv.settle (h : Inv hmac st) {p k : Side} {got : Bytes} {next : Option Bool}
    (hpc : st.pc p = .waiting k got next) (n : ℕ) (got' : Bytes) :
    Inv hmac (State.settle hmac { st with buf := set st.buf k p ((st.buf k p).drop n) } p k got'
      next) := by
  have hnext : next = some true → st.tried p p.other = false := by
    rintro rfl
    exact h.fresh p p.other (by rw [hpc]; exact ⟨rfl, rfl⟩)
  have hmarked : st.tried p k = true := h.marked p k (by rw [hpc]; rfl)
  -- first the party leaves the handshake, then what it has read is gone
  have hleave : ∀ pc : Pc, pc.handshake = none → Inv hmac (st.goto p pc) →
      Inv hmac { st.goto p pc with buf := set st.buf k p ((st.buf k p).drop n) } := by
    intro pc hout hinv
    cases p with
    | sender => exact hinv.congr rfl rfl fun k' => by simp [State.stream, set_apply]; rfl
    | receiver => exact hinv.read hmarked (by simpa [State.goto] using hout) n
  have hreply : ∀ (ok : Bool) (k' : Side),
      set st.net k p.other (st.net k p.other ++ reply ok p) k' .receiver = st.net k' .receiver := by
    intro ok k'
    rw [set_apply]
    cases p with
    | sender =>
      split_ifs with hk
      · rw [hk.1]
        exact List.append_nil _
      · rfl
    | receiver => exact if_neg fun hk => by cases hk.2
  unfold State.settle
  dsimp only
  split_ifs
  · refine (hleave (.over (some k)) rfl (h.goto rfl fun _ hk => hk.elim)).congr rfl rfl fun k' => ?_
    simp only [State.stream, State.finish, State.goto, hreply]
  · refine (hleave (Crossing.resume next) ?_ (h.resume hnext)).congr rfl rfl fun k' => ?_
    · cases next <;> rfl
    · simp only [State.stream, State.fail, State.goto, hreply]

lemma Inv.recv (h : Inv hmac st) (p : Side) (n : ℕ) : Inv hmac (st.recv hmac p n) := by
  unfold State.recv
  split
  · rename_i k got next hpc
    dsimp only
    split_ifs with hshort
    · cases p with
      | sender =>
        refine (h.readAnswer hpc _).congr rfl rfl fun k' => ?_
        simp [State.stream, State.goto, set_apply]
      | receiver => exact h.readMore _ hpc hshort
    · exact h.settle hpc _ _
  · exact h

lemma Inv.broken (h : Inv hmac st) (p : Side) : Inv hmac (st.broken p) := by
  have hfail : ∀ k next, (∀ k', k' = p.other ∧ next = some true → (st.pc p).ready p k') →
      Inv hmac (st.fail p k next) := by
    intro k next hready
    have hnext : next = some true → st.tried p p.other = false :=
      fun hn => h.fresh p p.other (hready p.other ⟨rfl, hn⟩)
    exact (h.resume hnext).congr rfl rfl fun _ => rfl
  unfold State.broken
  split
  · rename_i k next hpc
    split_ifs
    · exact hfail k next fun k' hk' => by rw [hpc]; exact hk'
    · exact h
  · rename_i k got next hpc
    split_ifs
    · exact hfail k next fun k' hk' => by rw [hpc]; exact hk'
    · exact h
  · exact h

lemma Inv.go (h : Inv hmac st) {p : Side} (hok : Together st (.go p)) :
    Inv hmac (st.go hmac p) := by
  cases hpc : st.pc p with
  | polled listenReady connReady =>
    have hfresh := h.fresh p
    rw [hpc] at hfresh
    cases listenReady with
    | true =>
      simp only [State.go, hpc]
      refine h.begin (hfresh p (.inl ⟨rfl, rfl⟩)) ?_ (hok (p, p) (by simp [takesUp, hpc]))
      intro hconn
      refine ⟨by cases p <;> decide, hfresh p.other (.inr ⟨rfl, Option.some.inj hconn⟩)⟩
    | false =>
      simp only [State.go, hpc]
      exact h.goto rfl fun k hk => hfresh k (.inr hk)
  | connecting connReady =>
    have hfresh := h.fresh p
    rw [hpc] at hfresh
    cases connReady with
    | true =>
      simp only [State.go, hpc]
      exact h.begin (hfresh p.other ⟨rfl, rfl⟩) (by simp) (hok (p, p.other) (by simp [takesUp, hpc]))
    | false =>
      simp only [State.go, hpc]
      exact h.goto rfl fun k hk => hk.elim
  | sending k next =>
    cases p with
    | sender => exact h.send hpc
    | receiver => exact absurd hpc (h.receives k next)
  | _ => simpa only [State.go, hpc] using h

/-- **A step that meets the condition keeps the invariant.** -/
theorem Inv.step (h : Inv hmac st) {e : Event} (hok : Together st e) :
    Inv hmac (step hmac st e).1 := by
  show Inv hmac (react hmac st e)
  cases e with
  | start p =>
    simp only [react]
    split_ifs
    · exact h.goto rfl fun k hk => hk.elim
    · exact h
  | established k =>
    simp only [react]
    split_ifs
    · exact h
    · exact h.congr rfl rfl fun _ => rfl
  | queued k =>
    simp only [react]
    split_ifs
    · exact h.congr rfl rfl fun _ => rfl
    · exact h
  | poll p =>
    simp only [react]
    split_ifs
    · refine h.goto rfl fun k hk => ?_
      rcases hk with ⟨rfl, hk⟩ | ⟨rfl, hk⟩ <;> simp_all
    · exact h
  | expire p =>
    simp only [react]
    split_ifs
    · have hover : Inv hmac (st.goto p (.over none)) := h.goto rfl fun k hk => hk.elim
      exact hover.congr rfl rfl fun _ => rfl
    · exact h
  | go p => exact h.go hok
  | recv p n => exact h.recv p n
  | broken p => exact h.broken p
  | deliver k p n =>
    refine h.congr rfl rfl fun k' => ?_
    simp only [react, State.stream, set_apply]
    split_ifs with hk
    · rw [hk.1, ← hk.2, List.append_assoc, List.take_append_drop]
    · rfl

/-- The message has not been lost, so the receiver is not left waiting for it. -/
lemma Inv.not_deadlocked (h : Inv hmac st) : ¬ Deadlocked st := by
  intro hdead
  obtain ⟨k, got, next, hpc, -, -⟩ := hdead.blocked .sender
  obtain ⟨k', got', next', hpc', hbuf, -⟩ := hdead.blocked .receiver
  obtain rfl : k = k' := h.together k k' (by rw [hpc]; rfl) (by rw [hpc']; rfl)
  have hall := (h.sent k got next hpc).2 got' next' hpc'
  rw [State.stream, hbuf, hdead.quiet k .receiver, List.append_nil, List.append_nil] at hall
  have hshort := h.short k got' next' hpc'
  rw [hall] at hshort
  exact Nat.lt_irrefl _ hshort

/-- **No deadlock.** In every run in which no party takes up a connection while the other is in a
handshake on the other one, no state is reached in which both are blocked and nothing is under way
to either. -/
theorem no_deadlock (hmac : Bytes) (es : List Event)
    (hok : Run.Steps (step hmac) Together init es) (pre post : List Event) (hes : es = pre ++ post) :
    ¬ Deadlocked (Run.exec (step hmac) init pre) := by
  subst hes
  have hpre := (Run.steps_append.mp hok).1
  have hinv : Inv hmac (Run.exec (step hmac) init pre) :=
    Run.exec_inv_of_steps (fun _ _ hst hgo => hst.step hgo) inv_init hpre
  exact hinv.not_deadlocked

/-! ### Both accept -/

/-- The handshakes still wait for something. -/
def Short (hmac : Bytes) (st : State) : Prop :=
  ∀ p k got next, st.pc p = .waiting k got next → got.length < (expected hmac p).length

lemma set_same {α : Type} (f : Side → Side → α) (k p : Side) : set f k p (f k p) = f := by
  funext k' p'
  rw [set_apply]
  split_ifs with h
  · rw [h.1, h.2]
  · rfl

/-- In a deadlock no step does anything to the parties or to what is on the connections. -/
lemma react_of_deadlocked (h : Deadlocked st) (hshort : Short hmac st) (e : Event) :
    (react hmac st e).pc = st.pc ∧ (react hmac st e).buf = st.buf ∧
      (react hmac st e).net = st.net ∧ (react hmac st e).closed = st.closed := by
  have hwait : ∀ p, ∃ k got next, st.pc p = .waiting k got next ∧ st.buf k p = [] ∧
      st.closed k p.other = false := h.blocked
  cases e with
  | start p =>
    obtain ⟨k, got, next, hpc, -⟩ := hwait p
    simp [react, hpc]
  | established k =>
    simp only [react]
    split_ifs <;> simp
  | queued k =>
    simp only [react]
    split_ifs <;> simp
  | poll p =>
    obtain ⟨k, got, next, hpc, -⟩ := hwait p
    simp [react, hpc]
  | expire p =>
    obtain ⟨k, got, next, hpc, -⟩ := hwait p
    simp [react, hpc]
  | go p =>
    obtain ⟨k, got, next, hpc, -⟩ := hwait p
    simp [react, State.go, hpc]
  | recv p n =>
    obtain ⟨k, got, next, hpc, hbuf, -⟩ := hwait p
    have hlt := hshort p k got next hpc
    have hsame : set st.buf k p [] = st.buf := by
      conv_rhs => rw [← set_same st.buf k p, hbuf]
    simp only [react, State.recv, hpc, hbuf, List.take_nil, List.append_nil, hlt, if_true,
      List.drop_nil, hsame, State.goto]
    simp [← hpc]
  | broken p =>
    obtain ⟨k, got, next, hpc, -, hopen⟩ := hwait p
    simp [react, State.broken, hpc, hopen]
  | deliver k p n =>
    simp only [react, h.quiet k p, List.take_nil, List.append_nil, List.drop_nil, true_and,
      and_true]
    refine ⟨set_same st.buf k p, ?_⟩
    conv_rhs => rw [← set_same st.net k p, h.quiet k p]

/-- **A deadlock lasts**, whatever happens afterwards. -/
theorem deadlock_lasts (h : Deadlocked st) (hshort : Short hmac st) (es : List Event) :
    Deadlocked (Run.exec (step hmac) st es) := by
  have hinv : ∀ st e, Deadlocked st ∧ Short hmac st →
      Deadlocked (step hmac st e).1 ∧ Short hmac (step hmac st e).1 := by
    rintro st e ⟨h, hshort⟩
    obtain ⟨hpc, hbuf, hnet, hclosed⟩ := react_of_deadlocked h hshort e
    refine ⟨⟨fun p => ?_, fun k p => ?_⟩, ?_⟩
    · obtain ⟨k, got, next, hp, hb, hc⟩ := h.blocked p
      refine ⟨k, got, next, ?_, ?_, ?_⟩
      · simpa only [step, hpc] using hp
      · simpa only [step, hbuf] using hb
      · simpa only [step, hclosed] using hc
    · simpa only [step, hnet] using h.quiet k p
    · simpa only [Short, step, hpc] using hshort
  exact (Run.exec_inv hinv ⟨h, hshort⟩ es).1

/-- Both connections are in the queues when the two poll, so both accept; the sender's message
arrives on a connection that the receiver does not read. -/
def bothAccept : List Event :=
  [.start .sender, .start .receiver, .established .sender, .established .receiver, .queued .sender,
    .queued .receiver, .poll .sender, .poll .receiver, .go .sender, .go .receiver, .go .sender,
    .deliver .sender .receiver 36]

theorem both_accept_deadlock :
    ¬ ∀ (hmac : Bytes) (es : List Event), hmac.length = 32 →
      ¬ Deadlocked (Run.exec (step hmac) init es) := by
  intro h
  refine h sampleTag bothAccept (by decide) ⟨?_, ?_⟩
  · rintro (_ | _)
    · exact ⟨.sender, [], some true, by decide +kernel, by decide +kernel, by decide +kernel⟩
    · exact ⟨.receiver, [], some true, by decide +kernel, by decide +kernel, by decide +kernel⟩
  · rintro (_ | _) (_ | _) <;> decide +kernel

/-- The receiver's connection comes up first and both take it up. -/
theorem no_deadlock_one_connection :
    ¬ Deadlocked (Run.exec (step sampleTag) init
      [.start .sender, .start .receiver, .established .sender, .queued .sender, .poll .sender,
        .poll .receiver, .go .sender, .go .receiver, .go .receiver, .go .sender]) := by
  refine no_deadlock sampleTag _ ?_ _ [] (List.append_nil _).symm
  decide +kernel

end SyncClipboard.Crossing
