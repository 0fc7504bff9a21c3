import Mathlib.Logic.Function.Basic
import SyncClipboard.Run

/-!
The connection manager of the Android client: `start` and `stop`, the loops that `start` launches, and
the callbacks of the sockets.

A loop takes one statement at a time, and loops, callbacks and calls come in any order. Cancelling a
loop ends it at once where it is suspended; elsewhere it goes on until it would suspend. The waiting
for a token is different: the code that asks for one catches the cancellation like any other
exception, and the loop goes on without a token. What the store and the server answer is part of a
step. A socket is a number, and its callbacks may come at any time until one of them was the last.
-/

namespace SyncClipboard.Connection

inductive State
  | idle
  | connecting
  | connected
  | disconnected
  | authFailed
  deriving DecidableEq

/-- A WebSocket and the continuation that its listener resumes. -/
structure Socket where
  -- `onOpen` has come
  opened : Bool
  cancelled : Bool
  -- `onFailure` or `onClosed` has come
  ended : Bool
  resumed : Option Bool
  deriving DecidableEq

/-- Where a loop is: the statement that comes next. -/
inductive Pc
  | launched
  /-- the test of the outer loop -/
  | loop
  | isConfigured
  /-- `_state.value = State.IDLE` -/
  | idle
  | connecting
  | ensureValidToken
  | authFailed
  /-- `socketRef.getAndSet(null)?.cancel()` in `openSocket` -/
  | replace
  /-- `newWebSocket` -/
  | create
  /-- `socketRef.set(ws)` -/
  | set (ws : ℕ)
  /-- `invokeOnCancellation` -/
  | register (ws : ℕ)
  /-- suspended until the listener resumes -/
  | waiting (ws : ℕ)
  /-- the test of the inner loop -/
  | opened
  | failed
  /-- suspended in `delay`, in the inner or the outer loop -/
  | delay (inner : Bool)
  | done
  deriving DecidableEq

structure Loop where
  pc : Pc
  cancelled : Bool
  deriving DecidableEq

structure Manager where
  state : State
  socketRef : Option ℕ
  shouldReconnect : Bool
  connectJob : Option ℕ
  loops : ℕ → Loop
  -- the loops launched so far
  launched : ℕ
  sockets : ℕ → Socket
  -- the sockets created so far
  created : ℕ

def init : Manager where
  state := .idle
  socketRef := none
  shouldReconnect := false
  connectJob := none
  loops _ := ⟨.done, true⟩
  launched := 0
  sockets _ := ⟨false, false, false, none⟩
  created := 0

def Manager.publish (x : State) (m : Manager) : Manager := { m with state := x }

def Manager.setLoop (i : ℕ) (l : Loop) (m : Manager) : Manager :=
  { m with loops := Function.update m.loops i l }

def Manager.setSocket (ws : ℕ) (k : Socket) (m : Manager) : Manager :=
  { m with sockets := Function.update m.sockets ws k }

def Manager.cancel (ws : ℕ) (m : Manager) : Manager :=
  m.setSocket ws { m.sockets ws with cancelled := true }

/-- `socketRef.getAndSet(null)?.cancel()`. -/
def Manager.takeSocket (m : Manager) : Manager :=
  match m.socketRef with
  | none => m
  | some ws => { m.cancel ws with socketRef := none }

/-- Whether a loop is suspended where cancelling ends it. -/
def Manager.suspended (i : ℕ) (m : Manager) : Bool :=
  match (m.loops i).pc with
  | .waiting ws => (m.sockets ws).resumed.isNone
  | .delay _ => true
  | _ => false

/-- The handler of a suspended `openSocket` cancels its socket. -/
def Manager.onCancellation (i : ℕ) (m : Manager) : Manager :=
  match (m.loops i).pc with
  | .waiting ws => if m.suspended i then m.cancel ws else m
  | _ => m

/-- `connectJob?.cancel()`. -/
def Manager.cancelJob (m : Manager) : Manager :=
  match m.connectJob with
  | none => m
  | some i =>
    (m.onCancellation i).setLoop i ⟨if m.suspended i then .done else (m.loops i).pc, true⟩

def start (m : Manager) : Manager :=
  if m.shouldReconnect then m
  else
    let m := { m with shouldReconnect := true }.cancelJob
    { m.setLoop m.launched ⟨.launched, false⟩ with
      connectJob := some m.launched
      launched := m.launched + 1 }

def stop (m : Manager) : Manager :=
  ({ m with shouldReconnect := false }.cancelJob).takeSocket.publish .idle

/-! ### The loops -/

def Manager.goto (i : ℕ) (pc : Pc) (m : Manager) : Manager :=
  m.setLoop i { m.loops i with pc := pc }

/-- `delay`, which a cancelled loop does not survive. -/
def Manager.suspend (i : ℕ) (inner : Bool) (m : Manager) : Manager :=
  m.goto i (if (m.loops i).cancelled then .done else .delay inner)

structure Answer where
  configured : Bool
  token : Bool

/-- The next statement of a loop. -/
def advance (i : ℕ) (a : Answer) (m : Manager) : Manager :=
  match (m.loops i).pc with
  | .launched => m.goto i (if (m.loops i).cancelled then .done else .loop)
  | .loop => m.goto i (if m.shouldReconnect then .isConfigured else .done)
  | .isConfigured => m.goto i (if a.configured then .connecting else .idle)
  | .idle => (m.publish .idle).suspend i false
  | .connecting => (m.publish .connecting).goto i .ensureValidToken
  | .ensureValidToken => m.goto i (if a.token then .replace else .authFailed)
  | .authFailed => (m.publish .authFailed).suspend i false
  | .replace => m.takeSocket.goto i .create
  | .create =>
    { m.setSocket m.created ⟨false, false, false, none⟩ with created := m.created + 1 }.goto i
      (.set m.created)
  | .set ws => { m with socketRef := some ws }.goto i (.register ws)
  -- the handler of a continuation that is cancelled already runs at once
  | .register ws =>
    if (m.loops i).cancelled then (m.cancel ws).goto i .done else m.goto i (.waiting ws)
  | .waiting ws =>
    match (m.sockets ws).resumed with
    | none => m
    | some ok =>
      if (m.loops i).cancelled then (m.cancel ws).goto i .done
      else m.goto i (if ok then .opened else .failed)
  | .opened =>
    if m.shouldReconnect ∧ m.socketRef ≠ none then m.suspend i true else m.goto i .loop
  | .failed => (m.publish .disconnected).suspend i false
  | .delay inner => m.goto i (if inner then .opened else .loop)
  | .done => m

/-! ### The listener -/

/-- `socketRef.compareAndSet(ws, null)`. -/
def Manager.forget (ws : ℕ) (m : Manager) : Manager :=
  { m with socketRef := if m.socketRef = some ws then none else m.socketRef }

def onOpen (ws : ℕ) (m : Manager) : Manager :=
  let k := m.sockets ws
  (m.publish .connected).setSocket ws { k with opened := true, resumed := k.resumed.or (some true) }

/-- The last callback of a socket. -/
def onEnd (ws : ℕ) (x : State) (m : Manager) : Manager :=
  let k := m.sockets ws
  ((m.forget ws).publish x).setSocket ws { k with ended := true, resumed := k.resumed.or (some false) }

def onFailure (ws : ℕ) (unauthorized : Bool) : Manager → Manager :=
  onEnd ws (if unauthorized then .authFailed else .disconnected)

def onClosed (ws : ℕ) : Manager → Manager := onEnd ws .disconnected

/-! ### Runs -/

inductive Event
  | start
  | stop
  | loop (i : ℕ) (a : Answer)
  | onOpen (ws : ℕ)
  | onFailure (ws : ℕ) (unauthorized : Bool)
  | onClosed (ws : ℕ)

/-- The callbacks that may come: `onOpen` once and before the last one, `onClosed` only after it. -/
def react (m : Manager) : Event → Manager
  | .start => Connection.start m
  | .stop => Connection.stop m
  | .loop i a => advance i a m
  | .onOpen ws =>
    if ws < m.created ∧ (m.sockets ws).opened = false ∧ (m.sockets ws).ended = false then
      Connection.onOpen ws m
    else m
  | .onFailure ws unauthorized =>
    if ws < m.created ∧ (m.sockets ws).ended = false then Connection.onFailure ws unauthorized m
    else m
  | .onClosed ws =>
    if ws < m.created ∧ (m.sockets ws).opened = true ∧ (m.sockets ws).ended = false then
      Connection.onClosed ws m
    else m

/-- A step, with the value that is published if it is another one. -/
def step (m : Manager) (e : Event) : Manager × List State :=
  let m' := react m e
  (m', if m'.state = m.state then [] else [m'.state])

/-! ### Which loops are not cancelled -/

/-- Loops that have not been launched do nothing, and only the last one launched may not be
cancelled. -/
def Jobs (m : Manager) : Prop :=
  (∀ i, m.launched ≤ i → (m.loops i).pc = .done) ∧
    ∀ i, (m.loops i).cancelled = false → m.connectJob = some i

variable {m : Manager}

@[simp] lemma publish_state (x : State) : (m.publish x).state = x := rfl

@[simp] lemma publish_loops (x : State) : (m.publish x).loops = m.loops := rfl

@[simp] lemma setSocket_state (ws : ℕ) (k : Socket) : (m.setSocket ws k).state = m.state := rfl

@[simp] lemma goto_state (i : ℕ) (pc : Pc) : (m.goto i pc).state = m.state := rfl

@[simp] lemma goto_pc (i : ℕ) (pc : Pc) : ((m.goto i pc).loops i).pc = pc := by
  simp [Manager.goto, Manager.setLoop]

@[simp] lemma suspend_state (i : ℕ) (inner : Bool) : (m.suspend i inner).state = m.state := rfl

lemma jobs_init : Jobs init := ⟨fun _ _ => rfl, fun _ h => by cases h⟩

lemma takeSocket_loops : m.takeSocket.loops = m.loops := by
  unfold Manager.takeSocket
  split <;> rfl

lemma Jobs.takeSocket (h : Jobs m) : Jobs m.takeSocket := by
  unfold Manager.takeSocket
  split <;> exact h

lemma Jobs.setLoop (h : Jobs m) {i : ℕ} {l : Loop} (hpc : (m.loops i).pc ≠ .done ∨ l.pc = .done)
    (hc : l.cancelled = false → (m.loops i).cancelled = false) : Jobs (m.setLoop i l) := by
  obtain ⟨hfresh, hcurrent⟩ := h
  constructor
  · intro j hj
    simp only [Manager.setLoop, Function.update_apply]
    split_ifs with hji
    · subst hji
      exact hpc.resolve_left fun hne => hne (hfresh j hj)
    · exact hfresh j hj
  · intro j hj
    simp only [Manager.setLoop, Function.update_apply] at hj
    split_ifs at hj with hji
    · subst hji
      exact hcurrent j (hc hj)
    · exact hcurrent j hj

lemma Jobs.goto (h : Jobs m) {i : ℕ} (hi : (m.loops i).pc ≠ .done) (pc : Pc) : Jobs (m.goto i pc) :=
  h.setLoop (.inl hi) id

lemma onCancellation_same (i : ℕ) :
    (m.onCancellation i).loops = m.loops ∧ (m.onCancellation i).launched = m.launched ∧
      (m.onCancellation i).connectJob = m.connectJob := by
  unfold Manager.onCancellation
  split
  · split_ifs <;> exact ⟨rfl, rfl, rfl⟩
  · exact ⟨rfl, rfl, rfl⟩

lemma Jobs.onCancellation (h : Jobs m) (i : ℕ) : Jobs (m.onCancellation i) := by
  obtain ⟨hloops, hlaunched, hjob⟩ := onCancellation_same (m := m) i
  unfold Jobs
  rwa [hloops, hlaunched, hjob]

lemma Jobs.cancelJob (h : Jobs m) : Jobs m.cancelJob := by
  unfold Manager.cancelJob
  cases hjob : m.connectJob with
  | none => exact h
  | some i =>
    refine (h.onCancellation i).setLoop ?_ (fun hc => by cases hc)
    rw [(onCancellation_same i).1]
    by_cases hdone : (m.loops i).pc = .done
    · right
      simp only [hdone]
      split_ifs <;> rfl
    · exact .inl hdone

lemma Jobs.cancelled (h : Jobs m) (j : ℕ) : (m.cancelJob.loops j).cancelled = true := by
  unfold Manager.cancelJob
  by_contra hj
  cases hjob : m.connectJob with
  | none =>
    simp only [hjob] at hj
    have hcurrent := h.2 j (Bool.eq_false_iff.mpr hj)
    rw [hjob] at hcurrent
    cases hcurrent
  | some i =>
    simp only [hjob, Manager.setLoop, (onCancellation_same i).1, Function.update_apply] at hj
    by_cases hji : j = i
    · rw [if_pos hji] at hj
      exact hj rfl
    · rw [if_neg hji] at hj
      have hcurrent := h.2 j (Bool.eq_false_iff.mpr hj)
      rw [hjob] at hcurrent
      exact hji (Option.some.inj hcurrent).symm

lemma Jobs.start (h : Jobs m) : Jobs (start m) := by
  unfold Connection.start
  split_ifs
  · exact h
  · have hjob : Jobs ({ m with shouldReconnect := true } : Manager) := h
    have hall := hjob.cancelled
    obtain ⟨hfresh, -⟩ := hjob.cancelJob
    constructor
    · intro i hi
      have hlt : ({ m with shouldReconnect := true } : Manager).cancelJob.launched < i := hi
      simp only [Manager.setLoop, Function.update_apply]
      split_ifs with heq
      · omega
      · exact hfresh i (by omega)
    · intro i hi
      simp only [Manager.setLoop, Function.update_apply] at hi ⊢
      split_ifs at hi with heq
      · rw [heq]
      · rw [hall i] at hi
        cases hi

lemma Jobs.advance (h : Jobs m) (i : ℕ) (a : Answer) : Jobs (advance i a m) := by
  by_cases hdone : (m.loops i).pc = .done
  · simpa only [Connection.advance, hdone] using h
  · unfold Connection.advance
    split
    case h_8 hpc =>
      refine h.takeSocket.goto ?_ _
      rwa [takeSocket_loops]
    all_goals
      repeat' split
      all_goals first
        | exact h
        | exact h.goto hdone _

lemma Jobs.step (h : Jobs m) (e : Event) : Jobs (step m e).1 := by
  cases e with
  | start => exact h.start
  | stop =>
    have hstop : Jobs ({ m with shouldReconnect := false } : Manager) := h
    exact hstop.cancelJob.takeSocket
  | loop i a => exact h.advance i a
  | onOpen ws =>
    simp only [Connection.step, react]
    split_ifs <;> exact h
  | onFailure ws unauthorized =>
    simp only [Connection.step, react]
    split_ifs <;> exact h
  | onClosed ws =>
    simp only [Connection.step, react]
    split_ifs <;> exact h

lemma jobs_exec (es : List Event) : Jobs (Run.exec step init es) :=
  Run.exec_inv (fun _ e h => h.step e) jobs_init es

end SyncClipboard.Connection
