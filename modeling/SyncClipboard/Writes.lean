import SyncClipboard.Acts
import SyncClipboard.Pool

/-!
Which writes to a session may overlap.

A handler answers the session it was called for on the raw session, and reaches every other
session through the decorator in the registry, which lets one send in at a time. The broadcasts
are sent by a pool of threads. What a handler reads of the shared maps may be anything, so a call
carries the maps it reads; the container calls the handlers of one session one after the other.
-/

namespace SyncClipboard.Writes

open ServerModel Dispatcher Acts

inductive Route | raw | decorated | pool
  deriving DecidableEq

/-- The way a frame takes. `afterConnectionEstablished` only knows the raw session; of the other
frames those to the own session go the same way, and the broadcasts go through the pool. -/
def route : Event → WsMessage → Route
  | .established _ _ _, _ => .raw
  | _, .error _ => .raw
  | _, .pong _ => .raw
  | _, .filePeerInfo m => if m.role = "receiver" then .raw else .decorated
  | _, .clipboard _ => .pool
  | _, .fileNotify _ => .pool
  | _, _ => .decorated

structure Send where
  target : SessionId
  raw : Bool
  deriving DecidableEq

/-- A thread with the sends it has to do, one after the other; the first is in progress when the
thread is busy. A thread of the pool belongs to no session. -/
structure Task where
  handler : Option SessionId
  todo : List Send
  busy : Bool
  deriving DecidableEq

/-- The sends a handler does itself, in order. -/
def ownSends (e : Event) (as : List Act) : List Send :=
  as.filterMap fun
    | .send t f _ => if route e f = .pool then none else some ⟨t, decide (route e f = .raw)⟩
    | _ => none

/-- The tasks a handler gives to the pool. -/
def poolTasks (e : Event) (as : List Act) : List Task :=
  as.filterMap fun
    | .send t f _ => if route e f = .pool then some ⟨none, [⟨t, false⟩], false⟩ else none
    | _ => none

variable (cfg : Config)

def tasks (e : Event) (st : Server) : List Task :=
  let as := (Dispatcher.step cfg st e).2
  (if ownSends e as = [] then [] else [⟨e.session?, ownSends e as, false⟩]) ++ poolTasks e as

/-- The thread is sending to a session. -/
def Task.sending (x : SessionId) (raw : Bool) (t : Task) : Bool :=
  t.busy && decide (t.todo.head? = some ⟨x, raw⟩)

/-- The sends to a session that are in progress on the raw session, or through the decorator. -/
def writing (x : SessionId) (raw : Bool) (ts : List Task) : ℕ := ts.countP (Task.sending x raw)

/-- All sends to a session that are in progress. -/
def inProgress (x : SessionId) (ts : List Task) : ℕ :=
  ts.countP fun t => t.busy && decide (t.todo.head?.map Send.target = some x)

inductive Label
  | call (e : Event) (st : Server)
  | start (i : ℕ)
  | finish (i : ℕ)

/-- Calls of handlers, and sends that begin and end. -/
def step (ts : List Task) : Label → List Task × List Empty
  | .call e st =>
    if ts.any fun t => t.handler.isSome && decide (t.handler = e.session?) then (ts, [])
    else (ts ++ tasks cfg e st, [])
  | .start i =>
    match ts[i]? with
    | some ⟨handler, s :: todo, false⟩ =>
      -- a send through the decorator waits while another one is in progress
      if s.raw = false ∧ writing s.target false ts ≠ 0 then (ts, [])
      else (ts.set i ⟨handler, s :: todo, true⟩, [])
    | _ => (ts, [])
  | .finish i =>
    match ts[i]? with
    | some ⟨_, [_], true⟩ => (ts.eraseIdx i, [])
    | some ⟨handler, _ :: todo, true⟩ => (ts.set i ⟨handler, todo, false⟩, [])
    | _ => (ts, [])

/-- A send on the raw session starts when none is in progress through the decorator, and the other
way round. -/
def Clear (ts : List Task) : Label → Prop
  | .start i => ∀ t ∈ ts[i]?, t.busy = false → ∀ s ∈ t.todo.head?,
      if s.raw then writing s.target false ts = 0
      else writing s.target false ts = 0 → writing s.target true ts = 0
  | _ => True

instance (ts : List Task) : ∀ l, Decidable (Clear ts l)
  | .start i => inferInstanceAs (Decidable (∀ t ∈ ts[i]?, _ → ∀ s ∈ t.todo.head?, _))
  | .call _ _ => inferInstanceAs (Decidable True)
  | .finish _ => inferInstanceAs (Decidable True)

/-! ### The raw session is the handler's own -/

variable {cfg}

/-- What goes out on a raw session goes to the session the event came from. -/
theorem raw_own {st : Server} {e : Event} {x : SessionId} {f : WsMessage} {b : Bool}
    (h : Act.send x f b ∈ (Dispatcher.step cfg st e).2) (hr : route e f = .raw) :
    e.session? = some x := by
  rcases step_sends h with ⟨sid, msg, now, net, cs, rfl, -, hsend⟩ | ⟨hx, -⟩
  · cases hsend with
    | clipboard m ht => simp [route] at hr
    | notify hl hg ht => simp [route, notifyOf] at hr
    | toSender hg ho => simp [route, peerInfoForSender] at hr
    | toReceiver hg ho => rfl
    | relayData hl hg ho hsize ht hin hu hd => simp [route, relayDataOf] at hr
    | relayRequest hl hg ho hd => simp [route] at hr
    | error er => rfl
    | pong ts => rfl
  · exact hx

/-- Raw sends belong to the handler of the session, which has one thread. -/
structure Inv (ts : List Task) : Prop where
  own : ∀ t ∈ ts, ∀ s ∈ t.todo, s.raw = true → t.handler = some s.target
  single : (ts.filterMap Task.handler).Nodup

lemma mem_poolTasks {e : Event} {as : List Act} {t : Task} (h : t ∈ poolTasks e as) :
    ∃ x, t = ⟨none, [⟨x, false⟩], false⟩ := by
  obtain ⟨a, -, hsome⟩ := List.mem_filterMap.mp h
  cases a with
  | send x f b =>
    dsimp only at hsome
    split_ifs at hsome
    exact ⟨x, (Option.some.inj hsome).symm⟩
  | close x code reason => simp at hsome

variable (cfg) in
/-- Only the thread of the handler belongs to a session. -/
lemma handlers_tasks (e : Event) (st : Server) :
    (tasks cfg e st).filterMap Task.handler = [] ∨
      (tasks cfg e st).filterMap Task.handler = e.session?.toList := by
  have hpool : ∀ as, (poolTasks e as).filterMap Task.handler = [] := by
    intro as
    rw [List.filterMap_eq_nil_iff]
    intro t ht
    obtain ⟨x, rfl⟩ := mem_poolTasks ht
    rfl
  unfold tasks
  dsimp only
  rw [List.filterMap_append, hpool, List.append_nil]
  split_ifs with hnil
  · exact .inl rfl
  · right
    cases hs : e.session? with
    | none => rfl
    | some sid => rfl

variable (cfg) in
lemma inv_tasks (e : Event) (st : Server) : Inv (tasks cfg e st) where
  own := by
    intro t ht s hs hraw
    rcases List.mem_append.mp ht with ht | ht
    · split_ifs at ht with hnil
      · simp at ht
      · rw [List.mem_singleton.mp ht] at hs ⊢
        obtain ⟨a, ha, hsome⟩ := List.mem_filterMap.mp hs
        cases a with
        | send x f b =>
          dsimp only at hsome
          split_ifs at hsome with hpool
          cases hsome
          exact raw_own ha (by simpa using hraw)
        | close x code reason => simp at hsome
    · obtain ⟨x, rfl⟩ := mem_poolTasks ht
      rw [List.mem_singleton.mp hs] at hraw
      simp at hraw
  single := by
    rcases handlers_tasks cfg e st with h | h <;> rw [h]
    · exact List.nodup_nil
    · cases e.session? with
      | none => exact List.nodup_nil
      | some sid => exact List.nodup_singleton sid

lemma idle_tasks {e : Event} {st : Server} {t : Task} (h : t ∈ tasks cfg e st) : t.busy = false := by
  rcases List.mem_append.mp h with h | h
  · split_ifs at h
    · simp at h
    · rw [List.mem_singleton.mp h]
  · obtain ⟨x, rfl⟩ := mem_poolTasks h
    rfl

/-! ### One step -/

lemma inv_call {ts : List Task} (h : Inv ts) (e : Event) (st : Server) :
    Inv (step cfg ts (.call e st)).1 := by
  simp only [step]
  split_ifs with hbusy
  · exact h
  · have hnew := inv_tasks cfg e st
    refine ⟨fun t ht => ?_, ?_⟩
    · rcases List.mem_append.mp ht with ht | ht
      · exact h.own t ht
      · exact hnew.own t ht
    · rw [List.filterMap_append, List.nodup_append]
      refine ⟨h.single, hnew.single, fun x hx y hy hxy => hbusy ?_⟩
      obtain ⟨t, ht, htx⟩ := List.mem_filterMap.mp hx
      have hsession : e.session? = some y := by
        rcases handlers_tasks cfg e st with h' | h' <;> rw [h'] at hy
        · simp at hy
        · simpa using hy
      rw [List.any_eq_true]
      exact ⟨t, ht, by simp [htx, hsession, hxy]⟩

/-- A thread that moves on within its sends keeps the invariant. -/
lemma inv_set {ts : List Task} (h : Inv ts) {i : ℕ} {t t' : Task} (hi : ts[i]? = some t)
    (hhandler : t'.handler = t.handler) (htodo : ∀ s ∈ t'.todo, s ∈ t.todo) :
    Inv (ts.set i t') := by
  refine ⟨fun u hu s hs hraw => ?_, ?_⟩
  · rcases Pool.mem_of_mem_set hi hu with rfl | hu
    · rw [hhandler]
      exact h.own t (List.mem_of_getElem? hi) s (htodo s hs) hraw
    · exact h.own u hu s hs hraw
  · have hsame : (t' :: ts.eraseIdx i).filterMap Task.handler =
        (t :: ts.eraseIdx i).filterMap Task.handler := by
      rw [List.filterMap_cons, List.filterMap_cons, hhandler]
    rw [((Pool.set_perm hi t').filterMap _).nodup_iff, hsame,
      ← ((Pool.perm_of_getElem? hi).filterMap _).nodup_iff]
    exact h.single

lemma inv_step {ts : List Task} (h : Inv ts) (l : Label) : Inv (step cfg ts l).1 := by
  cases l with
  | call e st => exact inv_call h e st
  | start i =>
    simp only [step]
    split
    · next handler s todo hi =>
      split_ifs
      · exact h
      · exact inv_set h hi rfl fun s' hs' => hs'
    · exact h
  | finish i =>
    simp only [step]
    split
    · next hi =>
      refine ⟨fun t ht => h.own t (List.mem_of_mem_eraseIdx ht), ?_⟩
      exact ((List.eraseIdx_sublist ts i).filterMap _).nodup h.single
    · next handler s todo hne hi => exact inv_set h hi rfl fun s' hs' => List.mem_cons_of_mem s hs'
    · exact h

lemma sending_or (x : SessionId) (ts : List Task) :
    inProgress x ts = writing x true ts + writing x false ts := by
  unfold inProgress writing
  induction ts with
  | nil => rfl
  | cons t ts ih =>
    simp only [List.countP_cons, ih, Task.sending]
    rcases t with ⟨handler, _ | ⟨⟨target, _ | _⟩, todo⟩, _ | _⟩ <;> simp <;> split <;> omega

/-- The sends in progress after a send has started: one more to its session. -/
lemma inProgress_start {ts : List Task} {i : ℕ} {handler : Option SessionId} {s : Send}
    {todo : List Send} (hi : ts[i]? = some ⟨handler, s :: todo, false⟩) (x : SessionId) :
    inProgress x (ts.set i ⟨handler, s :: todo, true⟩) =
      inProgress x ts + if x = s.target then 1 else 0 := by
  have hset := Pool.countP_set hi ⟨handler, s :: todo, true⟩ fun t =>
    t.busy && decide (t.todo.head?.map Send.target = some x)
  unfold inProgress
  simp only [Bool.false_and, Bool.true_and, List.head?_cons, Option.map_some, Option.some.injEq,
    decide_eq_true_eq, Bool.false_eq_true, if_false, Nat.add_zero] at hset
  rw [hset]
  simp only [eq_comm]

/-- The thread that is about to send on a raw session is the only one that may. -/
lemma writing_raw_eq_zero {ts : List Task} (h : Inv ts) {i : ℕ} {t : Task} (hi : ts[i]? = some t)
    (hidle : t.busy = false) {s : Send} (hs : s ∈ t.todo) (hraw : s.raw = true) :
    writing s.target true ts = 0 := by
  have hperm := Pool.perm_of_getElem? hi
  have hnodup := h.single
  have hown := h.own t (List.mem_of_getElem? hi) s hs hraw
  rw [(hperm.filterMap _).nodup_iff, List.filterMap_cons, hown] at hnodup
  unfold writing
  rw [List.countP_eq_zero]
  intro u hu hsending
  simp only [Task.sending, Bool.and_eq_true, decide_eq_true_eq] at hsending
  have hhead : (⟨s.target, true⟩ : Send) ∈ u.todo := List.mem_of_head? hsending.2
  have hsame := h.own u hu _ hhead rfl
  rcases List.mem_cons.mp (hperm.mem_iff.mp hu) with rfl | hrest
  · rw [hidle] at hsending
    simp at hsending
  · exact (List.nodup_cons.mp hnodup).1 (List.mem_filterMap.mpr ⟨u, hrest, hsame⟩)

/-- At most one send is in progress on any session. -/
def Serialised (ts : List Task) : Prop := ∀ x, inProgress x ts ≤ 1

/-- A send that goes ahead must be the only one. -/
lemma serialised_set_iff {ts : List Task} (hser : Serialised ts) {i : ℕ}
    {handler : Option SessionId} {s : Send} {todo : List Send}
    (hi : ts[i]? = some ⟨handler, s :: todo, false⟩) :
    Serialised (ts.set i ⟨handler, s :: todo, true⟩) ↔ inProgress s.target ts = 0 := by
  constructor
  · intro hnext
    have hone := hnext s.target
    rw [inProgress_start hi, if_pos rfl] at hone
    omega
  · intro hzero x
    have hx := hser x
    rw [inProgress_start hi]
    split_ifs with heq
    · rw [heq]
      omega
    · exact hx

lemma serialised_start {ts : List Task} (h : Inv ts) (hser : Serialised ts) (i : ℕ) :
    Serialised (step cfg ts (.start i)).1 ↔ Clear ts (.start i) := by
  simp only [step, Clear]
  split
  · next handler s todo hi =>
    have hclear : (∀ t ∈ ts[i]?, t.busy = false → ∀ s ∈ t.todo.head?,
        if s.raw then writing s.target false ts = 0
        else writing s.target false ts = 0 → writing s.target true ts = 0) ↔
        if s.raw then writing s.target false ts = 0
        else writing s.target false ts = 0 → writing s.target true ts = 0 := by
      simp [hi]
    have hsum := sending_or s.target ts
    have hraw := writing_raw_eq_zero h hi rfl (List.mem_cons_self ..)
    rw [hclear]
    split_ifs with hwait hr hr
    · simp [hr] at hwait
    · exact iff_of_true hser fun hzero => absurd hzero hwait.2
    · rw [serialised_set_iff hser hi, hsum, hraw hr, Nat.zero_add]
    · have hfree : writing s.target false ts = 0 := by
        by_contra hne
        exact hwait ⟨by simpa using hr, hne⟩
      rw [serialised_set_iff hser hi, hsum, hfree, Nat.add_zero]
      exact ⟨fun hzero _ => hzero, fun himp => himp rfl⟩
  · next hne =>
    refine iff_of_true hser fun t ht hidle s hs => ?_
    rcases t with ⟨handler, _ | ⟨s', todo⟩, busy⟩
    · simp at hs
    · obtain rfl : busy = false := hidle
      exact absurd ht (hne handler s' todo)

lemma serialised_call {ts : List Task} (hser : Serialised ts) (e : Event) (st : Server) :
    Serialised (step cfg ts (.call e st)).1 := by
  simp only [step]
  split_ifs
  · exact hser
  · intro x
    have hidle : (tasks cfg e st).countP
        (fun t => t.busy && decide (t.todo.head?.map Send.target = some x)) = 0 := by
      rw [List.countP_eq_zero]
      intro t ht
      simp [idle_tasks ht]
    unfold inProgress
    rw [List.countP_append, hidle]
    exact hser x

lemma serialised_finish {ts : List Task} (hser : Serialised ts) (i : ℕ) :
    Serialised (step cfg ts (.finish i)).1 := by
  simp only [step]
  split
  · exact fun x => Nat.le_trans ((List.eraseIdx_sublist ts i).countP_le) (hser x)
  · next handler s todo hne hi =>
    intro x
    have hset := Pool.countP_set hi ⟨handler, todo, false⟩ fun t =>
      t.busy && decide (t.todo.head?.map Send.target = some x)
    have hx := hser x
    unfold inProgress at hx ⊢
    simp only [Bool.false_and, Bool.false_eq_true, if_false] at hset
    dsimp only
    omega
  · exact hser

lemma serialised_step {ts : List Task} (l : Label) (h : Inv ts) (hser : Serialised ts) :
    Serialised (step cfg ts l).1 ↔ Clear ts l := by
  cases l with
  | call e st => exact iff_of_true (serialised_call hser e st) trivial
  | start i => exact serialised_start h hser i
  | finish i => exact iff_of_true (serialised_finish hser i) trivial

/-! ### Every run -/

/-- **Writes to a session.** In every state of a run at most one send is in progress on each
session if and only if no send on a raw session starts during one through the decorator, or the
other way round. -/
theorem serialised_iff (ls : List Label) :
    (∀ pre post, ls = pre ++ post → Serialised (Run.exec (step cfg) [] pre)) ↔
      Run.Steps (step cfg) Clear [] ls := by
  have hinv : Inv [] := ⟨by simp, List.nodup_nil⟩
  have hser : Serialised [] := fun x => Nat.zero_le _
  exact Run.always_iff_steps (fun ts l hI => inv_step hI l)
    (fun ts l hI hP => serialised_step l hI hP) hinv hser ls

/-! Two devices of one user. -/

def sampleConfig : Config where
  fileTransferLevel := 3
  udpPort := 8081
  maxRelaySize := 100
  session sid := ⟨some "al", some sid, none⟩

def phoneConnects : Event := .established "phone" 0 allOk

def laptopPublishes : Event := .text "laptop" (some (.clipboard ⟨none, some "x", none⟩)) 0 allOk

/-- The server when the laptop is connected, and when the phone is registered too. -/
def before : Server := (Dispatcher.step sampleConfig init (.established "laptop" 0 allOk)).1

def registered : Server := (Dispatcher.step sampleConfig before phoneConnects).1

/-- The `hello_ack` to the phone meets a broadcast of the laptop. -/
theorem hello_ack_overlaps :
    ¬ ∀ pre post, [.call phoneConnects before, .call laptopPublishes registered, .start 0,
        .start 1] = pre ++ post →
      Serialised (Run.exec (step sampleConfig) [] pre) := by
  intro h
  have htwo := h _ [] (List.append_nil _).symm "phone"
  exact absurd htwo (by decide +kernel)

end SyncClipboard.Writes
