import SyncClipboard.LinkedQueue
import SyncClipboard.Run

/-!
The queue of outgoing messages of the Linux and Windows clients.

Any thread may call `queue_send`: it makes a node, puts it behind the last one while it holds the lock,
and asks for a writable callback afterwards. The thread that serves the WebSocket takes the first node
in `LWS_CALLBACK_CLIENT_WRITEABLE`, also under the lock, writes its message and asks for the next
callback if there were more nodes. So between two critical sections other threads may come in. The queue
is always the list of the messages that were queued and not yet taken, and if something is in it after
a writable callback, the next one has been asked for or a call that put something in is about to ask
(`lossless`).
-/

namespace SyncClipboard.SendQueue

open LinkedQueue

variable {M : Type*}

/-- Where a thread is in `queue_send`. -/
inductive Call
  | idle
  /-- the node is made -/
  | made (node : ℕ)
  /-- the critical section is left -/
  | linked
  deriving DecidableEq

/-- `g_wsi` and `g_connected`. -/
inductive Conn
  | closed
  | connecting
  | established
  deriving DecidableEq

/-- The thread that runs the callbacks; it also calls `queue_send`. -/
def service : ℕ := 0

structure St (M : Type*) where
  heap : Heap ℕ M
  /-- `g_send_head` and `g_send_tail` -/
  queue : Queue ℕ
  conn : Conn
  /-- a writable callback was asked for and has not come -/
  requested : Bool
  calls : ℕ → Call
  /-- `node` and `has_more` in a writable callback that has left its critical section -/
  handler : Option (Option ℕ × Bool)

def start : St M where
  heap := fun _ => none
  queue := empty
  conn := .closed
  requested := false
  calls := fun _ => .idle
  handler := none

/-- No callback is running. -/
def St.Free (s : St M) : Prop := s.handler = none ∧ s.calls service = .idle

instance (s : St M) : Decidable s.Free := inferInstanceAs (Decidable (_ ∧ _))

inductive Event (M : Type*)
  /-- a thread enters `queue_send`, and `malloc` gives it a node -/
  | enter (t : ℕ) (msg : M) (node : ℕ)
  | link (t : ℕ)
  | request (t : ℕ)
  /-- `lws_client_connect_via_info` -/
  | connect
  /-- `LWS_CALLBACK_CLIENT_ESTABLISHED`, which queues a message -/
  | established (hello : M) (node : ℕ)
  /-- `LWS_CALLBACK_CLIENT_CONNECTION_ERROR` or `LWS_CALLBACK_CLIENT_CLOSED` -/
  | dropped
  /-- `LWS_CALLBACK_CLIENT_WRITEABLE` up to the end of its critical section -/
  | writeable
  /-- the rest of it -/
  | write

inductive Out (M : Type*)
  | queued (msg : M)
  | written (msg : M)
  deriving DecidableEq

def St.setCall (s : St M) (t : ℕ) (c : Call) : St M := { s with calls := Function.update s.calls t c }

/-- `malloc` and `strdup`. -/
def St.make (s : St M) (t : ℕ) (msg : M) (node : ℕ) : St M :=
  { s.setCall t (.made node) with heap := Function.update s.heap node (some ⟨msg, none⟩) }

def step (s : St M) : Event M → St M × List (Out M)
  | .enter t msg node =>
    if s.calls t = .idle ∧ (s.heap node).isNone ∧ (t = service → s.handler = none) then
      (s.make t msg node, [])
    else (s, [])
  | .link t =>
    match s.calls t with
    | .made node =>
      let r := LinkedQueue.link s.heap s.queue node
      ({ s.setCall t .linked with heap := r.1, queue := r.2 },
        ((s.heap node).map fun n => .queued n.value).toList)
    | _ => (s, [])
  | .request t =>
    if s.calls t = .linked then
      ({ s.setCall t .idle with requested := s.requested || decide (s.conn ≠ .closed) }, [])
    else (s, [])
  | .connect =>
    if s.Free ∧ s.conn = .closed then ({ s with conn := .connecting, requested := false }, []) else (s, [])
  | .established hello node =>
    if s.Free ∧ s.conn = .connecting ∧ (s.heap node).isNone then
      ({ s.make service hello node with conn := .established }, [])
    else (s, [])
  | .dropped =>
    if s.Free ∧ s.conn ≠ .closed then ({ s with conn := .closed, requested := false }, []) else (s, [])
  | .writeable =>
    if s.Free ∧ s.conn = .established then
      let q := unlink s.heap s.queue
      ({ s with queue := q, requested := false, handler := some (s.queue.head, q.head.isSome) }, [])
    else (s, [])
  | .write =>
    match s.handler with
    | some (some node, more) =>
      ({ s with
          heap := Function.update s.heap node none
          requested := s.requested || more
          handler := none },
        ((s.heap node).map fun n => .written n.value).toList)
    | some (none, more) => ({ s with requested := s.requested || more, handler := none }, [])
    | none => (s, [])

abbrev exec (es : List (Event M)) : St M := Run.exec step start es
abbrev outs (es : List (Event M)) : List (Out M) := Run.outs step start es

def Out.queued? : Out M → Option M
  | .queued m => some m
  | .written _ => none

def Out.written? : Out M → Option M
  | .queued _ => none
  | .written m => some m

/-- The messages queued and the messages written, each in order. -/
def queuedOf (tr : List (Out M)) : List M := tr.filterMap Out.queued?
def writtenOf (tr : List (Out M)) : List M := tr.filterMap Out.written?

/-- The message that was taken and is not written yet. -/
def St.taken (s : St M) : List M :=
  match s.handler with
  | some (some node, _) => ((s.heap node).map Node.value).toList
  | _ => []

/-! ### The invariant -/

structure Inv (s : St M) (tr : List (Out M)) (cells : List (ℕ × M)) : Prop where
  linked : Linked s.heap s.queue cells
  order : queuedOf tr = writtenOf tr ++ s.taken ++ cells.map Prod.snd
  made : ∀ t a, s.calls t = .made a → a ∉ cells.map Prod.fst ∧ ∃ m, s.heap a = some ⟨m, none⟩
  own : ∀ t t' a, s.calls t = .made a → s.calls t' = .made a → t = t'
  handler : ∀ n more, s.handler = some (n, more) → s.conn = .established ∧ s.calls service = .idle
  node : ∀ a more, s.handler = some (some a, more) →
    a ∉ cells.map Prod.fst ∧ (∃ m next, s.heap a = some ⟨m, next⟩) ∧ ∀ t, s.calls t ≠ .made a
  /-- unless a callback is about to ask, someone has asked or is about to -/
  wake : (∀ n, s.handler ≠ some (n, true)) → s.conn = .established → s.queue.head ≠ none →
    s.requested = true ∨ (∃ t, s.calls t = .linked) ∨ ∃ a, s.calls service = .made a

lemma inv_start : Inv (start : St M) [] [] where
  linked := linked_empty _
  order := rfl
  made := by intro t a h; cases h
  own := by intro t t' a h; cases h
  handler := by intro n more h; cases h
  node := by intro a more h; cases h
  wake := by intro _ h; cases h

variable {s : St M} {tr : List (Out M)} {cells : List (ℕ × M)}

/-- The message that was taken stays as long as its node does. -/
lemma taken_congr {s' : St M} (hhandler : s'.handler = s.handler)
    (hnode : ∀ a more, s.handler = some (some a, more) → s'.heap a = s.heap a) : s'.taken = s.taken := by
  unfold St.taken
  rw [hhandler]
  rcases hs : s.handler with _ | ⟨_ | a, more⟩
  · rfl
  · rfl
  · dsimp only
    rw [hnode a more hs]

lemma St.setCall_of_ne (s : St M) {t t' : ℕ} (ht : t' ≠ t) (c : Call) : (s.setCall t c).calls t' = s.calls t' :=
  Function.update_of_ne ht _ _

/-- Which calls have a node when one of them goes on. -/
lemma St.made_setCall {t t' a : ℕ} {c : Call} (hmade : (s.setCall t c).calls t' = .made a) :
    t' = t ∧ c = .made a ∨ t' ≠ t ∧ s.calls t' = .made a := by
  by_cases ht : t' = t
  · subst ht
    exact .inl ⟨rfl, (Function.update_self ..).symm.trans hmade⟩
  · exact .inr ⟨ht, (s.setCall_of_ne ht c).symm.trans hmade⟩

/-- The service thread is in no call of its own while a callback writes. -/
lemma Inv.service_ne (h : Inv s tr cells) {n : Option ℕ} {more : Bool} (hhandler : s.handler = some (n, more)) {t : ℕ}
    (hbusy : s.calls t ≠ .idle) : service ≠ t := by
  rintro rfl
  exact hbusy (h.handler n more hhandler).2

lemma St.make_calls (s : St M) (t : ℕ) (msg : M) (node : ℕ) : (s.make t msg node).calls t = .made node :=
  Function.update_self ..

lemma Inv.make (h : Inv s tr cells) {t node : ℕ} {msg : M} (hidle : s.calls t = .idle)
    (hnone : s.heap node = none) (hservice : t = service → s.handler = none) :
    Inv (s.make t msg node) tr cells := by
  have hnew : ∀ a, s.heap a ≠ none → Function.update s.heap node (some ⟨msg, none⟩) a = s.heap a := by
    intro a ha
    refine Function.update_of_ne ?_ _ _
    rintro rfl
    exact ha hnone
  have hmade : ∀ t' a, (s.make t msg node).calls t' = .made a → t' = t ∧ a = node ∨ t' ≠ t ∧ s.calls t' = .made a := by
    intro t' a ha
    rcases St.made_setCall ha with ⟨ht, hnode⟩ | hold
    · exact .inl ⟨ht, (Call.made.inj hnode).symm⟩
    · exact .inr hold
  -- no other call has the new node
  have hother : ∀ t', s.calls t' ≠ .made node := by
    intro t' ha
    obtain ⟨-, m, hm⟩ := h.made t' node ha
    rw [hnone] at hm
    cases hm
  have hcells : node ∉ cells.map Prod.fst := fun hmem => h.linked.mem hmem hnone
  refine ⟨h.linked.frame fun b hb => hnew b (h.linked.mem hb), ?_, ?_, ?_, ?_, ?_, ?_⟩
  · rw [h.order, @taken_congr M s (s.make t msg node) rfl]
    intro a more hhandler
    obtain ⟨-, ⟨m, next, ha⟩, -⟩ := h.node a more hhandler
    exact hnew a (by simp [ha])
  · intro t' a ha
    rcases hmade t' a ha with ⟨-, rfl⟩ | ⟨-, hold⟩
    · exact ⟨hcells, msg, Function.update_self ..⟩
    · obtain ⟨hmem, m, hm⟩ := h.made t' a hold
      exact ⟨hmem, m, (hnew a (by simp [hm])).trans hm⟩
  · intro t₁ t₂ a h₁ h₂
    rcases hmade t₁ a h₁ with ⟨ht₁, rfl⟩ | ⟨-, hold₁⟩
    · rcases hmade t₂ a h₂ with ⟨ht₂, -⟩ | ⟨-, hold₂⟩
      · exact ht₁.trans ht₂.symm
      · exact absurd hold₂ (hother t₂)
    · rcases hmade t₂ a h₂ with ⟨-, rfl⟩ | ⟨-, hold₂⟩
      · exact absurd hold₁ (hother t₁)
      · exact h.own t₁ t₂ a hold₁ hold₂
  · intro n more hhandler
    obtain ⟨hconn, hfree⟩ := h.handler n more hhandler
    have hne : service ≠ t := by
      intro ht
      have hhandler' : s.handler = some (n, more) := hhandler
      rw [hservice ht.symm] at hhandler'
      cases hhandler'
    exact ⟨hconn, (s.setCall_of_ne hne _).trans hfree⟩
  · intro a more hhandler
    obtain ⟨hmem, ⟨m, next, ha⟩, hnot⟩ := h.node a more hhandler
    refine ⟨hmem, ⟨m, next, (hnew a (by simp [ha])).trans ha⟩, fun t' ht' => ?_⟩
    rcases hmade t' a ht' with ⟨-, rfl⟩ | ⟨-, hold⟩
    · rw [hnone] at ha
      cases ha
    · exact hnot t' hold
  · -- the call that has gone on was not about to ask
    have hkeep : ∀ t', s.calls t' ≠ .idle → (s.make t msg node).calls t' = s.calls t' := by
      intro t' hbusy
      refine s.setCall_of_ne ?_ _
      rintro rfl
      exact hbusy hidle
    intro hhandler hconn hhead
    rcases h.wake hhandler hconn hhead with hreq | ⟨t', ht'⟩ | ⟨a, ha⟩
    · exact .inl hreq
    · exact .inr (.inl ⟨t', (hkeep t' (by simp [ht'])).trans ht'⟩)
    · exact .inr (.inr ⟨a, (hkeep service (by simp [ha])).trans ha⟩)

/-- After a writable callback someone has asked for the next one, or is about to. -/
lemma Inv.wake_after (h : Inv s tr cells) {n : Option ℕ} {more : Bool} (hhandler : s.handler = some (n, more))
    (hhead : s.queue.head ≠ none) : (s.requested || more) = true ∨ ∃ t, s.calls t = .linked := by
  obtain ⟨hconn, hidle⟩ := h.handler n more hhandler
  cases more with
  | true => exact .inl (Bool.or_true _)
  | false =>
    have hnot : ∀ n', s.handler ≠ some (n', true) := by
      intro n' h'
      rw [hhandler] at h'
      cases h'
    rcases h.wake hnot hconn hhead with hreq | hlinked | ⟨a, ha⟩
    · exact .inl (by rw [hreq]; rfl)
    · exact .inr hlinked
    · rw [hidle] at ha
      cases ha

lemma queuedOf_append (tr os : List (Out M)) : queuedOf (tr ++ os) = queuedOf tr ++ queuedOf os :=
  List.filterMap_append

lemma writtenOf_append (tr os : List (Out M)) : writtenOf (tr ++ os) = writtenOf tr ++ writtenOf os :=
  List.filterMap_append

lemma Inv.link (h : Inv s tr cells) {t node : ℕ} (hmade : s.calls t = .made node) :
    ∃ m, (s.heap node).map (fun n => Out.queued n.value) = some (.queued m) ∧
      Inv { s.setCall t .linked with
        heap := (LinkedQueue.link s.heap s.queue node).1
        queue := (LinkedQueue.link s.heap s.queue node).2 } (tr ++ [.queued m]) (cells ++ [(node, m)]) := by
  obtain ⟨hmem, m, hm⟩ := h.made t node hmade
  have hcalls : ∀ t' a, (s.setCall t .linked).calls t' = .made a → t' ≠ t ∧ s.calls t' = .made a :=
    fun t' a ha => (St.made_setCall ha).resolve_left (by simp)
  -- only the node that was the last one is changed
  have hkeep : ∀ a, a ∉ cells.map Prod.fst → (LinkedQueue.link s.heap s.queue node).1 a = s.heap a :=
    fun a ha => link_heap_of_notMem h.linked ha
  have hsnoc : ∀ a, a ≠ node → a ∉ cells.map Prod.fst → a ∉ (cells ++ [(node, m)]).map Prod.fst := by
    intro a hne ha
    simpa [hne] using ha
  refine ⟨m, by rw [hm]; rfl, h.linked.link hm hmem, ?_, ?_, ?_, ?_, ?_, ?_⟩
  · have htaken := @taken_congr M s { s.setCall t .linked with
        heap := (LinkedQueue.link s.heap s.queue node).1
        queue := (LinkedQueue.link s.heap s.queue node).2 } rfl fun a more ha => hkeep a (h.node a more ha).1
    rw [queuedOf_append, writtenOf_append, htaken, h.order, List.map_append]
    simp [queuedOf, writtenOf, Out.queued?, Out.written?]
  · intro t' a ha
    obtain ⟨ht, hold⟩ := hcalls t' a ha
    obtain ⟨hmem', m', hm'⟩ := h.made t' a hold
    refine ⟨hsnoc a ?_ hmem', m', (hkeep a hmem').trans hm'⟩
    rintro rfl
    exact ht (h.own t' t a hold hmade)
  · intro t₁ t₂ a h₁ h₂
    exact h.own t₁ t₂ a (hcalls t₁ a h₁).2 (hcalls t₂ a h₂).2
  · intro n more hhandler
    obtain ⟨hconn, hfree⟩ := h.handler n more hhandler
    have hne := @Inv.service_ne M s tr cells h n more hhandler t (by simp [hmade])
    exact ⟨hconn, (s.setCall_of_ne hne _).trans hfree⟩
  · intro a more hhandler
    obtain ⟨hmem', ⟨m', next, ha⟩, hnot⟩ := h.node a more hhandler
    refine ⟨hsnoc a ?_ hmem', ⟨m', next, (hkeep a hmem').trans ha⟩, ?_⟩
    · rintro rfl
      exact hnot t hmade
    · intro t' ha'
      exact hnot t' (hcalls t' a ha').2
  · intro _ _ _
    exact .inr (.inl ⟨t, Function.update_self ..⟩)

lemma Inv.request (h : Inv s tr cells) {t : ℕ} (hlinked : s.calls t = .linked) :
    Inv { s.setCall t .idle with requested := s.requested || decide (s.conn ≠ .closed) } tr cells := by
  have hcalls : ∀ t' a, (s.setCall t .idle).calls t' = .made a → s.calls t' = .made a :=
    fun t' a ha => ((St.made_setCall ha).resolve_left (by simp)).2
  refine ⟨h.linked, h.order, fun t' a ha => h.made t' a (hcalls t' a ha), ?_, ?_, ?_, ?_⟩
  · exact fun t₁ t₂ a h₁ h₂ => h.own t₁ t₂ a (hcalls t₁ a h₁) (hcalls t₂ a h₂)
  · intro n more hhandler
    obtain ⟨hconn, hfree⟩ := h.handler n more hhandler
    have hne := @Inv.service_ne M s tr cells h n more hhandler t (by simp [hlinked])
    exact ⟨hconn, (s.setCall_of_ne hne _).trans hfree⟩
  · intro a more hhandler
    obtain ⟨hmem, ha, hnot⟩ := h.node a more hhandler
    exact ⟨hmem, ha, fun t' ha' => hnot t' (hcalls t' a ha')⟩
  · intro _ hconn _
    have hconn' : s.conn = .established := hconn
    exact .inl (by simp [hconn'])

/-- The connection comes or goes; nobody reads it before it is established. -/
lemma Inv.setConn (h : Inv s tr cells) (hfree : s.Free) {conn : Conn} (hconn : conn ≠ .established)
    (requested : Bool) : Inv { s with conn := conn, requested := requested } tr cells := by
  have hnone : s.handler = none := hfree.1
  refine ⟨h.linked, h.order, h.made, h.own, ?_, h.node, fun _ hest _ => absurd hest hconn⟩
  intro n more hhandler
  have hhandler' : s.handler = some (n, more) := hhandler
  rw [hnone] at hhandler'
  cases hhandler'

lemma Inv.established (h : Inv s tr cells) {a : ℕ} (hmade : s.calls service = .made a) (hnone : s.handler = none) :
    Inv { s with conn := .established } tr cells := by
  refine ⟨h.linked, h.order, h.made, h.own, ?_, h.node, fun _ _ _ => .inr (.inr ⟨a, hmade⟩)⟩
  intro n more hhandler
  have hhandler' : s.handler = some (n, more) := hhandler
  rw [hnone] at hhandler'
  cases hhandler'

lemma Inv.writeable (h : Inv s tr cells) (hfree : s.Free) (hconn : s.conn = .established) :
    Inv { s with
      queue := unlink s.heap s.queue
      requested := false
      handler := some (s.queue.head, (unlink s.heap s.queue).head.isSome) } tr cells.tail := by
  have htaken : s.taken = [] := by rw [St.taken, hfree.1]
  have horder := h.order
  rw [htaken, List.append_nil] at horder
  have hwake : ∀ q : Queue ℕ, (∀ n, some (s.queue.head, q.head.isSome) ≠ some (n, true)) → q.head = none := by
    intro q hq
    by_contra hhead
    exact hq s.queue.head (by rw [Option.isSome_iff_ne_none.mpr hhead])
  cases cells with
  | nil =>
    have hhead := h.linked.eq_nil_iff.mp rfl
    have hunlink : unlink s.heap s.queue = s.queue := by
      unfold unlink
      rw [hhead]
    rw [hunlink]
    refine ⟨h.linked, ?_, h.made, h.own, fun _ _ _ => ⟨hconn, hfree.2⟩, ?_, ?_⟩
    · rw [horder, St.taken, hhead]
      simp
    · intro a more hhandler
      rw [hhead] at hhandler
      cases hhandler
    · intro hq _ hne
      exact absurd (hwake _ hq) hne
  | cons c cells =>
    obtain ⟨a, m⟩ := c
    obtain ⟨hhead, ⟨next, ha⟩, hmem, hlinked⟩ := h.linked.unlink
    refine ⟨hlinked, ?_, ?_, h.own, fun _ _ _ => ⟨hconn, hfree.2⟩, ?_, ?_⟩
    · rw [horder, St.taken, hhead]
      dsimp only
      rw [ha]
      simp
    · intro t a' ha'
      obtain ⟨hmem', hnode⟩ := h.made t a' ha'
      exact ⟨fun hin => hmem' (List.mem_cons_of_mem _ hin), hnode⟩
    · intro a' more hhandler
      obtain ⟨hsome, -⟩ := Prod.mk.inj (Option.some.inj hhandler)
      rw [hhead] at hsome
      obtain rfl := Option.some.inj hsome
      refine ⟨hmem, ⟨m, next, ha⟩, fun t hmade => ?_⟩
      exact (h.made t a hmade).1 (by simp)
    · intro hq _ hne
      exact absurd (hwake _ hq) hne

/-- The rest of the writable callback, when there was a node. -/
lemma Inv.write (h : Inv s tr cells) {node : ℕ} {more : Bool} (hhandler : s.handler = some (some node, more)) :
    ∃ m, (s.heap node).map (fun n => Out.written n.value) = some (.written m) ∧
      Inv { s with
        heap := Function.update s.heap node none
        requested := s.requested || more
        handler := none } (tr ++ [.written m]) cells := by
  obtain ⟨hmem, ⟨m, next, hnode⟩, hnot⟩ := h.node node more hhandler
  have hkeep : ∀ a, a ≠ node → Function.update s.heap node none a = s.heap a :=
    fun a ha => Function.update_of_ne ha _ _
  refine ⟨m, by rw [hnode]; rfl, h.linked.frame fun b hb => hkeep b ?_, ?_, ?_, h.own, ?_, ?_, ?_⟩
  · rintro rfl
    exact hmem hb
  · rw [queuedOf_append, writtenOf_append, h.order, St.taken, St.taken, hhandler]
    dsimp only
    rw [hnode]
    simp [queuedOf, writtenOf, Out.queued?, Out.written?]
  · intro t a ha
    obtain ⟨hmem', m', hm'⟩ := h.made t a ha
    refine ⟨hmem', m', (hkeep a ?_).trans hm'⟩
    rintro rfl
    exact hnot t ha
  · intro n more' hnone
    cases hnone
  · intro a more' hnone
    cases hnone
  · intro _ _ hhead
    rcases h.wake_after hhandler hhead with hreq | hlinked
    · exact .inl hreq
    · exact .inr (.inl hlinked)

/-- The rest of the writable callback, when the queue was empty. -/
lemma Inv.write_none (h : Inv s tr cells) {more : Bool} (hhandler : s.handler = some (none, more)) :
    Inv { s with requested := s.requested || more, handler := none } tr cells := by
  refine ⟨h.linked, ?_, h.made, h.own, ?_, ?_, ?_⟩
  · rw [h.order, St.taken, St.taken, hhandler]
  · intro n more' hnone
    cases hnone
  · intro a more' hnone
    cases hnone
  · intro _ _ hhead
    rcases h.wake_after hhandler hhead with hreq | hlinked
    · exact .inl hreq
    · exact .inr (.inl hlinked)

lemma Inv.step (h : ∃ cells, Inv s tr cells) (e : Event M) :
    ∃ cells, Inv (step s e).1 (tr ++ (step s e).2) cells := by
  obtain ⟨cells, h⟩ := h
  have hstay : ∃ cells, Inv s (tr ++ []) cells := ⟨cells, by rwa [List.append_nil]⟩
  cases e with
  | enter t msg node =>
    simp only [SendQueue.step]
    split_ifs with hif
    · rw [List.append_nil]
      exact ⟨cells, h.make hif.1 (Option.isNone_iff_eq_none.mp hif.2.1) hif.2.2⟩
    · exact hstay
  | link t =>
    simp only [SendQueue.step]
    cases hcall : s.calls t with
    | idle => exact hstay
    | linked => exact hstay
    | made node =>
      obtain ⟨m, hm, hlink⟩ := h.link hcall
      simp only [hm, Option.toList_some]
      exact ⟨_, hlink⟩
  | request t =>
    simp only [SendQueue.step]
    split_ifs with hif
    · rw [List.append_nil]
      exact ⟨cells, h.request hif⟩
    · exact hstay
  | connect =>
    simp only [SendQueue.step]
    split_ifs with hif
    · rw [List.append_nil]
      exact ⟨cells, h.setConn hif.1 (by decide) _⟩
    · exact hstay
  | established hello node =>
    simp only [SendQueue.step]
    split_ifs with hif
    · obtain ⟨hfree, -, hnone⟩ := hif
      rw [List.append_nil]
      have hmake := @Inv.make M s tr cells h service node hello hfree.2 (Option.isNone_iff_eq_none.mp hnone)
        fun _ => hfree.1
      exact ⟨cells, hmake.established (s.make_calls service hello node) hfree.1⟩
    · exact hstay
  | dropped =>
    simp only [SendQueue.step]
    split_ifs with hif
    · rw [List.append_nil]
      exact ⟨cells, h.setConn hif.1 (by decide) _⟩
    · exact hstay
  | writeable =>
    simp only [SendQueue.step]
    split_ifs with hif
    · rw [List.append_nil]
      exact ⟨cells.tail, h.writeable hif.1 hif.2⟩
    · exact hstay
  | write =>
    simp only [SendQueue.step]
    rcases hhandler : s.handler with _ | ⟨_ | node, more⟩
    · exact hstay
    · rw [List.append_nil]
      exact ⟨cells, h.write_none hhandler⟩
    · obtain ⟨m, hm, hwrite⟩ := h.write hhandler
      simp only [hm, Option.toList_some]
      exact ⟨cells, hwrite⟩

lemma inv_exec (es : List (Event M)) : ∃ cells, Inv (exec es) (outs es) cells := by
  have hinv := @Run.exec_outs_inv _ _ _ step (fun s tr => ∃ cells, Inv s tr cells) (fun _ : Event M => True)
    (fun s tr e _ h => Inv.step h e) start [] ⟨[], inv_start⟩ es fun _ _ => trivial
  rwa [List.nil_append] at hinv

/-! ### The queue -/

/-- `g_send_head` is null exactly when `g_send_tail` is, and otherwise the tail is the last node that the
head leads to. -/
def WellLinked (s : St M) : Prop :=
  (s.queue.head = none ↔ s.queue.tail = none) ∧
    ∃ cells, Path s.heap s.queue.head cells ∧ s.queue.tail = (cells.map Prod.fst).getLast?

/-- **The queue is a lossless FIFO**: in every run, what was written is the beginning of what was queued,
and if the queue is not empty after a writable callback, the next one has been asked for or a call of
`queue_send` that has put its message is about to ask. -/
theorem lossless (es : List (Event M)) :
    WellLinked (exec es) ∧ writtenOf (outs es) <+: queuedOf (outs es) ∧
      (∃ left, Path (exec es).heap (exec es).queue.head left ∧
        queuedOf (outs es) = writtenOf (outs es) ++ (exec es).taken ++ left.map Prod.snd) ∧
      ((exec es).handler ≠ none → (exec (es ++ [.write])).queue.head ≠ none →
        (exec (es ++ [.write])).requested = true ∨ ∃ t, (exec (es ++ [.write])).calls t = .linked) := by
  obtain ⟨cells, h⟩ := inv_exec es
  refine ⟨⟨h.linked.head_eq_none_iff, cells, h.linked.path, h.linked.last⟩, ?_, ⟨cells, h.linked.path, h.order⟩, ?_⟩
  · rw [h.order, List.append_assoc]
    exact List.prefix_append _ _
  · have hwrite : exec (es ++ [.write]) = (step (exec es) .write).1 := Run.exec_append ..
    rw [hwrite]
    rcases hhandler : (exec es).handler with _ | ⟨_ | node, more⟩
    · exact fun hno => absurd rfl hno
    · intro _ hhead
      simp only [step, hhandler] at hhead ⊢
      exact h.wake_after hhandler hhead
    · intro _ hhead
      simp only [step, hhandler] at hhead ⊢
      exact h.wake_after hhandler hhead

/-- A thread puts a message between the critical section of a writable callback, which found the queue
with one message, and its end. -/
def lateCall : List (Event ℕ) :=
  [.connect, .established 1 10, .link 0, .request 0, .writeable, .enter 1 2 11, .link 1]

/-- Then nobody has asked for the next callback yet. -/
theorem lateCall_not_requested :
    ¬ ∀ es : List (Event ℕ), (exec es).handler ≠ none → (exec (es ++ [.write])).queue.head ≠ none →
      (exec (es ++ [.write])).requested = true := by
  intro h
  have hlate := h lateCall (by decide) (by decide)
  revert hlate
  decide

end SyncClipboard.SendQueue
