import SyncClipboard.Announced
import SyncClipboard.Ledger
import SyncClipboard.Pool

/-!
The listening sockets of the Linux and Windows clients, as the descriptors that they are.

`ft_start_server` opens a descriptor into `g_xfer`, a receiver thread takes it over, and whoever has
it closes it. `FT_INVALID_SOCK` marks a field without one, but the `g_xfer` of a program that has
just started is all zeros, which is descriptor 0: whoever finds that value closes the standard input
(`listen_fds_iff`).
-/

namespace SyncClipboard.ListenFds

open FtAuth ServerModel Client

/-- The client, and its account of the listening sockets. -/
structure World where
  node : Announced.Node
  log : List (Ledger.Move ℤ)

def World.start : World := ⟨.start, []⟩

/-- What is passed to `ft_close`. -/
def shut (ds : List Did) : List ℤ :=
  ds.filterMap fun
    | .close fd => some fd
    | _ => none

/-- The descriptors in use, the standard input among them as long as nobody has closed it. -/
def inUse (log : List (Ledger.Move ℤ)) : Finset ℤ :=
  (Ledger.replay log).getD ∅ ∪ if .closed 0 ∈ log then ∅ else {0}

/-- What `socket` returns for a descriptor that the kernel considers. -/
def given (log : List (Ledger.Move ℤ)) (fd : ℤ) : ℤ := if fd ∈ inUse log then invalidSock else fd

def listening (f : ℤ → ℤ) : Resources.Event → Resources.Event
  | .message l m => .message { l with fd := f l.fd } m
  | .offer l uuid => .offer { l with fd := f l.fd } uuid
  | e => e

/-- The field without a descriptor left out. -/
def valid (fds : List ℤ) : List ℤ := fds.filter (· ≠ invalidSock)

variable (lib : Lib) (opt : Options)

/-- A reset closes the descriptor it finds before it opens another. -/
def step (w : World) (e : Resources.Event) : World × List Empty :=
  let log := w.log ++ (shut (Announced.step lib opt w.node e).2).map .closed
  let node := (Announced.step lib opt w.node (listening (given log) e)).1
  let opened :=
    if Resources.resetsAt opt w.node.client w.node.pending e then valid [node.client.xfer.listenFd]
    else []
  (⟨node, log ++ opened.map .opened⟩, [])

/-- The `listen_fd` of the receiver threads. -/
def receivers (threads : List Thread) : List ℤ :=
  ((threads.map (·.st)).filter (·.isSender = false)).map (·.listenFd)

/-- The descriptors that `g_xfer` and the receiver threads have. -/
def held (c : State) : List ℤ := valid (c.xfer.listenFd :: receivers c.threads)

/-- Every descriptor closed so far had been opened by `ft_start_server` and not been closed since, and
those that are open have one owner each. -/
def Accounted (w : World) : Prop :=
  ∃ s, Ledger.replay w.log = some s ∧ ∀ fd ∈ s, (held w.node.client).count fd = 1

/-- The step does not close the descriptor 0 of the initial `g_xfer`. -/
def Spares (w : World) : Resources.Event → Prop
  | .threadEnd i _ => ∀ t, w.node.client.threads[i]? = some t → t.started = true →
      t.st.isSender = false → t.st.listenFd ≠ 0
  | e => Resources.resetsAt opt w.node.client w.node.pending e = true →
      w.node.client.xfer.listenFd ≠ 0

/-! ### What a step closes and opens -/

section Shut

@[simp] lemma shut_nil : shut [] = [] := rfl

@[simp] lemma shut_append (ds ds' : List Did) : shut (ds ++ ds') = shut ds ++ shut ds' :=
  List.filterMap_append

@[simp] lemma shut_send (m : WsMessage) (ds : List Did) : shut (.send m :: ds) = shut ds := rfl

@[simp] lemma shut_closeListen (x : Xfer) : shut (closeListen x) = valid [x.listenFd] := by
  unfold closeListen
  split_ifs with h
  · simp [shut, valid, h]
  · simp [valid, not_not.mp h]

@[simp] lemma shut_place (mimeType fileName : String) (data : Bytes) :
    shut (place mimeType fileName data) = [] := by
  unfold place
  split_ifs <;> rfl

lemma shut_natPunch (st : Xfer) : shut (natPunch st) = [] := by
  unfold natPunch
  split_ifs <;> rfl

lemma shut_receiverEnd (out : Outcome) (st : Xfer) :
    shut (receiverEnd out st) = valid [st.listenFd] := by
  unfold receiverEnd
  cases out.received with
  | some data => simp
  | none =>
    dsimp only
    split_ifs <;> simp

variable {lib opt}

lemma shut_onMessage {l : Listening} {m : WsMessage} {c : State} (hn : ∀ n, m ≠ .fileNotify n) :
    shut (onMessage lib opt l m c).2 = [] := by
  cases m with
  | fileNotify n => exact absurd rfl (hn n)
  | filePeerInfo p =>
    simp only [onMessage, onFilePeerInfo]
    split_ifs <;> rfl
  | fileRelayRequest r =>
    simp only [onMessage, onFileRelayRequest]
    repeat' split
    all_goals rfl
  | fileRelayData d =>
    simp only [onMessage, onFileRelayData]
    split
    · rfl
    · simp
  | _ => rfl

variable (lib opt) in
/-- A reset by the clipboard monitor closes what it finds and keeps what `ft_start_server` returns,
if it gets that far. -/
lemma reset_listenFd (l : Listening) (uuid : String) (p : Resources.Pending) (c : State) :
    shut (Resources.reset lib opt l uuid p c).2 = valid [c.xfer.listenFd] ∧
      ((Resources.reset lib opt l uuid p c).1.xfer.listenFd = l.fd ∨
        (Resources.reset lib opt l uuid p c).1.xfer.listenFd = invalidSock) := by
  simp only [Resources.reset]
  repeat' split
  all_goals simp [offer]

end Shut

section Moves

lemma valid_append (fds fds' : List ℤ) : valid (fds ++ fds') = valid fds ++ valid fds' :=
  List.filter_append ..

lemma zero_notMem_valid {fd : ℤ} : 0 ∉ valid [fd] ↔ fd ≠ 0 := by
  by_cases h : fd = 0
  · simp [h, valid, invalidSock]
  · simp [valid, h, Ne.symm h]

lemma held_eq (c : State) : held c = valid [c.xfer.listenFd] ++ valid (receivers c.threads) :=
  valid_append [_] _

lemma receivers_perm {ts ts' : List Thread} (h : ts.Perm ts') :
    (receivers ts).Perm (receivers ts') :=
  ((h.map _).filter _).map _

lemma receivers_cons (t : Thread) (ts : List Thread) : receivers (t :: ts) =
    (if t.st.isSender = false then [t.st.listenFd] else []) ++ receivers ts := by
  simp only [receivers, List.map_cons, List.filter_cons]
  cases t.st.isSender <;> simp

lemma receivers_threadStart (i : ℕ) (c : State) :
    (receivers (threadStart i c).1.threads).Perm (receivers c.threads) := by
  unfold threadStart
  cases ht : c.threads[i]? with
  | none => exact .refl _
  | some t =>
    dsimp only
    split_ifs
    · exact .refl _
    · have hset := receivers_perm (Pool.set_perm ht { t with started := true })
      have hget := receivers_perm (Pool.perm_of_getElem? ht)
      rw [receivers_cons] at hset hget
      exact hset.trans hget.symm

variable {lib opt} {w : World} {e : Resources.Event}

variable (opt) in
/-- The step closes `cs`, opens `os` and leaves the rest of the descriptors to their owners. -/
structure Moves (w : World) (e : Resources.Event) (w' : World) (cs os rest : List ℤ) : Prop where
  log : w'.log = w.log ++ cs.map .closed ++ os.map .opened
  before : (held w.node.client).Perm (cs ++ rest)
  after : (held w'.node.client).Perm (os ++ rest)
  fresh : ∀ fd ∈ os, fd ∉ inUse (w.log ++ cs.map .closed)
  nodup : os.Nodup
  spares : Spares opt w e ↔ 0 ∉ cs

lemma Moves.keep (hno : Resources.resetsAt opt w.node.client w.node.pending e = false)
    (hshut : shut (Announced.step lib opt w.node e).2 = []) (hspares : Spares opt w e)
    (hheld : ∀ f, (held (Announced.step lib opt w.node (listening f e)).1.client).Perm
      (held w.node.client)) :
    Moves opt w e (step lib opt w e).1 [] [] (held w.node.client) where
  log := by simp [step, hno, hshut]
  before := .refl _
  after := hheld _
  fresh := by simp
  nodup := .nil
  spares := by simpa using hspares

lemma not_inUse_of_given {log : List (Ledger.Move ℤ)} {fd fd' : ℤ}
    (h : fd = given log fd' ∨ fd = invalidSock) : ∀ x ∈ valid [fd], x ∉ inUse log := by
  intro x hx
  obtain ⟨hx, hvalid⟩ := List.mem_filter.mp hx
  obtain rfl := List.mem_singleton.mp hx
  have hvalid : x ≠ invalidSock := by simpa using hvalid
  rcases h with h | h
  · unfold given at h
    split_ifs at h with hin
    · exact absurd h hvalid
    · rwa [h]
  · exact absurd h hvalid

lemma Moves.renew (hre : Resources.resetsAt opt w.node.client w.node.pending e = true)
    (hshut : shut (Announced.step lib opt w.node e).2 = valid [w.node.client.xfer.listenFd])
    (hthreads : ∀ f, (Announced.step lib opt w.node (listening f e)).1.client.threads =
      w.node.client.threads)
    (hfd : ∀ f : ℤ → ℤ, ∃ fd, (Announced.step lib opt w.node (listening f e)).1.client.xfer.listenFd =
        f fd ∨
      (Announced.step lib opt w.node (listening f e)).1.client.xfer.listenFd = invalidSock) :
    Moves opt w e (step lib opt w e).1 (valid [w.node.client.xfer.listenFd])
      (valid [(step lib opt w e).1.node.client.xfer.listenFd])
      (valid (receivers w.node.client.threads)) where
  log := by simp [step, hre, hshut]
  before := by rw [held_eq]
  after := by
    rw [held_eq]
    have hsame : (step lib opt w e).1.node.client.threads = w.node.client.threads := hthreads _
    rw [hsame]
  fresh := by
    obtain ⟨fd, hfd⟩ := hfd (given (w.log ++ (valid [w.node.client.xfer.listenFd]).map .closed))
    refine @not_inUse_of_given _ _ fd ?_
    simpa only [step, hshut] using hfd
  nodup := (List.nodup_singleton _).filter _
  spares := by
    have hspares : Spares opt w e ↔ w.node.client.xfer.listenFd ≠ 0 := by
      cases e with
      | threadEnd i out => cases hre
      | _ => simp [Spares, hre]
    rw [hspares, zero_notMem_valid]

/-- A thread that ends gives up the descriptor of a receiver. -/
lemma held_perm_eraseIdx {c c' : State} {i : ℕ} {t : Thread} (ht : c.threads[i]? = some t)
    (hxfer : c'.xfer = c.xfer) (hthreads : c'.threads = c.threads.eraseIdx i) :
    (held c).Perm (valid (if t.st.isSender = false then [t.st.listenFd] else []) ++ held c') := by
  have hget := receivers_perm (Pool.perm_of_getElem? ht)
  rw [receivers_cons, ← hthreads] at hget
  have hvalid := hget.filter (· ≠ invalidSock)
  rw [held_eq, held_eq, hxfer]
  refine (List.Perm.append_left _ hvalid).trans ?_
  rw [List.filter_append]
  exact List.perm_append_comm_assoc ..

variable (lib opt) in
lemma threadEnd_moves (w : World) (i : ℕ) (out : Outcome) : ∃ cs rest,
    Moves opt w (.threadEnd i out) (step lib opt w (.threadEnd i out)).1 cs [] rest := by
  have hxfer := Resources.threadEnd_xfer lib opt i out w.node.client
  by_cases hruns : ∃ t, w.node.client.threads[i]? = some t ∧ ¬ t.started = false
  · obtain ⟨t, ht, hstarted⟩ := hruns
    have hthreads := Resources.threadEnd_threads lib opt ht hstarted out
    have hheld := held_perm_eraseIdx ht hxfer hthreads
    cases hs : t.st.isSender with
    | true =>
      rw [hs, if_neg (by simp)] at hheld
      refine ⟨[], _, .keep rfl ?_ (by simp [Spares, ht, hs]) fun f => hheld.symm⟩
      simp [Announced.step, threadEnd, ht, hstarted, hs]
    | false =>
      have hshut : shut (threadEnd lib opt i out w.node.client).2 = valid [t.st.listenFd] := by
        simp only [threadEnd, ht, if_neg hstarted, hs]
        exact shut_receiverEnd out t.st
      rw [hs, if_pos rfl] at hheld
      refine ⟨valid [t.st.listenFd], _, ?_, hheld, .refl _, by simp, .nil, ?_⟩
      · simp [step, Announced.step, Resources.resetsAt, hshut]
      · have hspares : Spares opt w (.threadEnd i out) ↔ t.st.listenFd ≠ 0 := by
          simp [Spares, ht, hs, hstarted]
        rw [hspares, zero_notMem_valid]
  · have hsame : threadEnd lib opt i out w.node.client = (w.node.client, []) := by
      unfold threadEnd
      cases ht : w.node.client.threads[i]? with
      | none => rfl
      | some t =>
        have hs : t.started = false := not_not.mp fun hs => hruns ⟨t, ht, hs⟩
        simp [hs]
    refine ⟨[], _, .keep rfl ?_ (fun t ht hs => absurd ⟨t, ht, by simp [hs]⟩ hruns) fun f => ?_⟩
    · simp [Announced.step, hsame]
    · simp [Announced.step, listening, hsame]

/-- A receiver thread gets the descriptor of `g_xfer`, a sender shares it. -/
lemma held_onFilePeerInfo (p : FilePeerInfo) (c : State) :
    (held (onFilePeerInfo opt p c).1).Perm (held c) := by
  unfold onFilePeerInfo
  split_ifs with hid hdup
  · exact .refl _
  · exact .refl _
  · have hspawn := receivers_perm
      (@List.perm_append_comm _ c.threads [⟨withPeer opt p c.xfer, false⟩])
    rw [List.singleton_append, receivers_cons] at hspawn
    have hvalid := hspawn.filter (· ≠ invalidSock)
    rw [held_eq, held_eq]
    cases hs : c.xfer.isSender with
    | true =>
      rw [if_neg (by simp [withPeer, hs])] at hvalid
      dsimp only
      rw [if_pos (show (withPeer opt p c.xfer).isSender = true from hs)]
      exact .append_left _ hvalid
    | false =>
      rw [if_pos (by simp [withPeer, hs]), List.filter_append] at hvalid
      dsimp only
      rw [if_neg (show ¬ (withPeer opt p c.xfer).isSender = true by simp [withPeer, hs])]
      exact hvalid

lemma message_moves (w : World) (l : Listening) (m : WsMessage) : ∃ cs os rest,
    Moves opt w (.message l m) (step lib opt w (.message l m)).1 cs os rest := by
  cases m with
  | fileNotify n =>
    by_cases hlevel : effectiveFileLevel opt w.node.client ≤ 0
    · have hno : Resources.resetsAt opt w.node.client w.node.pending (.message l (.fileNotify n)) =
          false := by simpa [Resources.resetsAt] using hlevel
      refine ⟨[], [], _, .keep hno ?_ (by simp [Spares, hno]) fun f => ?_⟩
      · simp [Announced.step, onMessage, onFileNotify, hlevel]
      · simp [Announced.step, listening, onMessage, onFileNotify, hlevel]
    · have hre : Resources.resetsAt opt w.node.client w.node.pending (.message l (.fileNotify n)) =
          true := by simpa [Resources.resetsAt] using hlevel
      refine ⟨_, _, _, .renew hre ?_ (fun f => ?_) fun f => ⟨l.fd, .inl ?_⟩⟩
      · simp [Announced.step, onMessage, onFileNotify, hlevel]
      · simp [Announced.step, listening, onMessage, onFileNotify, hlevel]
      · simp [Announced.step, listening, onMessage, onFileNotify, hlevel]
  | filePeerInfo p =>
    exact ⟨[], [], _, .keep rfl (shut_onMessage (by simp)) (by simp [Spares, Resources.resetsAt])
      fun f => held_onFilePeerInfo p w.node.client⟩
  | _ =>
    refine ⟨[], [], _, .keep rfl (shut_onMessage (by simp)) (by simp [Spares, Resources.resetsAt])
      fun f => ?_⟩
    simp only [Announced.step, listening, held]
    rw [(Resources.onMessage_keeps (by simp) (by simp)).1,
      (Resources.onMessage_keeps (by simp) (by simp)).2]

variable (lib opt) in
lemma step_moves (w : World) (e : Resources.Event) : ∃ cs os rest,
    Moves opt w e (step lib opt w e).1 cs os rest := by
  cases e with
  | message l m => exact message_moves w l m
  | change h =>
    refine ⟨[], [], _, .keep rfl ?_ (by simp [Spares, Resources.resetsAt]) fun f => ?_⟩
    · simp only [Announced.step]
      split_ifs <;> rfl
    · simp only [Announced.step, listening]
      split_ifs
      · exact .refl _
      · obtain ⟨hxfer, hthreads⟩ := @Resources.check_keeps lib opt h w.node.client
        simp [held, hxfer, hthreads]
  | offer l uuid =>
    cases hp : w.node.pending with
    | none =>
      have hno : Resources.resetsAt opt w.node.client w.node.pending (.offer l uuid) = false := by
        simp [Resources.resetsAt, hp]
      refine ⟨[], [], _, .keep hno ?_ (by simp [Spares, hno]) fun f => ?_⟩
      · simp [Announced.step, hp]
      · simp [Announced.step, listening, hp]
    | some p =>
      have hre : Resources.resetsAt opt w.node.client w.node.pending (.offer l uuid) = true := by
        simp [Resources.resetsAt, hp]
      refine ⟨_, _, _, .renew hre ?_ (fun f => ?_) fun f => ⟨l.fd, ?_⟩⟩
      · simpa [Announced.step, hp] using (reset_listenFd lib opt l uuid p w.node.client).1
      · simpa [Announced.step, listening, hp] using Resources.reset_threads _ uuid p w.node.client
      · simpa [Announced.step, listening, hp] using
          (reset_listenFd lib opt { l with fd := f l.fd } uuid p w.node.client).2
  | threadStart i =>
    refine ⟨[], [], _, .keep rfl ?_ (by simp [Spares, Resources.resetsAt]) fun f => ?_⟩
    · simp only [Announced.step, threadStart]
      repeat' split
      all_goals simp [shut_natPunch]
    · simp only [Announced.step, listening]
      rw [held_eq, held_eq, Resources.threadStart_xfer]
      exact .append_left _ ((receivers_threadStart i w.node.client).filter _)
  | threadEnd i out =>
    obtain ⟨cs, rest, h⟩ := threadEnd_moves lib opt w i out
    exact ⟨cs, [], rest, h⟩

end Moves

/-! ### The account along a run -/

/-- The account is in order, and what is open in it is what the owners have, apart from the
descriptor 0 of the initial `g_xfer`. -/
structure Good (w : World) : Prop where
  log : Ledger.Holds w.log ((held w.node.client).filter (· ≠ 0))
  held : (held w.node.client).Nodup
  input : .closed 0 ∉ w.log

def Inv (w : World) : Prop := Ledger.replay w.log = none ∨ Good w

variable {lib opt} {w w' : World} {e : Resources.Event} {cs os rest : List ℤ}

lemma good_start : Good .start := ⟨⟨rfl, by decide⟩, by decide, by decide⟩

lemma Good.accounted (h : Good w) : Accounted w := by
  refine ⟨_, h.log.replay, fun fd hfd => ?_⟩
  rw [List.mem_toFinset, List.mem_filter] at hfd
  exact List.count_eq_one_of_mem h.held hfd.1

lemma Good.next (h : Good w) (hm : Moves opt w e w' cs os rest) (h0 : 0 ∉ cs) : Good w' := by
  have hnodup := hm.before.nodup_iff.mp h.held
  have hcs : cs.filter (· ≠ 0) = cs := by
    rw [List.filter_eq_self]
    intro fd hfd
    simp only [decide_eq_true_eq]
    rintro rfl
    exact h0 hfd
  -- what is closed was open
  have hclosed : Ledger.Holds (w.log ++ cs.map .closed) (rest.filter (· ≠ 0)) := by
    refine (h.log.perm ?_).closed_all
    have hperm := hm.before.filter (· ≠ 0)
    rwa [List.filter_append, hcs] at hperm
  have hinput : .closed 0 ∉ w.log ++ cs.map .closed := by
    simpa [h.input] using h0
  have hinUse : inUse (w.log ++ cs.map .closed) = (rest.filter (· ≠ 0)).toFinset ∪ {0} := by
    rw [inUse, hclosed.replay, if_neg hinput, Option.getD_some]
  -- what is opened was not
  have hfresh : ∀ fd ∈ os, fd ≠ 0 ∧ fd ∉ rest := by
    intro fd hfd
    have hnot := hm.fresh fd hfd
    rw [hinUse] at hnot
    simp only [Finset.mem_union, Finset.mem_singleton, List.mem_toFinset, List.mem_filter,
      decide_eq_true_eq, not_or, not_and, not_not] at hnot
    exact ⟨hnot.2, fun hrest => hnot.2 (hnot.1 hrest)⟩
  have hos : os.filter (· ≠ 0) = os := by
    rw [List.filter_eq_self]
    exact fun fd hfd => by simpa using (hfresh fd hfd).1
  have hall : (os ++ rest).Nodup :=
    List.nodup_append'.mpr ⟨hm.nodup, (List.nodup_append'.mp hnodup).2.1,
      fun fd hfd => (hfresh fd hfd).2⟩
  refine ⟨?_, hm.after.nodup_iff.mpr hall, ?_⟩
  · have hperm := hm.after.filter (· ≠ 0)
    rw [List.filter_append, hos] at hperm
    rw [hm.log]
    refine (hclosed.opened_all ?_).perm hperm.symm
    have hfilter := hall.filter (· ≠ 0)
    rwa [List.filter_append, hos] at hfilter
  · rw [hm.log, List.mem_append, not_or]
    exact ⟨hinput, by simp⟩

/-- Descriptor 0 has never been opened. -/
lemma Good.refused (h : Good w) (hm : Moves opt w e w' cs os rest) (h0 : 0 ∈ cs) :
    Ledger.replay w'.log = none := by
  rw [← Option.not_isSome_iff_eq_none, hm.log]
  intro hsome
  have hopen := Ledger.mem_of_replay_closed h.log.replay hsome h0
  simp at hopen

lemma Inv.good (h : Inv w) (ha : Accounted w) : Good w := by
  obtain ⟨s, hs, -⟩ := ha
  rcases h with hnone | hgood
  · rw [hnone] at hs
    cases hs
  · exact hgood

lemma step_inv (w : World) (e : Resources.Event) (h : Inv w) : Inv (step lib opt w e).1 := by
  obtain ⟨cs, os, rest, hm⟩ := step_moves lib opt w e
  rcases h with hnone | hgood
  · left
    rw [hm.log, List.append_assoc, Ledger.replay_append, hnone]
    rfl
  · by_cases h0 : 0 ∈ cs
    · exact .inl (hgood.refused hm h0)
    · exact .inr (hgood.next hm h0)

lemma step_accounted (w : World) (e : Resources.Event) (h : Inv w) (ha : Accounted w) :
    Accounted (step lib opt w e).1 ↔ Spares opt w e := by
  obtain ⟨cs, os, rest, hm⟩ := step_moves lib opt w e
  have hgood := h.good ha
  rw [hm.spares]
  constructor
  · rintro ⟨s, hs, -⟩ h0
    rw [hgood.refused hm h0] at hs
    cases hs
  · exact fun h0 => (hgood.next hm h0).accounted

/-- **The client closes only listening sockets it opened.** In every state of a run every descriptor
closed so far had been opened by `ft_start_server` and not been closed since, and every one that is
open is that of `g_xfer` or of one receiver thread, if and only if no step closes the descriptor 0
that `g_xfer` starts with. -/
theorem listen_fds_iff (lib : Lib) (opt : Options) (es : List Resources.Event) :
    (∀ pre post, es = pre ++ post → Accounted (Run.exec (step lib opt) World.start pre)) ↔
      Run.Steps (step lib opt) (Spares opt) World.start es :=
  Run.always_iff_steps step_inv step_accounted (.inr good_start) good_start.accounted es

/-- The first notification closes the standard input, with no thread around. -/
theorem listen_fds_notify :
    World.start.node.client.threads = [] ∧
      ¬ Accounted (Run.exec (step Resources.sampleLib ⟨.linux, 3, 10⟩) World.start
        [.message ⟨7, ["192.168.0.3:40003"]⟩ (.fileNotify ⟨"0b7d2f61-5a3c-4e88-9d10-7c6b5a493827",
          some "b.png", some "image/png", 1, none, "laptop", [], "", 1048576, 0, 3⟩)]) := by
  refine ⟨rfl, ?_⟩
  rintro ⟨s, hs, -⟩
  have hnone : Ledger.replay (Run.exec (step Resources.sampleLib ⟨.linux, 3, 10⟩) World.start
      [.message ⟨7, ["192.168.0.3:40003"]⟩ (.fileNotify ⟨"0b7d2f61-5a3c-4e88-9d10-7c6b5a493827",
        some "b.png", some "image/png", 1, none, "laptop", [], "", 1048576, 0, 3⟩)]).log = none := by
    decide +kernel
  rw [hnone] at hs
  cases hs

end SyncClipboard.ListenFds
