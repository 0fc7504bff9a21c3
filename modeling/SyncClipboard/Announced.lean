import SyncClipboard.Resources

/-!
What becomes of a file that has been announced to the Linux and Windows clients.

`file_peer_info` is to start one receiver for a file. The handler takes it for a duplicate when
`g_xfer` has left its first phase, but also when any transfer thread runs, be it one for another
file: the file is then dropped without a word (`announced_received_iff`).
-/

namespace SyncClipboard.Announced

open FtAuth ServerModel Client

/-! ### A client and its history -/

/-- The client, what its monitor is about to offer, the latest `file_notify` that it accepted, and
what it has offered under which id, latest first. -/
structure Node where
  client : State
  pending : Option Resources.Pending
  latest : Option FileNotify
  offered : List (String × Bytes)

def Node.start : Node := ⟨Client.start, none, none, []⟩

variable (lib : Lib) (opt : Options)

/-- What an offer offers; Windows offers nothing when it cannot convert the image. -/
def contentOf : Resources.Pending → Option Bytes
  | .image _ img =>
    match opt.platform with
    | .linux => some img
    | .windows => (lib.bmpToPng img).filter fun png => decide (png ≠ [])
  | .file _ data => some data

def accepted (w : Node) : WsMessage → Option FileNotify
  | .fileNotify n => if effectiveFileLevel opt w.client ≤ 0 then w.latest else some n
  | _ => w.latest

def step (w : Node) : Resources.Event → Node × List Did
  | .message l m =>
    let r := onMessage lib opt l m w.client
    ({ w with client := r.1, latest := accepted opt w m }, r.2)
  | .change held =>
    if w.pending.isSome then (w, [])
    else
      let r := Resources.check lib opt held w.client
      ({ w with client := r.1, pending := r.2 }, [])
  | .offer l uuid =>
    match w.pending with
    | none => (w, [])
    | some p =>
      let r := Resources.reset lib opt l uuid p w.client
      ({ w with
        client := r.1
        pending := none
        offered := ((contentOf lib opt p).map fun data => (uuid, data)).toList ++ w.offered }, r.2)
  | .threadStart i =>
    let r := threadStart i w.client
    ({ w with client := r.1 }, r.2)
  | .threadEnd i out =>
    let r := threadEnd lib opt i out w.client
    ({ w with client := r.1 }, r.2)

lemma step_client {w : Node} {v : Resources.World}
    (h : w.client = v.client ∧ w.pending = v.pending) (e : Resources.Event) :
    (step lib opt w e).1.client = (Resources.step lib opt v e).1.client ∧
      (step lib opt w e).1.pending = (Resources.step lib opt v e).1.pending := by
  obtain ⟨hclient, hpending⟩ := h
  cases e with
  | message l m =>
    have hv := Resources.onMessage_client lib opt v l m
    simp only [step, Resources.step, Resources.react, hv.1, hv.2, hclient, hpending, and_self]
  | change held =>
    simp only [step, Resources.step, Resources.react, hclient, hpending]
    split_ifs
    · exact ⟨hclient, hpending⟩
    · exact ⟨rfl, rfl⟩
  | offer l uuid =>
    simp only [step, Resources.step, Resources.react, hclient, hpending]
    cases hv : v.pending with
    | none => exact ⟨hclient, hpending⟩
    | some p => exact ⟨rfl, rfl⟩
  | threadStart i =>
    simp only [step, Resources.step, Resources.react, hclient, hpending, and_self]
  | threadEnd i out =>
    have hv := Resources.threadEnd_client lib opt v i out
    simp only [step, Resources.step, Resources.react, hv.1, hv.2, hclient, hpending, and_self]

/-- The client with its handles and the client with its history are the same client. -/
theorem exec_client (es : List Resources.Event) :
    (Run.exec (step lib opt) Node.start es).client =
        (Run.exec (Resources.step lib opt) Resources.World.start es).client ∧
      (Run.exec (step lib opt) Node.start es).pending =
        (Run.exec (Resources.step lib opt) Resources.World.start es).pending := by
  have hrun : ∀ (w : Node) (v : Resources.World), w.client = v.client ∧ w.pending = v.pending →
      (Run.exec (step lib opt) w es).client = (Run.exec (Resources.step lib opt) v es).client ∧
      (Run.exec (step lib opt) w es).pending = (Run.exec (Resources.step lib opt) v es).pending := by
    induction es with
    | nil => exact fun _ _ h => h
    | cons e es ih => exact fun w v h => ih _ _ (step_client lib opt h e)
  exact hrun .start .start ⟨rfl, rfl⟩

/-! ### The end of a receiver -/

/-- A success result, a failure result or a relay request for the file. -/
def Reports (fileId : String) (d : Did) : Prop :=
  (∃ method success connMs xferMs, d = .send (.fileTransferResult
    ⟨some fileId, some method, success, connMs, xferMs⟩)) ∨
  d = .send (.fileRelay ⟨none, some fileId, 0, none, none⟩)

lemma receiverEnd_reports (out : Outcome) (st : Xfer) :
    ∃ d ∈ receiverEnd out st, Reports st.fileId d := by
  unfold receiverEnd
  cases out.received with
  | some data =>
    refine ⟨.send (.fileTransferResult ⟨some st.fileId, some "p2p", true, out.connMs, out.xferMs⟩),
      ?_, .inl ⟨"p2p", true, out.connMs, out.xferMs, rfl⟩⟩
    simp
  | none =>
    dsimp only
    split_ifs
    · exact ⟨.send (.fileRelay ⟨none, some st.fileId, 0, none, none⟩), by simp, .inr rfl⟩
    · refine ⟨.send (.fileTransferResult ⟨some st.fileId, some "failed", false, out.connMs, 0⟩),
        ?_, .inl ⟨"failed", false, out.connMs, 0, rfl⟩⟩
      simp

/-- The thread with this copy of `g_xfer` has not ended. -/
def Runs (st : Xfer) (w : Node) : Prop := ∃ started, ⟨st, started⟩ ∈ w.client.threads

variable {lib opt}

lemma onMessage_threads {t : Thread} {c : State} (h : t ∈ c.threads) (l : Listening)
    (m : WsMessage) : t ∈ (onMessage lib opt l m c).1.threads := by
  cases m with
  | fileNotify n =>
    simp only [onMessage, onFileNotify]
    split_ifs <;> exact h
  | filePeerInfo p =>
    simp only [onMessage, onFilePeerInfo]
    split_ifs
    · exact h
    · exact h
    · exact List.mem_append_left _ h
    · exact List.mem_append_left _ h
  | _ => rwa [(Resources.onMessage_keeps (by simp) (by simp)).2]

lemma threadStart_runs {st : Xfer} {w : Node} (h : Runs st w) (i : ℕ) :
    Runs st { w with client := (threadStart i w.client).1 } := by
  obtain ⟨started, ht⟩ := h
  show ∃ b, ⟨st, b⟩ ∈ (threadStart i w.client).1.threads
  unfold threadStart
  cases hi : w.client.threads[i]? with
  | none => exact ⟨started, ht⟩
  | some t =>
    dsimp only
    by_cases hs : t.started = true
    · rw [if_pos hs]
      exact ⟨started, ht⟩
    · rw [if_neg hs]
      obtain ⟨j, hj, hget⟩ := List.getElem_of_mem ht
      have hlt : i < w.client.threads.length := (List.getElem?_eq_some_iff.mp hi).1
      by_cases hij : i = j
      · subst hij
        have heq : t = ⟨st, started⟩ := by
          rw [List.getElem?_eq_getElem hj, hget] at hi
          exact (Option.some.inj hi).symm
        refine ⟨true, List.mem_of_getElem (i := i) (h := by simpa using hlt) ?_⟩
        simp [heq]
      · refine ⟨started, List.mem_of_getElem (i := j) (h := by simpa using hj) ?_⟩
        rw [List.getElem_set_ne hij]
        exact hget

lemma threadEnd_runs {st : Xfer} (hst : st.isSender = false) {w : Node} (h : Runs st w) (i : ℕ)
    (out : Outcome) : Runs st { w with client := (threadEnd lib opt i out w.client).1 } ∨
      ∃ d ∈ (threadEnd lib opt i out w.client).2, Reports st.fileId d := by
  obtain ⟨started, ht⟩ := h
  simp only [Runs]
  cases hi : w.client.threads[i]? with
  | none =>
    have hsame : (threadEnd lib opt i out w.client).1 = w.client := by simp [threadEnd, hi]
    rw [hsame]
    exact .inl ⟨started, ht⟩
  | some t =>
    by_cases hs : t.started = false
    · have hsame : (threadEnd lib opt i out w.client).1 = w.client := by simp [threadEnd, hi, hs]
      rw [hsame]
      exact .inl ⟨started, ht⟩
    · have hthreads := Resources.threadEnd_threads lib opt hi hs out
      by_cases heq : t.st = st
      · right
        have hend : (threadEnd lib opt i out w.client).2 = receiverEnd out t.st := by
          simp [threadEnd, hi, hs, heq, hst]
        rw [hend, ← heq]
        exact receiverEnd_reports out t.st
      · left
        rw [hthreads]
        refine ⟨started, List.mem_eraseIdx_iff_getElem?.mpr ?_⟩
        obtain ⟨j, hj⟩ := List.getElem?_of_mem ht
        refine ⟨j, fun hji => heq ?_, hj⟩
        rw [hji, hi] at hj
        rw [Option.some.inj hj]

variable (lib opt) in
/-- A receiver that has not ended goes on, or it ends with a report. -/
lemma step_runs {st : Xfer} (hst : st.isSender = false) {w : Node} (h : Runs st w)
    (e : Resources.Event) :
    Runs st (step lib opt w e).1 ∨ ∃ d ∈ (step lib opt w e).2, Reports st.fileId d := by
  obtain ⟨started, ht⟩ := h
  cases e with
  | message l m => exact .inl ⟨started, onMessage_threads ht l m⟩
  | change held =>
    left
    simp only [step]
    split_ifs
    · exact ⟨started, ht⟩
    · exact ⟨started, (Resources.check_keeps held w.client).2 ▸ ht⟩
  | offer l uuid =>
    left
    simp only [step]
    split
    · exact ⟨started, ht⟩
    · next p hp => exact ⟨started, (Resources.reset_threads l uuid p w.client).symm ▸ ht⟩
  | threadStart i => exact .inl (threadStart_runs ⟨started, ht⟩ i)
  | threadEnd i out => exact threadEnd_runs hst ⟨started, ht⟩ i out

lemma runs_or_reported {st : Xfer} (hst : st.isSender = false) {w : Node} (h : Runs st w)
    (es : List Resources.Event) : Runs st (Run.exec (step lib opt) w es) ∨
      ∃ d ∈ Run.outs (step lib opt) w es, Reports st.fileId d := by
  induction es generalizing w with
  | nil => exact .inl h
  | cons e es ih =>
    rcases step_runs lib opt hst h e with hnext | ⟨d, hd, hr⟩
    · rcases ih hnext with hrest | ⟨d, hd, hr⟩
      · exact .inl hrest
      · exact .inr ⟨d, List.mem_append_right _ hd, hr⟩
    · exact .inr ⟨d, List.mem_append_left _ hd, hr⟩

/-! ### Whose `g_xfer` it is -/

/-- While no transfer has been started from it, a receiver's `g_xfer` is that of the latest accepted
notification. -/
def Inv (w : Node) : Prop :=
  w.client.xfer.isSender = false → w.client.xfer.phase = 1 →
    ∃ n, w.latest = some n ∧ w.client.xfer.fileId = strncpy 63 n.fileId

lemma Inv.client {w : Node} (h : Inv w) {c : State} (hxfer : c.xfer = w.client.xfer)
    (pending : Option Resources.Pending) : Inv { w with client := c, pending := pending } := by
  intro hs hphase
  rw [hxfer] at hs hphase ⊢
  exact h hs hphase

variable (lib opt) in
lemma reset_isSender (l : Listening) (uuid : String) (p : Resources.Pending) (c : State) :
    (Resources.reset lib opt l uuid p c).1.xfer.isSender = true := by
  simp only [Resources.reset]
  repeat' split
  all_goals rfl

lemma message_inv {w : Node} (h : Inv w) (l : Listening) (m : WsMessage) :
    Inv (step lib opt w (.message l m)).1 := by
  cases m with
  | fileNotify n =>
    simp only [Inv, step, onMessage, onFileNotify, accepted]
    by_cases hlevel : effectiveFileLevel opt w.client ≤ 0
    · rw [if_pos hlevel, if_pos hlevel]
      exact h
    · rw [if_neg hlevel, if_neg hlevel]
      exact fun _ _ => ⟨n, rfl, rfl⟩
  | filePeerInfo p =>
    simp only [Inv, step, onMessage, onFilePeerInfo, accepted]
    by_cases hid : p.fileId ≠ w.client.xfer.fileId
    · rw [if_pos hid]
      exact h
    · rw [if_neg hid]
      by_cases hdup : w.client.xfer.isSender = false ∧
          (0 < w.client.activeCount ∨ 2 ≤ w.client.xfer.phase)
      · rw [if_pos hdup]
        exact h
      · -- a transfer is started, which ends phase 1
        rw [if_neg hdup]
        intro hs hphase
        dsimp only at hs hphase
        split_ifs at hphase
        · cases hphase
        · cases hphase
  | _ => exact h.client (Resources.onMessage_keeps (by simp) (by simp)).1 w.pending

lemma step_inv (w : Node) (e : Resources.Event) (h : Inv w) : Inv (step lib opt w e).1 := by
  cases e with
  | message l m => exact message_inv h l m
  | change held =>
    simp only [step]
    split_ifs
    · exact h
    · exact h.client (Resources.check_keeps held w.client).1 _
  | offer l uuid =>
    simp only [step]
    split
    · exact h
    · next p hp =>
      intro hs
      have hsender := reset_isSender lib opt l uuid p w.client
      rw [hsender] at hs
      cases hs
  | threadStart i => exact h.client (Resources.threadStart_xfer i w.client) w.pending
  | threadEnd i out => exact h.client (Resources.threadEnd_xfer lib opt i out w.client) w.pending

/-! ### No announced file is dropped -/

variable (lib opt) in
/-- The handler starts a receiver thread for the file of the message, and whatever happens then,
that thread has not ended or it has reported. -/
def StartsReceiver (l : Listening) (p : FilePeerInfo) (w : Node) : Prop :=
  let w' := (step lib opt w (.message l (.filePeerInfo p))).1
  ∃ st : Xfer, st.isSender = false ∧ st.fileId = p.fileId ∧
    w'.client.threads = w.client.threads ++ [⟨st, false⟩] ∧
    ∀ es, Runs st (Run.exec (step lib opt) w' es) ∨
      ∃ d ∈ Run.outs (step lib opt) w' es, Reports p.fileId d

/-- The handler starts a receiver thread exactly for a receiver's `g_xfer` with this id, while no
thread runs and none has been started from it. -/
lemma startsReceiver_iff (l : Listening) (p : FilePeerInfo) (w : Node) :
    StartsReceiver lib opt l p w ↔ p.fileId = w.client.xfer.fileId ∧
      w.client.xfer.isSender = false ∧ w.client.activeCount = 0 ∧ w.client.xfer.phase < 2 := by
  simp only [StartsReceiver, step, onMessage, onFilePeerInfo]
  by_cases hid : p.fileId ≠ w.client.xfer.fileId
  · simp [hid]
  · have hid : p.fileId = w.client.xfer.fileId := Decidable.not_not.mp hid
    rw [if_neg (by simpa using hid)]
    by_cases hdup : w.client.xfer.isSender = false ∧
        (0 < w.client.activeCount ∨ 2 ≤ w.client.xfer.phase)
    · rw [if_pos hdup]
      obtain ⟨hs, hdup⟩ := hdup
      constructor
      · rintro ⟨st, -, -, hthreads, -⟩
        simp at hthreads
      · rintro ⟨-, -, hactive, hphase⟩
        omega
    · rw [if_neg hdup]
      constructor
      · rintro ⟨st, hst, -, hthreads, -⟩
        have heq := List.append_cancel_left hthreads
        obtain rfl : withPeer opt p w.client.xfer = st := by simpa using heq
        have hs : w.client.xfer.isSender = false := hst
        have hno : ¬ (0 < w.client.activeCount ∨ 2 ≤ w.client.xfer.phase) := fun h => hdup ⟨hs, h⟩
        refine ⟨hid, hs, ?_, ?_⟩
        · omega
        · omega
      · rintro ⟨-, hs, -, -⟩
        refine ⟨withPeer opt p w.client.xfer, hs, hid.symm, rfl, fun es => ?_⟩
        rw [hid]
        have hst : (withPeer opt p w.client.xfer).isSender = false := hs
        exact runs_or_reported hst ⟨false, by simp⟩ es

/-- **No announced file is dropped.** In every run, when `file_peer_info` arrives for the file of the
latest accepted notification and `g_xfer` is in its first phase, the handler starts a receiver for
the file, which ends in a report, if and only if no transfer thread runs, `g_xfer` has not been taken
for an offer since, and the id fits into `g_xfer` with its bytes. -/
theorem announced_received_iff (lib : Lib) (opt : Options) (es : List Resources.Event)
    (l : Listening) (p : FilePeerInfo) (n : FileNotify)
    (hlatest : (Run.exec (step lib opt) Node.start es).latest = some n) (hid : p.fileId = n.fileId)
    (hphase : (Run.exec (step lib opt) Node.start es).client.xfer.phase = 1) :
    StartsReceiver lib opt l p (Run.exec (step lib opt) Node.start es) ↔
      (Run.exec (step lib opt) Node.start es).client.activeCount = 0 ∧
      (Run.exec (step lib opt) Node.start es).client.xfer.isSender = false ∧
      (CString.utf8 n.fileId).length ≤ 63 := by
  have hinv : Inv (Run.exec (step lib opt) Node.start es) :=
    Run.exec_inv step_inv (fun _ hphase => by simp [Node.start, Client.start, Xfer.zero] at hphase) es
  rw [startsReceiver_iff, hphase, ← strncpy_eq_self_iff]
  constructor
  · rintro ⟨hfile, hs, hactive, -⟩
    obtain ⟨n', hn', hfit⟩ := hinv hs hphase
    obtain rfl : n = n' := Option.some.inj (hlatest.symm.trans hn')
    exact ⟨hactive, hs, by rw [← hfit, ← hfile, hid]⟩
  · rintro ⟨hactive, hs, hfits⟩
    obtain ⟨n', hn', hfit⟩ := hinv hs hphase
    obtain rfl : n = n' := Option.some.inj (hlatest.symm.trans hn')
    exact ⟨by rw [hid, hfit, hfits], hs, hactive, by omega⟩

def sampleNotify (fileId : String) : FileNotify :=
  ⟨fileId, some "b.png", some "image/png", 1, none, "laptop", [], "", 1048576, 0, 3⟩

def samplePeer (fileId : String) : FilePeerInfo :=
  ⟨fileId, "laptop", ["192.168.0.2:40002"], "", true, "receiver", 3⟩

def sampleOptions : Options := ⟨.linux, 3, 10⟩

/-- The id of a second file. -/
def secondId : String := "0b7d2f61-5a3c-4e88-9d10-7c6b5a493827"

/-- A file is announced, and its receiver runs; then a second file is announced. -/
def samplePast : List Resources.Event := [
  .message ⟨5, []⟩ (.fileNotify (sampleNotify Resources.sampleId)),
  .message ⟨6, []⟩ (.filePeerInfo (samplePeer Resources.sampleId)),
  .threadStart 0,
  .message ⟨7, []⟩ (.fileNotify (sampleNotify secondId))]

theorem first_file_received :
    StartsReceiver Resources.sampleLib sampleOptions ⟨6, []⟩ (samplePeer Resources.sampleId)
      (Run.exec (step Resources.sampleLib sampleOptions) Node.start (samplePast.take 1)) :=
  (announced_received_iff Resources.sampleLib sampleOptions (samplePast.take 1) ⟨6, []⟩
    (samplePeer Resources.sampleId) (sampleNotify Resources.sampleId) (by decide +kernel) rfl
    (by decide +kernel)).mpr (by decide +kernel)

/-- The second file is dropped. -/
theorem second_file_dropped :
    (Run.exec (step Resources.sampleLib sampleOptions) Node.start samplePast).latest =
        some (sampleNotify secondId) ∧
      (samplePeer secondId).fileId = (sampleNotify secondId).fileId ∧
      (Run.exec (step Resources.sampleLib sampleOptions) Node.start samplePast).client.xfer.phase =
        1 ∧
      ¬ StartsReceiver Resources.sampleLib sampleOptions ⟨8, []⟩ (samplePeer secondId)
        (Run.exec (step Resources.sampleLib sampleOptions) Node.start samplePast) := by
  rw [startsReceiver_iff]
  decide +kernel

end SyncClipboard.Announced
