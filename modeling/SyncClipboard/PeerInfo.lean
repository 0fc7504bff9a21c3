import SyncClipboard.Received

/-!
The peer information that the Android client starts its transfers with.

`handleFilePeerInfo` does not ask which file a message is about. The first one to come after a file was
announced or offered starts the transfer of that file, and the next ones are dropped. So each transfer
has the addresses of its own peer exactly where the first message is about the right file
(`own_info_iff`), and of the receivers of one offer at most one is served (`serves_iff`).
-/

namespace SyncClipboard.PeerInfo

open ServerModel Client Android

/-- A transfer as it starts: the state with what `handleFilePeerInfo` puts into it, and the message
that this was taken from. -/
structure Attempt where
  state : TransferState
  peerAddresses : List String
  peerPublicAddress : String
  sameLan : Bool
  info : FilePeerInfo
  deriving DecidableEq

variable (lib : Lib) (store : Store)

/-- The transfer that `handleFilePeerInfo` hands to `startTransfer`. -/
def attempt (m : FilePeerInfo) (c : Service) : Option Attempt :=
  match c.currentState with
  | none => none
  | some state =>
    if c.transferStarted then none
    else
      some ⟨{ state with fileTransferLevel :=
          (min (min store.fileTransferLevel c.serverFileLevel) m.fileTransferLevel) },
        m.peerLocalAddresses, m.peerPublicAddress, m.sameLan, m⟩

def started (c : Service) : Event → List Attempt
  | .message _ (.filePeerInfo m) => (attempt store m c).toList
  | _ => []

/-- A step of the service, with the transfers it starts. -/
def step (c : Service) (e : Event) : Service × List Attempt :=
  ((Android.step lib store c e).1, started store c e)

/-- The transfer has what the message says. -/
def Attempt.Uses (a : Attempt) (m : FilePeerInfo) : Prop :=
  a.peerAddresses = m.peerLocalAddresses ∧ a.peerPublicAddress = m.peerPublicAddress ∧
    a.sameLan = m.sameLan ∧ a.state.fileTransferLevel ≤ m.fileTransferLevel

instance (a : Attempt) (m : FilePeerInfo) : Decidable (a.Uses m) :=
  inferInstanceAs (Decidable (_ ∧ _ ∧ _ ∧ _))

/-- Every transfer uses the information about its own file, and such information is dropped only where
such information has started the transfer already. -/
structure OwnInfo (es : List Event) : Prop where
  own : ∀ a ∈ Run.outs (step lib store) start es, a.Uses a.info ∧ a.info.fileId = a.state.fileId
  unhindered : ∀ pre addrs m post, es = pre ++ .message addrs (.filePeerInfo m) :: post →
    (Run.exec (step lib store) start pre).currentState.map TransferState.fileId = some m.fileId →
    attempt store m (Run.exec (step lib store) start pre) = none →
    ∃ a ∈ Run.outs (step lib store) start pre,
      a.state.fileId = m.fileId ∧ a.info.fileId = m.fileId

/-! ### The file that waits for peer information -/

/-- What an event makes of the file that waits. -/
def await (waiting : Option String) : Event → Option String
  | .message _ (.fileNotify m) => if store.fileTransferLevel ≤ 0 then waiting else some m.fileId
  | .message _ (.filePeerInfo _) => none
  | .image _ fileId _ _ => some fileId
  | .cleanup => none
  | _ => waiting

/-- The file that was announced or offered last, if no peer information has come since. -/
def awaited (past : List Event) : Option String := past.foldl (await store) none

/-- The same in a state of the service. -/
def waiting (c : Service) : Option String :=
  if c.transferStarted then none else c.currentState.map TransferState.fileId

variable {lib store} {c : Service}

/-! ### What a step can do -/

variable (store) in
/-- The event touches neither the current file nor whether its transfer has been started. -/
def Calm : Event → Prop
  | .message _ (.fileNotify _) => store.fileTransferLevel ≤ 0
  | .message _ (.filePeerInfo _) => False
  | .image _ _ _ _ => False
  | .cleanup => False
  | _ => True

/-- Two states alike for the messages to come, with no new transfer. -/
structure Same (c c' : Service) : Prop where
  current : c'.currentState = c.currentState
  started : c'.transferStarted = c.transferStarted
  transfers : ∀ t ∈ c'.transfers, t ∈ c.transfers

lemma Same.refl (c : Service) : Same c c := ⟨rfl, rfl, fun _ => id⟩

lemma same_step {e : Event} (h : Calm store e) : Same c (step lib store c e).1 := by
  unfold step
  have hdoes := @does lib store c e
  generalize Android.step lib store c e = next at hdoes ⊢
  cases hdoes with
  | nothing hvoid => exact .refl c
  | requested hlevel hid hdata => exact absurd h hlevel
  | started hstate hstarted hlevel => exact h.elim
  | offered => exact h.elim
  | ended hstate hds => exact ⟨rfl, rfl, fun _ => List.mem_of_mem_eraseIdx⟩
  | arrived hstate hrecv => exact ⟨rfl, rfl, fun _ => List.mem_of_mem_eraseIdx⟩
  | destroyed => exact h.elim
  | _ => exact ⟨rfl, rfl, fun _ => id⟩

variable (store) in
lemma calm_or (e : Event) : Calm store e ∨
    (∃ addrs m, e = .message addrs (.fileNotify m) ∧ ¬ store.fileTransferLevel ≤ 0) ∨
    (∃ addrs m, e = .message addrs (.filePeerInfo m)) ∨
    (∃ addrs fileId mime data, e = .image addrs fileId mime data) ∨ e = .cleanup := by
  cases e with
  | message addrs m =>
    cases m with
    | fileNotify m =>
      by_cases hlevel : store.fileTransferLevel ≤ 0
      · exact .inl hlevel
      · exact .inr (.inl ⟨addrs, m, rfl, hlevel⟩)
    | filePeerInfo m => exact .inr (.inr (.inl ⟨addrs, m, rfl⟩))
    | _ => exact .inl trivial
  | image addrs fileId mime data =>
    exact .inr (.inr (.inr (.inl ⟨addrs, fileId, mime, data, rfl⟩)))
  | cleanup => exact .inr (.inr (.inr (.inr rfl)))
  | _ => exact .inl trivial

/-! ### The file that waits -/

lemma await_of_calm {e : Event} (h : Calm store e) (w : Option String) : await store w e = w := by
  unfold await
  split
  · exact if_pos h
  · exact h.elim
  · exact h.elim
  · exact h.elim
  · rfl

lemma waiting_of_started (h : c.transferStarted = true) : waiting c = none := by
  simp [waiting, h]

lemma waiting_handleFilePeerInfo (m : FilePeerInfo) :
    waiting (handleFilePeerInfo store m c).1 = none := by
  unfold handleFilePeerInfo
  split
  · next hnone => simp [waiting, hnone]
  · next state hstate =>
    split_ifs with hstarted
    · exact waiting_of_started hstarted
    · rfl

lemma waiting_step (c : Service) (e : Event) :
    waiting (step lib store c e).1 = await store (waiting c) e := by
  obtain hcalm | ⟨addrs, m, rfl, hlevel⟩ | ⟨addrs, m, rfl⟩ | ⟨addrs, fileId, mime, data, rfl⟩ | rfl :=
    calm_or store e
  · have hsame : Same c (step lib store c e).1 := same_step hcalm
    rw [await_of_calm hcalm, waiting, hsame.started, hsame.current]
    rfl
  · simp only [step, Android.step, handleMessage, handleFileNotify, await, if_neg hlevel]
    rfl
  · exact waiting_handleFilePeerInfo m
  · rfl
  · exact ite_self none

lemma waiting_exec (es : List Event) :
    waiting (Run.exec (step lib store) start es) = awaited store es :=
  Run.view_exec waiting_step start es

/-! ### The transfers that start -/

lemma attempt_fileId (m : FilePeerInfo) :
    (attempt store m c).map (fun a => a.state.fileId) = waiting c := by
  unfold attempt waiting
  cases c.currentState with
  | none => simp
  | some state => split_ifs <;> rfl

lemma attempt_uses {m : FilePeerInfo} {a : Attempt} (h : attempt store m c = some a) :
    a.info = m ∧ a.Uses m := by
  unfold attempt at h
  split at h
  · cases h
  · split_ifs at h
    cases h
    exact ⟨rfl, rfl, rfl, rfl, Int.min_le_right _ _⟩

lemma transfers_handleFilePeerInfo (m : FilePeerInfo) :
    (handleFilePeerInfo store m c).1.transfers =
      c.transfers ++ (attempt store m c).toList.map Attempt.state := by
  unfold handleFilePeerInfo attempt
  cases c.currentState with
  | none => simp
  | some state => split_ifs <;> simp

lemma mem_transfers_step {e : Event} {t : TransferState}
    (h : t ∈ (step lib store c e).1.transfers) :
    t ∈ c.transfers ∨ ∃ a ∈ started store c e, a.state = t := by
  obtain hcalm | ⟨addrs, m, rfl, hlevel⟩ | ⟨addrs, m, rfl⟩ | ⟨addrs, fileId, mime, data, rfl⟩ | rfl :=
    calm_or store e
  · exact .inl ((same_step hcalm).transfers t h)
  · left
    simp only [step, Android.step, handleMessage, handleFileNotify, if_neg hlevel] at h
    exact h
  · simp only [step, Android.step, handleMessage] at h
    rw [transfers_handleFilePeerInfo, List.mem_append, List.mem_map] at h
    exact h
  · exact .inl h
  · exact .inl h

/-- Every transfer that runs has been started by a message. -/
theorem transfers_started (es : List Event) :
    ∀ t ∈ (Run.exec (step lib store) start es).transfers,
      ∃ a ∈ Run.outs (step lib store) start es, a.state = t := by
  have hstep : ∀ c tr e, True → (∀ t ∈ c.transfers, ∃ a ∈ tr, a.state = t) →
      ∀ t ∈ (step lib store c e).1.transfers, ∃ a ∈ tr ++ (step lib store c e).2, a.state = t := by
    intro c tr e _ h t ht
    rcases mem_transfers_step ht with hold | ⟨a, ha, rfl⟩
    · obtain ⟨a, ha, heq⟩ := h t hold
      exact ⟨a, List.mem_append_left _ ha, heq⟩
    · exact ⟨a, List.mem_append_right _ ha, rfl⟩
  have hnone : ∀ t ∈ Android.start.transfers, ∃ a ∈ ([] : List Attempt), a.state = t := by
    intro t ht
    cases ht
  exact Run.exec_outs_inv hstep hnone fun _ _ => trivial

/-- What has been started for the current file. -/
def Begun (c : Service) (tr : List Attempt) : Prop :=
  c.transferStarted = true →
    ∀ state ∈ c.currentState, ∃ a ∈ tr, a.state.fileId = state.fileId

lemma Begun.mono {tr : List Attempt} (h : Begun c tr) (tr' : List Attempt) :
    Begun c (tr ++ tr') := by
  intro hstarted state hstate
  obtain ⟨a, ha, heq⟩ := h hstarted state hstate
  exact ⟨a, List.mem_append_left _ ha, heq⟩

lemma Begun.handleFilePeerInfo {tr : List Attempt} (h : Begun c tr) (m : FilePeerInfo) :
    Begun (handleFilePeerInfo store m c).1 (tr ++ (attempt store m c).toList) := by
  unfold Android.handleFilePeerInfo attempt
  cases hstate : c.currentState with
  | none =>
    intro _ state hsome
    rw [hstate] at hsome
    cases hsome
  | some state =>
    cases hstarted : c.transferStarted with
    | true => exact h.mono _
    | false =>
      intro _ state' hsome
      cases hsome
      exact ⟨_, List.mem_append_right _ (List.mem_singleton_self _), rfl⟩

lemma Begun.step {tr : List Attempt} (h : Begun c tr) (e : Event) :
    Begun (step lib store c e).1 (tr ++ (step lib store c e).2) := by
  obtain hcalm | ⟨addrs, m, rfl, hlevel⟩ | ⟨addrs, m, rfl⟩ | ⟨addrs, fileId, mime, data, rfl⟩ | rfl :=
    calm_or store e
  · have hsame : Same c (PeerInfo.step lib store c e).1 := same_step hcalm
    unfold Begun
    rw [hsame.started, hsame.current]
    exact h.mono _
  · simp only [PeerInfo.step, Android.step, handleMessage, handleFileNotify, if_neg hlevel]
    exact fun hstarted => by cases hstarted
  · exact h.handleFilePeerInfo m
  · exact fun hstarted => by cases hstarted
  · exact fun _ state hstate => by cases hstate

lemma begun_exec (es : List Event) :
    Begun (Run.exec (step lib store) start es) (Run.outs (step lib store) start es) := by
  have hstep : ∀ c tr e, True → Begun c tr →
      Begun (step lib store c e).1 (tr ++ (step lib store c e).2) := fun c tr e _ h => h.step e
  have hstart : Begun Android.start [] := fun hstarted => by cases hstarted
  exact Run.exec_outs_inv hstep hstart fun _ _ => trivial

/-! ### Whose information a transfer uses -/

/-- **Peer information is used for its own file** if and only if the first message after a file was
announced or offered is about that file. -/
theorem own_info_iff (lib : Lib) (store : Store) (es : List Event) :
    OwnInfo lib store es ↔
      ∀ pre addrs m post, es = pre ++ .message addrs (.filePeerInfo m) :: post →
        ∀ fileId ∈ awaited store pre, m.fileId = fileId := by
  constructor
  · rintro ⟨hown, -⟩ pre addrs m post rfl fileId hwait
    have hat : (attempt store m (Run.exec (step lib store) start pre)).map (fun a => a.state.fileId) =
        some fileId := by
      rw [attempt_fileId, waiting_exec]
      exact hwait
    obtain ⟨a, ha, hfile⟩ := Option.map_eq_some_iff.mp hat
    have hmem : a ∈ Run.outs (step lib store) start
        (pre ++ .message addrs (.filePeerInfo m) :: post) := by
      rw [Run.mem_outs]
      exact ⟨pre, _, post, rfl, Option.mem_toList.mpr ha⟩
    rw [← (attempt_uses ha).1, ← hfile]
    exact (hown a hmem).2
  · intro hcond
    have hown : ∀ pre post, es = pre ++ post → ∀ a ∈ Run.outs (step lib store) start pre,
        a.Uses a.info ∧ a.info.fileId = a.state.fileId := by
      intro pre post hes a ha
      obtain ⟨pre', e, post', rfl, hstart⟩ := Run.mem_outs.mp ha
      simp only [step, started] at hstart
      split at hstart
      · next addrs m =>
        have hsome := Option.mem_toList.mp hstart
        have hfile : some a.state.fileId = awaited store pre' := by
          rw [← @waiting_exec lib, ← attempt_fileId m, hsome]
          rfl
        obtain ⟨rfl, huses⟩ := attempt_uses hsome
        refine ⟨huses, hcond pre' addrs a.info (post' ++ post) ?_ _ hfile.symm⟩
        rw [hes, List.append_assoc, List.cons_append]
      · cases hstart
    refine ⟨hown es [] (by simp), ?_⟩
    rintro pre addrs m post hes hcurrent hnone
    obtain ⟨state, hstate, hfile⟩ := Option.map_eq_some_iff.mp hcurrent
    have hstarted : (Run.exec (step lib store) start pre).transferStarted = true := by
      by_contra hnot
      simp [attempt, hstate, hnot] at hnone
    obtain ⟨a, ha, heq⟩ := begun_exec pre hstarted state hstate
    exact ⟨a, ha, heq.trans hfile, (hown pre _ hes a ha).2.trans (heq.trans hfile)⟩

section Sample

/-- Libraries that do nothing of interest here. -/
def noLib : Lib := ⟨fun _ => "", fun _ => "", fun _ => none, fun _ => none⟩

def allLevels : Store := ⟨3, 100⟩

def announced (fileId : String) : Event :=
  .message [] (.fileNotify ⟨fileId, none, none, 1, none, "peer", [], "", 0, 0, 3⟩)

/-- The server answers a request for a file, with the address of the peer. -/
def answered (fileId address : String) : Event :=
  .message [] (.filePeerInfo ⟨fileId, "peer", [address], "", true, "receiver", 3⟩)

/-- Two files are requested one after the other. The answer about the first starts the transfer of the
second, and the answer about the second is dropped. -/
theorem crossed_not_own :
    (Run.outs (step noLib allLevels) start [announced "a", announced "b", answered "a" "10.0.0.1:1",
      answered "b" "10.0.0.2:1"]).map (fun a => (a.state.fileId, a.info.fileId)) = [("b", "a")] ∧
    ¬ ∀ es, OwnInfo noLib allLevels es := by
  refine ⟨by decide, fun hall => ?_⟩
  have hown := (hall [announced "a", announced "b", answered "a" "10.0.0.1:1"]).own
  revert hown
  decide

end Sample

/-! ### The receivers of an offer -/

variable (lib store) in
/-- Each receiver of the offer `fileId` that the server tells about gets an attempt with its own
addresses, whatever else happens. -/
def ServesAll (fileId : String) (c : Service) (fs : List Event) : Prop :=
  ∀ mid addrs m post, fs = mid ++ .message addrs (.filePeerInfo m) :: post → m.fileId = fileId →
    ∃ a ∈ started store (Run.exec (step lib store) c mid) (.message addrs (.filePeerInfo m)),
      a.state.fileId = fileId ∧ a.Uses m

def isPeerInfo : Event → Bool
  | .message _ (.filePeerInfo _) => true
  | _ => false

/-- The event is the information about a receiver of the offer, or does not bear on the offer. -/
def OfOffer (store : Store) (fileId : String) (e : Event) : Prop :=
  Calm store e ∨ ∃ addrs m, e = .message addrs (.filePeerInfo m) ∧ m.fileId = fileId

lemma served_iff {fileId : String} {addrs : List String} {m : FilePeerInfo} :
    (∃ a ∈ started store c (.message addrs (.filePeerInfo m)), a.state.fileId = fileId ∧ a.Uses m) ↔
      waiting c = some fileId := by
  rw [← attempt_fileId m, Option.map_eq_some_iff]
  constructor
  · rintro ⟨a, ha, hfile, -⟩
    exact ⟨a, Option.mem_toList.mp ha, hfile⟩
  · rintro ⟨a, ha, hfile⟩
    exact ⟨a, Option.mem_toList.mpr ha, hfile, (attempt_uses ha).2⟩

lemma servesAll_iff {fileId : String} (h : waiting c = some fileId) (fs : List Event) :
    ServesAll lib store fileId c fs ↔
      ∀ mid addrs m post, fs = mid ++ .message addrs (.filePeerInfo m) :: post → m.fileId = fileId →
        mid.foldl (await store) (some fileId) = some fileId := by
  simp only [ServesAll, served_iff, Run.view_exec waiting_step, h]

lemma foldl_await {fileId : String} {mid : List Event} (h : ∀ e ∈ mid, OfOffer store fileId e)
    (w : Option String) :
    mid.foldl (await store) w = if mid.countP isPeerInfo = 0 then w else none := by
  induction mid generalizing w with
  | nil => rfl
  | cons e mid ih =>
    have hrest := ih (fun e' he' => h e' (by simp [he']))
    rw [List.foldl_cons, hrest]
    rcases h e (by simp) with hcalm | ⟨addrs, m, rfl, -⟩
    · have hnot : isPeerInfo e = false := by
        unfold isPeerInfo
        split
        · exact hcalm.elim
        · rfl
      rw [await_of_calm hcalm, List.countP_cons_of_neg (by simp [hnot])]
    · rw [List.countP_cons_of_pos rfl]
      simp [await]

lemma countP_isPeerInfo_le_one_iff {fs : List Event} :
    (∀ mid e post, fs = mid ++ e :: post → isPeerInfo e = true → mid.countP isPeerInfo = 0) ↔
      fs.countP isPeerInfo ≤ 1 := by
  constructor
  · intro hfirst
    by_cases hany : ∃ e ∈ fs, isPeerInfo e = true
    · obtain ⟨pre, e, post, rfl, he, hpost⟩ := Run.exists_last hany
      have hpre := hfirst pre e post rfl he
      have hpost' : post.countP isPeerInfo = 0 := List.countP_eq_zero.mpr hpost
      rw [List.countP_append, List.countP_cons_of_pos he]
      omega
    · push Not at hany
      rw [List.countP_eq_zero.mpr hany]
      omega
  · rintro hle mid e post rfl he
    rw [List.countP_append, List.countP_cons_of_pos he] at hle
    omega

/-- **A sender serves every receiver** if and only if the offer still waits each time the server tells
about one: no other peer information has come since the offer, and no other file has taken its place.
So of the receivers of one offer all are served exactly where there is at most one. -/
theorem serves_iff (lib : Lib) (store : Store) (es : List Event) (addrs : List String)
    (fileId mime : String) (data : FtAuth.Bytes) (fs : List Event) :
    (ServesAll lib store fileId
        (Run.exec (step lib store) start (es ++ [.image addrs fileId mime data])) fs ↔
      ∀ mid addrs m post, fs = mid ++ .message addrs (.filePeerInfo m) :: post → m.fileId = fileId →
        mid.foldl (await store) (some fileId) = some fileId) ∧
    ((∀ e ∈ fs, OfOffer store fileId e) →
      (ServesAll lib store fileId
          (Run.exec (step lib store) start (es ++ [.image addrs fileId mime data])) fs ↔
        fs.countP isPeerInfo ≤ 1)) := by
  have hwait : waiting (Run.exec (step lib store) start (es ++ [.image addrs fileId mime data])) =
      some fileId := by
    rw [Run.exec_append]
    rfl
  refine ⟨servesAll_iff hwait fs, fun hfs => ?_⟩
  rw [servesAll_iff hwait fs, ← countP_isPeerInfo_le_one_iff]
  constructor
  · intro hall mid e post heq he
    have hmem : e ∈ fs := by simp [heq]
    rcases hfs e hmem with hcalm | ⟨addrs, m, rfl, hfile⟩
    · unfold isPeerInfo at he
      split at he
      · exact hcalm.elim
      · cases he
    · have hwaits := hall mid addrs m post heq hfile
      rw [foldl_await (fun e' he' => hfs e' (by simp [heq, he']))] at hwaits
      by_contra hne
      rw [if_neg hne] at hwaits
      cases hwaits
  · intro hall mid addrs m post heq hfile
    rw [foldl_await (fun e' he' => hfs e' (by simp [heq, he'])), if_pos (hall mid _ post heq rfl)]

section Sample

/-- What the server tells the sender of `f` about a receiver. -/
def receiverOf (address : String) : FilePeerInfo := ⟨"f", "peer", [address], "", true, "sender", 3⟩

def requested (address : String) : Event := .message [] (.filePeerInfo (receiverOf address))

/-- One receiver is served. -/
theorem serves_one :
    (∀ e ∈ [requested "10.0.0.1:1"], OfOffer allLevels "f" e) ∧
      ServesAll noLib allLevels "f"
        (Run.exec (step noLib allLevels) start ([] ++ [.image [] "f" "image/png" [0]]))
        [requested "10.0.0.1:1"] := by
  have hfs : ∀ e ∈ [requested "10.0.0.1:1"], OfOffer allLevels "f" e := by
    intro e he
    rw [List.mem_singleton] at he
    exact .inr ⟨_, _, he, rfl⟩
  exact ⟨hfs, ((serves_iff noLib allLevels [] [] "f" "image/png" [0]
    [requested "10.0.0.1:1"]).2 hfs).mpr (by decide)⟩

/-- The second one is not. -/
theorem second_not_served :
    ¬ ServesAll noLib allLevels "f"
        (Run.exec (step noLib allLevels) start [.image [] "f" "image/png" [0]])
        [requested "10.0.0.1:1", requested "10.0.0.2:1"] := by
  intro hall
  have hserved := hall [requested "10.0.0.1:1"] [] (receiverOf "10.0.0.2:1") [] rfl rfl
  have hwait := served_iff.mp hserved
  revert hwait
  decide

end Sample

/-- The Linux and Windows clients start a thread for every receiver, with a copy of `g_xfer` of its
own. -/
theorem desktop_serves (lib : Lib) (opt : Options) (l : Listening) {fileId : String} {d : State}
    (hsender : d.xfer.isSender = true) (hfile : d.xfer.fileId = fileId) {ms : List FilePeerInfo}
    (hms : ∀ m ∈ ms, m.fileId = fileId) :
    (Run.exec (Received.step lib opt) d (ms.map fun m => .message l (.filePeerInfo m))).threads =
      d.threads ++ ms.map fun m => ⟨withPeer opt m d.xfer, false⟩ := by
  induction ms generalizing d with
  | nil => simp
  | cons m ms ih =>
    have hm : m.fileId = d.xfer.fileId := (hms m (by simp)).trans hfile.symm
    have hsender' : (withPeer opt m d.xfer).isSender = true := hsender
    have hnext : (Received.step lib opt d (.message l (.filePeerInfo m))).1 =
        { d with
          xfer := withPeer opt m d.xfer
          threads := d.threads ++ [⟨withPeer opt m d.xfer, false⟩] } := by
      simp [Received.step, onMessage, onFilePeerInfo, hm, hsender, hsender']
    rw [List.map_cons, Run.exec_cons, ih (by rw [hnext]; exact hsender') (by rw [hnext]; exact hfile)
      fun m' hm' => hms m' (by simp [hm']), hnext]
    simp only [List.append_assoc, List.map_cons, List.singleton_append]
    rfl

end SyncClipboard.PeerInfo
