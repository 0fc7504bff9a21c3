import SyncClipboard.Acts
import SyncClipboard.Base64
import SyncClipboard.FtAuth

/-!
The limits the server puts on files: the file transfer level and the size of a relayed file.

The level is looked at where frames are built, but `handleFileRequest` has no check of its own; at
level 0 it is the empty offer store that keeps it silent. The size of a relayed file is the one the
client claims, not the one it sends.
-/

namespace SyncClipboard.ServerLimits

open Keyed ServerModel Dispatcher Views Acts

variable {cfg : Config}

/-! ### The file transfer level -/

/-- The level a frame needs, by what it carries. -/
def Within (level : ℤ) : WsMessage → Prop
  | .fileNotify m => 1 ≤ level ∧ (m.sourcePublicAddress ≠ "" → 2 ≤ level) ∧
      (m.maxRelaySize ≠ 0 → 3 ≤ level)
  | .filePeerInfo m => 1 ≤ level ∧ (m.peerPublicAddress ≠ "" → 2 ≤ level)
  | .fileRelayRequest _ => 3 ≤ level
  | .fileRelayData _ => 3 ≤ level
  | _ => True

/-- At level 0 nothing is stored. -/
def Silent (cfg : Config) (st : Server) : Prop :=
  cfg.fileTransferLevel ≤ 0 → ∀ f, st.activeOffers f = none

lemma silent_init : Silent cfg init := fun _ _ => rfl

lemma written_silent {F : String} {st : Server} {e : Event} {w : Option Offer}
    (hl : cfg.fileTransferLevel ≤ 0) (h : written cfg F st e = some w) : w = none := by
  unfold written at h
  split at h
  · obtain ⟨cs, -, hw⟩ := Option.bind_eq_some_iff.mp h
    simp [asked, hl] at hw
  · obtain ⟨cs, -, hw⟩ := Option.bind_eq_some_iff.mp h
    split_ifs at hw
    cases hw
    rfl
  · cases h

lemma silent_step {st : Server} (h : Silent cfg st) (e : Event) : Silent cfg (step cfg st e).1 := by
  intro hl F
  rw [step_entry]
  cases hw : written cfg F st e with
  | some w => exact written_silent hl hw
  | none =>
    cases e with
    | cleanup now => simp [h hl F]
    | _ => exact h hl F

lemma Silent.level {st : Server} (h : Silent cfg st) {g : String} {o : Offer}
    (ho : st.activeOffers g = some o) : 1 ≤ cfg.fileTransferLevel := by
  by_contra hl
  have hnone := h (by omega) g
  rw [ho] at hnone
  cases hnone

lemma sends_within {sid : SessionId} {cs : ClientSession} {st : Server} {msg : WsMessage}
    {x : SessionId} {f : WsMessage} (hst : Silent cfg st) (h : Sends cfg sid cs st msg x f) :
    Within cfg.fileTransferLevel f := by
  cases h with
  | clipboard m ht => trivial
  | notify hl hg ht =>
    refine ⟨by omega, fun hne => ?_, fun hne => ?_⟩
    · by_contra h2
      simp [h2] at hne
    · by_contra h3
      simp [h3] at hne
  | toSender hg ho =>
    refine ⟨hst.level ho, fun hne => ?_⟩
    by_contra h2
    simp [h2] at hne
  | toReceiver hg ho =>
    refine ⟨hst.level ho, fun hne => ?_⟩
    by_contra h2
    simp [h2] at hne
  | relayData hl hg ho hsize ht hin hu hd => exact Int.not_lt.mp hl
  | relayRequest hl hg ho hd => exact Int.not_lt.mp hl
  | error e => trivial
  | pong ts => trivial

lemma step_within {st : Server} (hst : Silent cfg st) {e : Event} {x : SessionId} {f : WsMessage}
    {b : Bool} (h : Act.send x f b ∈ (step cfg st e).2) : Within cfg.fileTransferLevel f := by
  rcases step_sends h with ⟨sid, msg, now, net, cs, -, -, hs⟩ | ⟨-, rfl | hf | ⟨er, rfl⟩⟩
  · exact sends_within hst hs
  · trivial
  · cases f <;> trivial
  · trivial

/-- The frames a run hands to anybody. -/
def Handed (cfg : Config) (es : List Event) (f : WsMessage) : Prop :=
  ∃ x b, Act.send x f b ∈ Run.outs (step cfg) init es

lemma run_within {es : List Event} {f : WsMessage} (h : Handed cfg es f) :
    Within cfg.fileTransferLevel f := by
  obtain ⟨x, b, h⟩ := h
  have hrun := Run.outs_inv (I := Silent cfg)
    (P := fun a => ∀ x f b, a = Act.send x f b → Within cfg.fileTransferLevel f)
    (fun st e hst => ⟨silent_step hst e, fun a ha x f b hab => step_within hst (hab ▸ ha)⟩)
    silent_init es
  exact hrun _ h x f b rfl

/-- What the level of the server allows in a run. -/
structure LevelRespected (cfg : Config) (es : List Event) : Prop where
  noOffers : cfg.fileTransferLevel ≤ 0 →
    ∀ f, (Run.exec (step cfg) init es).activeOffers f = none
  noFrames : cfg.fileTransferLevel ≤ 0 → ∀ f, Handed cfg es f →
    f.type ∉ ["file_notify", "file_peer_info", "file_relay_request", "file_relay_data"]
  lanNotify : cfg.fileTransferLevel = 1 → ∀ m, Handed cfg es (.fileNotify m) →
    m.sourcePublicAddress = ""
  lanPeerInfo : cfg.fileTransferLevel = 1 → ∀ m, Handed cfg es (.filePeerInfo m) →
    m.peerPublicAddress = ""
  publicNotify : ∀ m, Handed cfg es (.fileNotify m) → m.sourcePublicAddress ≠ "" →
    2 ≤ cfg.fileTransferLevel
  publicPeerInfo : ∀ m, Handed cfg es (.filePeerInfo m) → m.peerPublicAddress ≠ "" →
    2 ≤ cfg.fileTransferLevel
  maxRelaySize : ∀ m, Handed cfg es (.fileNotify m) → m.maxRelaySize ≠ 0 →
    3 ≤ cfg.fileTransferLevel
  relayRequest : ∀ m, Handed cfg es (.fileRelayRequest m) → 3 ≤ cfg.fileTransferLevel
  relayData : ∀ m, Handed cfg es (.fileRelayData m) → 3 ≤ cfg.fileTransferLevel

/-- **The server respects its level**, in every run and for every level. -/
theorem server_level_respected (cfg : Config) (es : List Event) : LevelRespected cfg es where
  noOffers := Run.exec_inv (I := Silent cfg) (fun _ e h => silent_step h e) silent_init es
  noFrames hl f hf := by
    have hw := run_within hf
    cases f with
    | fileNotify m =>
      have h1 := hw.1
      omega
    | filePeerInfo m =>
      have h1 := hw.1
      omega
    | fileRelayRequest m =>
      have h3 : 3 ≤ cfg.fileTransferLevel := hw
      omega
    | fileRelayData m =>
      have h3 : 3 ≤ cfg.fileTransferLevel := hw
      omega
    | _ => simp [WsMessage.type]
  lanNotify hl m hm := by
    by_contra hne
    have h2 := (run_within hm).2.1 hne
    omega
  lanPeerInfo hl m hm := by
    by_contra hne
    have h2 := (run_within hm).2 hne
    omega
  publicNotify m hm := (run_within hm).2.1
  publicPeerInfo m hm := (run_within hm).2
  maxRelaySize m hm := (run_within hm).2.2
  relayRequest m hm := run_within hm
  relayData m hm := run_within hm

/-! ### The size of a relayed file -/

section Relay

variable (cfg) (decode : String → Option (List UInt8))

/-- Every relayed file that is delivered is small enough. -/
def RelayCapped (es : List Event) : Prop :=
  ∀ x m, Act.send x (.fileRelayData m) true ∈ Run.outs (step cfg) init es →
    ∀ data bytes, m.data = some data → decode data = some bytes →
      (bytes.length : ℤ) ≤ cfg.maxRelaySize

/-- A relay message about a stored offer, to a device of its user that has a session, claims a
size the server accepts and carries more. -/
def Understated (st : Server) : Event → Prop
  | .text sid (some (.fileRelay m)) _ _ =>
    m.fileSize ≤ cfg.maxRelaySize ∧
    (∃ cs, getSession sid st.sessions = some cs ∧ ∃ t ∈ st.sessions, t.loggedIn = true ∧
      t.username = cs.username ∧ m.targetDevice = some t.deviceId) ∧
    (∃ g o, m.fileId = some g ∧ st.activeOffers g = some o) ∧
    ∃ data bytes, m.data = some data ∧ decode data = some bytes ∧
      cfg.maxRelaySize < (bytes.length : ℤ)
  | _ => False

variable {cfg decode}

lemma step_capped {st : Server} {e : Event} (h : ¬ Understated cfg decode st e) {x : SessionId}
    {m : FileRelayData} {b : Bool} (hm : Act.send x (.fileRelayData m) b ∈ (step cfg st e).2)
    {data : String} {bytes : List UInt8} (hdata : m.data = some data)
    (hbytes : decode data = some bytes) : (bytes.length : ℤ) ≤ cfg.maxRelaySize := by
  rcases step_sends hm with ⟨sid, msg, now, net, cs, rfl, hcs, hs⟩ | ⟨-, he | he | ⟨er, he⟩⟩
  · generalize hf : WsMessage.fileRelayData m = f at hs
    cases hs with
    | relayData hl hg ho hsize ht hin hu hd =>
      cases hf
      by_contra hlt
      exact h ⟨Int.not_lt.mp hsize, ⟨cs, hcs, _, ht, hin, hu, hd⟩, ⟨_, _, hg, ho⟩, data, bytes,
        hdata, hbytes, Int.not_le.mp hlt⟩
    | _ => simp [notifyOf, peerInfoForSender, peerInfoForReceiver] at hf
  · simp [helloAckFrame] at he
  · simp [isClip] at he
  · cases he

lemma sendEach_allOk (f : WsMessage) (st : Server) (ts : List ClientSession) :
    sendEach allOk f st ts = ⟨st, ts.map fun t => .send t.session f true, none⟩ := by
  induction ts with
  | nil => rfl
  | cons t ts ih => simp [sendEach, ih, sendMessage]

/-- Such a message is delivered as it is, where the relay is on and the network works. -/
lemma understated_delivered {st : Server} {sid : SessionId} {m : FileRelay} {now : ℤ} {net : Net}
    (hl : 3 ≤ cfg.fileTransferLevel)
    (h : Understated cfg decode st (.text sid (some (.fileRelay m)) now net)) :
    ∃ x f, Act.send x (.fileRelayData f) true ∈
      (step cfg st (.text sid (some (.fileRelay m)) now allOk)).2 ∧ f.data = m.data := by
  obtain ⟨hsize, ⟨cs, hcs, t, ht, hin, hu, hd⟩, ⟨g, o, hg, ho⟩, -⟩ := h
  have htargets : t ∈ deviceTargets allOk cs.username t.deviceId (relayDataOf cs g m o) st.sessions := by
    simp [deviceTargets, ht, hin, hu]
  have hh : handle cfg allOk now sid cs (.fileRelay m) st =
      ⟨st, (deviceTargets allOk cs.username t.deviceId (relayDataOf cs g m o) st.sessions).map
        fun t => .send t.session (relayDataOf cs g m o) true, none⟩ := by
    simp only [handle, handleFileRelay, if_neg (Int.not_lt.mpr hl), hg, ho,
      if_neg (Int.not_lt.mpr hsize), hd]
    exact sendEach_allOk _ _ _
  refine ⟨t.session, ⟨g, o.fileName, o.mimeType, o.fileSize, o.checksum, m.data, cs.deviceId⟩, ?_,
    rfl⟩
  simp only [step, react, handleTextMessage, dispatch, hcs, hh]
  exact List.mem_map_of_mem htargets

/-- **The cap on relayed files** holds in the runs without such a message; after any such message
that gets through it is broken. -/
theorem relayCapped_of_steps (hl : 3 ≤ cfg.fileTransferLevel) (es : List Event) :
    (Run.Steps (step cfg) (fun st e => ¬ Understated cfg decode st e) init es →
      RelayCapped cfg decode es) ∧
    ∀ sid m now net,
      Understated cfg decode (Run.exec (step cfg) init es) (.text sid (some (.fileRelay m)) now net) →
      ¬ RelayCapped cfg decode (es ++ [.text sid (some (.fileRelay m)) now allOk]) := by
  refine ⟨fun hok x m hm data bytes hdata hbytes => ?_, fun sid m now net hu hcap => ?_⟩
  · have hrun := Run.outs_inv_of_steps (I := fun _ => True)
      (P := fun a => ∀ x m b, a = Act.send x (.fileRelayData m) b → ∀ data bytes,
        m.data = some data → decode data = some bytes → (bytes.length : ℤ) ≤ cfg.maxRelaySize)
      (fun st e _ he => ⟨trivial, fun a ha x m b hab data bytes hdata hbytes =>
        step_capped he (hab ▸ ha) hdata hbytes⟩) trivial hok
    exact hrun _ hm x m true rfl data bytes hdata hbytes
  · obtain ⟨x, f, hf, hdata⟩ := understated_delivered hl hu
    obtain ⟨-, -, -, data, bytes, hd, hb, hlt⟩ := hu
    have hmem : Act.send x (.fileRelayData f) true ∈ Run.outs (step cfg) init
        (es ++ [.text sid (some (.fileRelay m)) now allOk]) := by
      rw [Run.outs_append]
      exact List.mem_append_right _ (by simpa using hf)
    have hle := hcap x f hmem data bytes (hdata.trans hd) hb
    omega

/-! Two devices of one user, and room for two bytes. -/

def twoDevices : Config where
  fileTransferLevel := 3
  udpPort := 9000
  maxRelaySize := 2
  session := fun sid =>
    if sid = "a" then ⟨some "alice", some "laptop", some "192.0.2.1"⟩
    else ⟨some "alice", some "phone", some "198.51.100.7"⟩

def decodeText (s : String) : Option (List UInt8) := Base64.decode (FtAuth.ascii s)

/-- The laptop offers a file and relays `data` to the phone, with the size it claims. -/
def relayed (fileSize : ℤ) (data : String) : List Event :=
  [.established "a" 0 allOk, .established "b" 1 allOk,
    .text "a" (some (.fileOffer ⟨none, some "f", some "x.png", some "image/png", 2, none, none⟩)) 2
      allOk,
    .text "a" (some (.fileRelay ⟨none, some "f", fileSize, some "phone", some data⟩)) 3 allOk]

theorem relayed_oversize : ¬ RelayCapped twoDevices decodeText (relayed 1 "AQID") := by
  intro h
  have hle := h "b" ⟨"f", some "x.png", some "image/png", 2, none, some "AQID", "laptop"⟩
    (by decide +kernel) "AQID" [1, 2, 3] rfl (by decide +kernel)
  exact absurd hle (by decide)

theorem relayed_small : RelayCapped twoDevices decodeText (relayed 2 "AQI=") := by
  have hdec : decodeText "AQI=" = some [1, 2] := by decide +kernel
  refine (relayCapped_of_steps (by decide) _).1 ⟨id, id, id, ?_, trivial⟩
  rintro ⟨-, -, -, data, bytes, hdata, hbytes, hlt⟩
  cases hdata
  cases hdec.symm.trans hbytes
  exact absurd hlt (by decide)

end Relay

end SyncClipboard.ServerLimits
