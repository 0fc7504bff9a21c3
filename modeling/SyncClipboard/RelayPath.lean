import SyncClipboard.ClipIsolation
import SyncClipboard.Messages
import SyncClipboard.RelayBase64

/-!
A file on its way through the relay.

The server puts a frame together from two messages: the data comes from the one that is relayed, the name
and the size from the offer. `relay_sources` says whose messages these are, in whatever order the events come.
`relay_arrives`: if the sessions of a user relay files in base64, then from every such frame that is handed
to one of them a client decodes one of these files, whole and unchanged.
-/

namespace SyncClipboard.RelayPath

open FtAuth CString CJson ServerModel Dispatcher Views Acts Messages RelayBase64
open Crypto (cString cString_encode)
open ClipIsolation (threeSessions threeConnects)
open Keyed (mem_put mem_of_get)

variable {cfg : Config}

/-! ### Devices and offers -/

variable (cfg) in
/-- The event registers the offer, from a connection of the user and the device that it names. -/
def Registers (o : Offer) (e : Event) : Prop :=
  ∃ sid m now net cs, e = .text sid (some (.fileOffer m)) now net ∧ m.fileId = some o.fileId ∧
    (cfg.session sid).username = some cs.username ∧ (cfg.session sid).deviceId = some cs.deviceId ∧
    o = offerOf cfg now sid cs o.fileId m

variable (cfg) in
/-- After some events every session has the device of its connection, and every offer in the store, kept
under its own id, was registered by one of the events. -/
structure Backed (past : List Event) (st : Server) : Prop where
  owned : Owned cfg st
  device : ∀ s ∈ st.sessions, (cfg.session s.session).deviceId = some s.deviceId
  offer : ∀ g o, st.activeOffers g = some o → o.fileId = g ∧ ∃ e ∈ past, Registers cfg o e

lemma backed_init : Backed cfg [] init :=
  ⟨owned_init, by simp [init], by simp [init]⟩

lemma Backed.device_of_getSession {past : List Event} {st : Server} (h : Backed cfg past st)
    {sid : SessionId} {cs : ClientSession} (hg : getSession sid st.sessions = some cs) :
    (cfg.session sid).deviceId = some cs.deviceId := by
  obtain ⟨hmem, hsid⟩ := mem_of_get hg
  rw [← hsid]
  exact h.device cs hmem

lemma step_device {past : List Event} {st : Server} (h : Backed cfg past st) (e : Event) :
    ∀ s ∈ (step cfg st e).1.sessions, (cfg.session s.session).deviceId = some s.deviceId := by
  intro s hs
  cases e with
  | established sid now net =>
    rw [show (step cfg st (.established sid now net)).1 = _ from established_st cfg net now sid st] at hs
    split at hs
    · next u d hu hd =>
      cases hadd : addAuthenticated sid u d st.sessions with
      | none =>
        rw [hadd] at hs
        exact h.device s hs
      | some reg =>
        rw [hadd, Option.elim_some, addAuthenticated_some hadd] at hs
        rcases mem_put.mp hs with ⟨hs, -⟩ | rfl
        · exact h.device s hs
        · exact hd
    · exact h.device s hs
  | text sid payload now net =>
    cases payload with
    | none =>
      rw [show (step cfg st (.text sid none now net)).1 = st from sendJson_st net sid _ st] at hs
      exact h.device s hs
    | some msg =>
      rw [show (step cfg st (.text sid (some msg) now net)).1 = _ from
        handleTextMessage_st cfg net now sid msg st] at hs
      unfold dispatch at hs
      cases hg : getSession sid st.sessions with
      | none =>
        rw [hg] at hs
        exact h.device s hs
      | some cs =>
        simp only [hg, handle_sessions] at hs
        split at hs
        · exact h.device s hs
        · exact h.device s ((afterBroadcast_sublist _ _ _ _ _).subset hs)
  | closed sid => exact h.device s (List.filter_sublist.subset hs)
  | evict now => exact h.device s hs
  | cleanup now => exact h.device s hs

lemma written_offer {past : List Event} {st : Server} (h : Backed cfg past st) {g : String} {e : Event}
    {o : Offer} (hw : written cfg g st e = some (some o)) : o.fileId = g ∧ Registers cfg o e := by
  unfold written at hw
  split at hw
  · next sid m now net =>
    obtain ⟨cs, hg, hif⟩ := Option.bind_eq_some_iff.mp hw
    split_ifs at hif with hasked
    obtain rfl := Option.some.inj (Option.some.inj hif)
    have hid : m.fileId = some g := by
      simp only [asked] at hasked
      split_ifs at hasked
      exact hasked
    exact ⟨rfl, sid, m, now, net, cs, rfl, hid, user_of_getSession h.owned hg,
      h.device_of_getSession hg, rfl⟩
  · obtain ⟨_, -, hif⟩ := Option.bind_eq_some_iff.mp hw
    split_ifs at hif
    cases hif
  · cases hw

lemma step_backed {past : List Event} {st : Server} (e : Event) (h : Backed cfg past st) :
    Backed cfg (past ++ [e]) (step cfg st e).1 := by
  refine ⟨step_owned h.owned e, step_device h e, fun g o ho => ?_⟩
  rw [step_entry] at ho
  cases hw : written cfg g st e with
  | some w =>
    rw [hw, Option.getD_some] at ho
    subst ho
    obtain ⟨hid, hreg⟩ := written_offer h hw
    exact ⟨hid, e, by simp, hreg⟩
  | none =>
    rw [hw, Option.getD_none] at ho
    have hold : st.activeOffers g = some o := by
      split at ho
      · exact Option.eq_some_of_filter_eq_some ho
      · exact ho
    obtain ⟨hid, e', he', hreg⟩ := h.offer g o hold
    exact ⟨hid, e', by simp [he'], hreg⟩

lemma exec_backed (es : List Event) : Backed cfg es (Run.exec (step cfg) init es) := by
  have h := Run.exec_inv_of_past (fun past s e h => step_backed e h) (@backed_init cfg) es
  rwa [List.nil_append] at h

/-! ### The two sources of a frame -/

/-- One event that hands out a frame: a relay message, and an offer before it. -/
lemma relay_origin {pre : List Event} {st : Server} (hback : Backed cfg pre st) {e : Event} {x : SessionId}
    {m : FileRelayData} {b : Bool} (hsend : Act.send x (.fileRelayData m) b ∈ (step cfg st e).2) :
    3 ≤ cfg.fileTransferLevel ∧ ∃ sid relay now net, e = .text sid (some (.fileRelay relay)) now net ∧
      (cfg.session sid).username = (cfg.session x).username ∧
      (cfg.session sid).deviceId = some m.sender ∧
      (∃ target, relay.targetDevice = some target ∧ (cfg.session x).deviceId = some target) ∧
      relay.fileId = some m.fileId ∧ relay.data = m.data ∧ relay.fileSize ≤ cfg.maxRelaySize ∧
      ∃ sid' offer now' net', .text sid' (some (.fileOffer offer)) now' net' ∈ pre ∧
        offer.fileId = some m.fileId ∧ offer.fileName = m.fileName ∧ offer.mimeType = m.mimeType ∧
        offer.fileSize = m.fileSize ∧ offer.checksum = m.checksum := by
  rcases step_sends hsend with ⟨sid, msg, now, net, cs, rfl, hg, hsends⟩ | ⟨-, hack | hclip | ⟨er, herr⟩⟩
  · generalize hf : WsMessage.fileRelayData m = f at hsends
    cases hsends with
    | @relayData relay g o hl hid ho hsize t ht hin hu hd =>
      obtain rfl : m = ⟨g, o.fileName, o.mimeType, o.fileSize, o.checksum, relay.data, cs.deviceId⟩ := by
        simpa [relayDataOf] using hf
      obtain ⟨hkey, e, he, sid', offer, now', net', cs', rfl, hoffer, -, -, heq⟩ := hback.offer g o ho
      refine ⟨by omega, sid, relay, now, net, rfl, ?_, hback.device_of_getSession hg,
        ⟨t.deviceId, hd, hback.device t ht⟩, hid, rfl, by omega, sid', offer, now', net', he,
        by rw [hoffer, hkey], ?_⟩
      · rw [user_of_getSession hback.owned hg, hback.owned.user t ht, hu]
      · rw [heq]
        exact ⟨rfl, rfl, rfl, rfl⟩
    | _ => cases hf
  · cases hack
  · cases hclip
  · cases herr

/-- **Where a relayed frame comes from.** It answers a relay message from a session of the same user,
that names the receiving device, and carries its data. The name, the type, the size and the checksum
are those of an offer with the same id that some session, of any user, made earlier. -/
theorem relay_sources {es : List Event} {x : SessionId} {m : FileRelayData} {b : Bool}
    (h : Act.send x (.fileRelayData m) b ∈ Run.outs (step cfg) init es) :
    3 ≤ cfg.fileTransferLevel ∧ ∃ pre sid relay now net post,
      es = pre ++ .text sid (some (.fileRelay relay)) now net :: post ∧
      (cfg.session sid).username = (cfg.session x).username ∧
      (cfg.session sid).deviceId = some m.sender ∧
      (∃ target, relay.targetDevice = some target ∧ (cfg.session x).deviceId = some target) ∧
      relay.fileId = some m.fileId ∧ relay.data = m.data ∧ relay.fileSize ≤ cfg.maxRelaySize ∧
      ∃ sid' offer now' net', .text sid' (some (.fileOffer offer)) now' net' ∈ pre ∧
        offer.fileId = some m.fileId ∧ offer.fileName = m.fileName ∧ offer.mimeType = m.mimeType ∧
        offer.fileSize = m.fileSize ∧ offer.checksum = m.checksum := by
  obtain ⟨pre, e, post, rfl, hsend⟩ := Run.mem_outs.mp h
  obtain ⟨hlevel, sid, relay, now, net, rfl, horigin⟩ := relay_origin (exec_backed pre) hsend
  exact ⟨hlevel, pre, sid, relay, now, net, post, rfl, horigin⟩

/-! ### The data of a frame -/

/-- What is relayed to a device is one of the files with its id, as a C client or Android encodes it. -/
def RelaysFile (evp : Evp) (files : String → Set Bytes) (m : FileRelay) : Prop :=
  ∀ g target, m.fileId = some g → m.targetDevice = some target →
    ∃ d ∈ files g, 4 * ((d.length + 2) / 3) < 2 ^ 31 ∧ ∃ s, m.data = some s ∧
      (ftBase64Encode evp d = .block (utf8 s ++ [0]) (utf8 s).length ∨ base64Encode evp d = utf8 s)

variable {D : Type} {dbl : Doubles D} {evp : Evp}

lemma encoded (hevp : evp.Documented) {d b64 : Bytes} (hd : 4 * ((d.length + 2) / 3) < 2 ^ 31)
    (h : ftBase64Encode evp d = .block (b64 ++ [0]) b64.length ∨ base64Encode evp d = b64) :
    b64 = Base64.encode d := by
  rcases h with h | h
  · rw [ftBase64Encode_eq hevp hd] at h
    exact (List.append_cancel_right (Block.block.inj h).1).symm
  · rw [← h, base64Encode, hevp.android]

lemma receive_relayData {m : FileRelayData} {members : List (Bytes × Item D)}
    (hw : Written dbl members (.fileRelayData m)) {n : ℕ} (hn : n ≤ nestingLimit) {t : Bytes}
    (ht : Json.Text dbl.value id n t (.object members)) (platform : Client.Platform) :
    receive dbl platform t = some (.fileRelayData (some (cut m.fileId)) (m.fileName.map cut) (m.mimeType.map cut)
      (m.data.map cut)) := by
  have htype := getStringValue_type hw
  have hfid := @getStringValue_component _ _ _ _ hw "fileId" (some m.fileId) (by simp [components])
  have hfn := @getStringValue_component _ _ _ _ hw "fileName" m.fileName (by simp [components])
  have hmt := @getStringValue_component _ _ _ _ hw "mimeType" m.mimeType (by simp [components])
  have hdata := @getStringValue_component _ _ _ _ hw "data" m.data (by simp [components])
  have hcase (name : String) (hname : name ∈ types) :
      ascii (WsMessage.fileRelayData m).type = ascii name ↔ "file_relay_data" = name := ascii_type_iff hname
  simp [receive, parse_members hn ht, htype, hcase "hello_ack" (by simp [types]),
    hcase "clipboard" (by simp [types]), hcase "file_notify" (by simp [types]),
    hcase "file_peer_info" (by simp [types]), hcase "file_relay_request" (by simp [types]),
    hcase "file_relay_data" (by simp [types]), hfid, hfn, hmt, hdata]

/-- **Every file that arrives through the relay has been sent.** If the sessions of a user relay to
their devices nothing but encoded files, then from every frame with data that is handed to one of them, and every
JSON text of it, a C client reads a text and decodes it to one of the files with the id of the frame.
Offers, and the messages of other users, may contain anything. -/
theorem relay_arrives (hevp : evp.Documented) {u : String} {files : String → Set Bytes} {es : List Event}
    (hes : ∀ sid m now net, .text sid (some (.fileRelay m)) now net ∈ es →
      (cfg.session sid).username = some u → RelaysFile evp files m)
    {x : SessionId} (hx : (cfg.session x).username = some u) {m : FileRelayData} {b : Bool}
    (hsend : Act.send x (.fileRelayData m) b ∈ Run.outs (step cfg) init es)
    {members : List (Bytes × Item D)} (hw : Written dbl members (.fileRelayData m)) {n : ℕ}
    (hn : n ≤ nestingLimit) {t : Bytes} (ht : Json.Text dbl.value id n t (.object members)) :
    ∃ d ∈ files m.fileId, ∃ b64 fill,
      (∀ platform, receive dbl platform t = some (.fileRelayData (some (cut m.fileId)) (m.fileName.map cut)
        (m.mimeType.map cut) (some b64))) ∧
      relayData evp (b64 ++ [0]) = .block (d ++ fill) d.length := by
  obtain ⟨pre, e, post, rfl, hstep⟩ := Run.mem_outs.mp hsend
  obtain ⟨-, sid, relay, now, net, rfl, huser, -, ⟨target, htarget, -⟩, hid, hdata, -⟩ :=
    relay_origin (exec_backed pre) hstep
  obtain ⟨d, hd, hlen, s, hs, hencode⟩ :=
    hes sid relay now net (by simp) (huser.trans hx) m.fileId target hid htarget
  have htext : utf8 s = Base64.encode d := encoded hevp hlen hencode
  have hcut : cut s = utf8 s := by rw [cut, htext, cString_encode]
  obtain ⟨fill, hdecode⟩ := relayData_eq hevp hlen
  refine ⟨d, hd, utf8 s, fill, fun platform => ?_, by rw [htext, hdecode]⟩
  rw [receive_relayData hw hn ht, ← hdata, hs, Option.map_some, hcut]

/-! ### One file -/

def relaySessions : Config := { threeSessions with fileTransferLevel := 3 }

/-- Alice's laptop offers a file of four bytes and relays it to her phone. -/
def relayEvents : List Event :=
  threeConnects ++
    [.text "a1" (some (.fileOffer ⟨none, some "f", some "n.bin", none, 4, none, none⟩)) 3 allOk,
      .text "a1" (some (.fileRelay ⟨none, some "f", 4, some "phone", some "TWFu/w=="⟩)) 4 allOk]

def relayFrame : FileRelayData := ⟨"f", some "n.bin", none, 4, none, some "TWFu/w==", "laptop"⟩

lemma relayFrame_sent :
    Act.send "a2" (.fileRelayData relayFrame) true ∈ Run.outs (step relaySessions) init relayEvents := by
  decide

theorem relay_sources_four : ∃ pre sid relay now net post,
    relayEvents = pre ++ .text sid (some (.fileRelay relay)) now net :: post ∧
    (relaySessions.session sid).deviceId = some "laptop" ∧ relay.data = some "TWFu/w==" := by
  obtain ⟨-, pre, sid, relay, now, net, post, heq, -, hdevice, -, -, hdata, -⟩ := relay_sources relayFrame_sent
  exact ⟨pre, sid, relay, now, net, post, heq, hdevice, hdata⟩

/-- The four bytes on alice's phone. -/
theorem relay_arrives_four : ∃ t,
    render integers nestingLimit (.object (fields integers (components (.fileRelayData relayFrame)))) = some t ∧
    ∃ d ∈ ({[77, 97, 110, 255]} : Set Bytes), ∃ b64 fill,
      (∀ platform, receive integers platform t =
        some (.fileRelayData (some (cut "f")) (some (cut "n.bin")) none (some b64))) ∧
      relayData sampleEvp (b64 ++ [0]) = .block (d ++ fill) d.length := by
  have hsmall : ShortNumbers (.fileRelayData relayFrame) := by
    simp [ShortNumbers, components, relayFrame]
  have h0 : NoZero (.fileRelayData relayFrame) := by
    simp [NoZero, components, relayFrame]
  obtain ⟨t, hrender, ht⟩ := text_fields exact_integers hsmall h0
  refine ⟨t, hrender, ?_⟩
  refine @relay_arrives relaySessions ℤ integers sampleEvp sampleEvp_documented "alice"
    (fun _ => {[77, 97, 110, 255]}) relayEvents ?_ "a2" (by decide) relayFrame true relayFrame_sent
    _ written_fields 2 (by decide) t ht
  intro sid m now net he _ g target _ _
  have hm : m = ⟨none, some "f", 4, some "phone", some "TWFu/w=="⟩ := by
    simp only [relayEvents, threeConnects, List.mem_append, List.mem_cons, List.not_mem_nil, or_false] at he
    rcases he with (he | he | he) | he | he <;> cases he
    rfl
  subst hm
  exact ⟨_, rfl, by decide, "TWFu/w==", rfl, .inr (by decide)⟩

end SyncClipboard.RelayPath
