import SyncClipboard.Views

/-!
Who is sent what: every frame a step hands to a session goes to the session the event came
from, to another session of the same user, or to the session that made the offer the message
asked for. Clipboard frames never take the third way.
-/

namespace SyncClipboard.Acts

open Keyed ServerModel Dispatcher Views

def isClip : WsMessage → Bool
  | .clipboard _ => true
  | _ => false

/-- The frames handed to one session, delivered or not. -/
def handedTo (sid : SessionId) : List Act → List WsMessage
  | [] => []
  | .send t f _ :: as => if t = sid then f :: handedTo sid as else handedTo sid as
  | .close _ _ _ :: as => handedTo sid as

lemma handedTo_append (sid : SessionId) (as bs : List Act) :
    handedTo sid (as ++ bs) = handedTo sid as ++ handedTo sid bs := by
  induction as with
  | nil => rfl
  | cons a as ih => cases a <;> simp only [List.cons_append, handedTo, ih]; split <;> rfl

lemma deliveredTo_append (sid : SessionId) (as bs : List Act) :
    deliveredTo sid (as ++ bs) = deliveredTo sid as ++ deliveredTo sid bs := by
  induction as with
  | nil => rfl
  | cons a as ih =>
    rcases a with ⟨t, f, _ | _⟩ | ⟨t, c, r⟩ <;> simp only [List.cons_append, deliveredTo, ih]
    split <;> rfl

lemma mem_deliveredTo {sid : SessionId} {f : WsMessage} {as : List Act}
    (h : f ∈ deliveredTo sid as) : Act.send sid f true ∈ as := by
  induction as with
  | nil => simp [deliveredTo] at h
  | cons a as ih =>
    rcases a with ⟨t, g, _ | _⟩ | ⟨t, c, r⟩ <;> simp only [deliveredTo] at h
    · exact List.mem_cons_of_mem _ (ih h)
    · split_ifs at h with ht
      · rcases List.mem_cons.mp h with rfl | h'
        · subst ht; simp
        · exact List.mem_cons_of_mem _ (ih h')
      · exact List.mem_cons_of_mem _ (ih h)
    · exact List.mem_cons_of_mem _ (ih h)

/-! ### The sends of the services -/

lemma mem_sendMessage {net : Net} {sid : SessionId} {f : WsMessage} {st : Server} {a : Act}
    (h : a ∈ (sendMessage net sid f st).acts) : ∃ b, a = .send sid f b := by
  unfold sendMessage at h
  cases hn : net sid f <;> simp only [hn, List.mem_singleton] at h <;> exact ⟨_, h⟩

lemma mem_sendJson {net : Net} {sid : SessionId} {f : WsMessage} {st : Server} {a : Act}
    (h : a ∈ (sendJson net sid f st).acts) : ∃ b, a = .send sid f b := by
  unfold sendJson at h
  split_ifs at h
  · simp at h
  · exact mem_sendMessage h

lemma mem_sendEach {net : Net} {f : WsMessage} {st : Server} {ts : List ClientSession} {a : Act}
    (h : a ∈ (sendEach net f st ts).acts) : ∃ t ∈ ts, ∃ b, a = .send t.session f b := by
  induction ts with
  | nil => simp [sendEach] at h
  | cons t ts ih =>
    unfold sendEach at h
    dsimp only at h
    split_ifs at h
    · exact ⟨t, by simp, mem_sendMessage h⟩
    · rcases List.mem_append.mp h with h' | h'
      · exact ⟨t, by simp, mem_sendMessage h'⟩
      · obtain ⟨t', ht', hb⟩ := ih h'
        exact ⟨t', by simp [ht'], hb⟩

lemma mem_sendToSender {net : Net} {o : Offer} {f : WsMessage} {st : Server} {a : Act}
    (h : a ∈ (sendToSender net o f st).acts) : ∃ b, a = .send o.senderSessionId f b := by
  unfold sendToSender at h
  cases hg : getSession o.senderSessionId st.sessions with
  | none => simp [hg] at h
  | some s =>
    rw [hg] at h
    have hk : s.session = o.senderSessionId := (mem_of_get hg).2
    rw [← hk]; exact mem_sendJson h

lemma mem_taskActs {net : Net} {f : WsMessage} {t : ClientSession} {a : Act}
    (h : a ∈ taskActs net f t) : ∃ b, a = .send t.session f b := by
  unfold taskActs at h
  cases hn : net t.session f <;> simp only [hn, List.mem_singleton, List.not_mem_nil] at h <;>
    exact ⟨_, h⟩

lemma mem_broadcastTargets {u : String} {sid : SessionId} {reg : Registry} {t : ClientSession} :
    t ∈ broadcastTargets u sid reg ↔
      t ∈ reg ∧ t.loggedIn = true ∧ u = t.username ∧ t.session ≠ sid := by
  simp [broadcastTargets, and_assoc]

lemma mem_broadcastToUser {net : Net} {u : String} {sid : SessionId} {f : WsMessage}
    {st : Server} {a : Act} (h : a ∈ (broadcastToUser net u sid f st).acts) :
    ∃ t ∈ broadcastTargets u sid st.sessions, ∃ b, a = .send t.session f b := by
  obtain ⟨t, ht, ha⟩ := List.mem_flatMap.mp h
  exact ⟨t, ht, mem_taskActs ha⟩

/-! ### The sends of a message -/

/-- The id under which the handler of a message looks into the offer store. -/
def asked (cfg : Config) : WsMessage → Option String
  | .fileOffer m => if cfg.fileTransferLevel ≤ 0 then none else m.fileId
  | .fileRequest m => m.fileId
  | .fileRelay m => if cfg.fileTransferLevel < 3 then none else m.fileId
  | .fileTransferResult m => m.fileId
  | _ => none

variable {cfg : Config}

variable (cfg) in
/-- Every frame the handler of a message may hand to a session, with the guards passed on the way:
in answer to `msg` of session `sid`, `x` is handed `f`. -/
inductive Sends (sid : SessionId) (cs : ClientSession) (st : Server) :
    WsMessage → SessionId → WsMessage → Prop
  | clipboard (m : Clipboard) {t : ClientSession}
      (ht : t ∈ broadcastTargets cs.username sid st.sessions) :
      Sends sid cs st (.clipboard m) t.session (.clipboard ⟨m.msgId, m.content, some cs.deviceId⟩)
  | notify {m : FileOffer} {g : String} (hl : ¬ cfg.fileTransferLevel ≤ 0) (hg : m.fileId = some g)
      {t : ClientSession} (ht : t ∈ broadcastTargets cs.username sid st.sessions) :
      Sends sid cs st (.fileOffer m) t.session (notifyOf cfg sid cs g m)
  | toSender {m : FileRequest} {g : String} {o : Offer} (hg : m.fileId = some g)
      (ho : st.activeOffers g = some o) :
      Sends sid cs st (.fileRequest m) o.senderSessionId (peerInfoForSender cfg sid cs g m o)
  | toReceiver {m : FileRequest} {g : String} {o : Offer} (hg : m.fileId = some g)
      (ho : st.activeOffers g = some o) :
      Sends sid cs st (.fileRequest m) sid (peerInfoForReceiver cfg sid g o)
  | relayData {m : FileRelay} {g : String} {o : Offer} (hl : ¬ cfg.fileTransferLevel < 3)
      (hg : m.fileId = some g) (ho : st.activeOffers g = some o)
      (hsize : ¬ cfg.maxRelaySize < m.fileSize) {t : ClientSession} (ht : t ∈ st.sessions)
      (hin : t.loggedIn = true) (hu : t.username = cs.username)
      (hd : m.targetDevice = some t.deviceId) :
      Sends sid cs st (.fileRelay m) t.session (relayDataOf cs g m o)
  | relayRequest {m : FileRelay} {g : String} {o : Offer} (hl : ¬ cfg.fileTransferLevel < 3)
      (hg : m.fileId = some g) (ho : st.activeOffers g = some o) (hd : m.targetDevice = none) :
      Sends sid cs st (.fileRelay m) o.senderSessionId (.fileRelayRequest ⟨g, cs.deviceId⟩)
  | error {m : WsMessage} (e : Error) : Sends sid cs st m sid (.error e)
  | pong (ts : ℤ) : Sends sid cs st (.ping ts) sid (.pong ts)

lemma refused_sends {net : Net} {sid : SessionId} {cs : ClientSession} {msg : WsMessage}
    {st st' : Server} {x : SessionId} {f : WsMessage} {b : Bool} {e : Error}
    (h : Act.send x f b ∈ (sendJson net sid (.error e) st').acts) : Sends cfg sid cs st msg x f := by
  obtain ⟨_, he⟩ := mem_sendJson h
  cases he
  exact .error e

lemma handleFileOffer_sends {net : Net} {now : ℤ} {sid : SessionId} {cs : ClientSession}
    {m : FileOffer} {st : Server} {x : SessionId} {f : WsMessage} {b : Bool}
    (h : Act.send x f b ∈ (handle cfg net now sid cs (.fileOffer m) st).acts) :
    Sends cfg sid cs st (.fileOffer m) x f := by
  simp only [handle, handleFileOffer] at h
  split_ifs at h with hl
  · exact refused_sends h
  · cases hf : m.fileId with
    | none => simp [hf] at h
    | some g =>
      rw [hf] at h
      obtain ⟨t, ht, _, he⟩ := mem_broadcastToUser h
      cases he
      exact .notify hl hf ht

lemma handleFileRequest_sends {net : Net} {now : ℤ} {sid : SessionId} {cs : ClientSession}
    {m : FileRequest} {st : Server} {x : SessionId} {f : WsMessage} {b : Bool}
    (h : Act.send x f b ∈ (handle cfg net now sid cs (.fileRequest m) st).acts) :
    Sends cfg sid cs st (.fileRequest m) x f := by
  simp only [handle, handleFileRequest] at h
  cases hf : m.fileId with
  | none => simp [hf] at h
  | some g =>
    simp only [hf] at h
    cases ho : st.activeOffers g with
    | none =>
      simp only [ho] at h
      exact refused_sends h
    | some o =>
      simp only [ho, Res.andThen] at h
      have toSender : Act.send x f b ∈
          (sendToSender net o (peerInfoForSender cfg sid cs g m o) st).acts →
          Sends cfg sid cs st (.fileRequest m) x f := by
        intro hm
        obtain ⟨_, he⟩ := mem_sendToSender hm
        cases he
        exact .toSender hf ho
      split at h
      · exact toSender h
      · rcases List.mem_append.mp h with h | h
        · exact toSender h
        · obtain ⟨_, he⟩ := mem_sendJson h
          cases he
          exact .toReceiver hf ho

lemma handleFileRelay_sends {net : Net} {now : ℤ} {sid : SessionId} {cs : ClientSession}
    {m : FileRelay} {st : Server} {x : SessionId} {f : WsMessage} {b : Bool}
    (h : Act.send x f b ∈ (handle cfg net now sid cs (.fileRelay m) st).acts) :
    Sends cfg sid cs st (.fileRelay m) x f := by
  by_cases hl : cfg.fileTransferLevel < 3
  · simp only [handle, handleFileRelay, if_pos hl] at h
    exact refused_sends h
  · simp only [handle, handleFileRelay, if_neg hl] at h
    cases hf : m.fileId with
    | none => simp [hf] at h
    | some g =>
      simp only [hf] at h
      cases ho : st.activeOffers g with
      | none =>
        simp only [ho] at h
        exact refused_sends h
      | some o =>
        simp only [ho] at h
        split_ifs at h with hsize
        · exact refused_sends h
        · cases hd : m.targetDevice with
          | some d =>
            simp only [hd] at h
            obtain ⟨t, hm, _, he⟩ := mem_sendEach h
            simp only [deviceTargets, List.mem_insertionSort, List.mem_filter, Bool.and_eq_true,
              decide_eq_true_eq] at hm
            obtain ⟨hmem, ⟨⟨hin, hu⟩, hdev⟩, -⟩ := hm
            cases he
            exact .relayData hl hf ho hsize hmem hin hu.symm (by rw [hd, hdev])
          | none =>
            simp only [hd] at h
            obtain ⟨_, he⟩ := mem_sendToSender h
            cases he
            exact .relayRequest hl hf ho hd

/-- **What the handler of a message sends.** -/
theorem handle_sends {net : Net} {now : ℤ} {sid : SessionId} {cs : ClientSession}
    {msg : WsMessage} {st : Server} {x : SessionId} {f : WsMessage} {b : Bool}
    (h : Act.send x f b ∈ (handle cfg net now sid cs msg st).acts) :
    Sends cfg sid cs st msg x f := by
  cases msg with
  | clipboard m =>
    obtain ⟨t, ht, _, he⟩ := mem_broadcastToUser h
    cases he
    exact .clipboard m ht
  | fileOffer m => exact handleFileOffer_sends h
  | fileRequest m => exact handleFileRequest_sends h
  | fileRelay m => exact handleFileRelay_sends h
  | fileTransferResult m =>
    simp only [handle, handleResult] at h
    cases hf : m.fileId with
    | none => simp [hf] at h
    | some g => simp only [hf] at h; split at h <;> simp at h
  | ping ts =>
    obtain ⟨_, he⟩ := mem_sendJson h
    cases he
    exact .pong ts
  | _ => simp [handle] at h

/-- **Where the frames of a message go.** -/
theorem handle_send {net : Net} {now : ℤ} {sid : SessionId} {cs : ClientSession}
    {msg : WsMessage} {st : Server} {x : SessionId} {f : WsMessage} {b : Bool}
    (h : Act.send x f b ∈ (handle cfg net now sid cs msg st).acts) :
    (x = sid ∧ isClip f = false) ∨
    (∃ t ∈ st.sessions, t.session = x ∧ t.username = cs.username ∧
      (isClip f = true → isClip msg = true)) ∨
    (∃ g o, asked cfg msg = some g ∧ st.activeOffers g = some o ∧ x = o.senderSessionId ∧
      isClip f = false) := by
  cases handle_sends h with
  | clipboard m ht =>
    obtain ⟨hmem, -, hu, -⟩ := mem_broadcastTargets.mp ht
    exact .inr (.inl ⟨_, hmem, rfl, hu.symm, fun _ => rfl⟩)
  | notify hl hg ht =>
    obtain ⟨hmem, -, hu, -⟩ := mem_broadcastTargets.mp ht
    exact .inr (.inl ⟨_, hmem, rfl, hu.symm, by simp [notifyOf, isClip]⟩)
  | toSender hg ho => exact .inr (.inr ⟨_, _, hg, ho, rfl, rfl⟩)
  | toReceiver hg ho => exact .inl ⟨rfl, rfl⟩
  | relayData hl hg ho hsize ht hin hu hd =>
    exact .inr (.inl ⟨_, ht, rfl, hu, by simp [relayDataOf, isClip]⟩)
  | relayRequest hl hg ho hd => exact .inr (.inr ⟨_, _, by simp [asked, hl, hg], ho, rfl, rfl⟩)
  | error e => exact .inl ⟨rfl, rfl⟩
  | pong ts => exact .inl ⟨rfl, rfl⟩

lemma getForDevice_clip {now : ℤ} {u d : String} {cache cache' : Cache} {f : WsMessage}
    (h : getForDevice now u d cache = (some f, cache')) : isClip f = true := by
  unfold getForDevice at h
  split at h
  · cases h
  · split_ifs at h <;> cases h
    rfl

lemma mem_established {net : Net} {now : ℤ} {sid : SessionId} {st : Server} {x : SessionId}
    {f : WsMessage} {b : Bool}
    (h : Act.send x f b ∈ (afterConnectionEstablished cfg net now sid st).acts) :
    x = sid ∧ (f = helloAckFrame cfg ∨ isClip f = true) := by
  have hrep : ∀ {u d : String} {st' : Server},
      Act.send x f b ∈ (replay net now sid u d st').acts → x = sid ∧ isClip f = true := by
    intro u d st' hm
    unfold replay at hm
    rcases hg : getForDevice now u d st'.cache with ⟨_ | g, c⟩ <;> rw [hg] at hm
    · simp at hm
    · obtain ⟨_, he⟩ := mem_sendMessage hm
      cases he
      exact ⟨rfl, getForDevice_clip hg⟩
  unfold afterConnectionEstablished at h
  split at h
  · split at h
    · simp at h
    · unfold Res.andThen at h
      split at h
      · obtain ⟨_, he⟩ := mem_sendJson h
        cases he
        exact ⟨rfl, .inl rfl⟩
      · rcases List.mem_append.mp h with h' | h'
        · obtain ⟨_, he⟩ := mem_sendJson h'
          cases he
          exact ⟨rfl, .inl rfl⟩
        · exact ⟨(hrep h').1, .inr (hrep h').2⟩
  · simp at h

/-- The frames of a text message: those of its handler, and an error frame to its sender. -/
lemma mem_handleTextMessage {net : Net} {now : ℤ} {sid : SessionId} {msg : WsMessage}
    {st : Server} {x : SessionId} {f : WsMessage} {b : Bool}
    (h : Act.send x f b ∈ (handleTextMessage cfg net now sid (some msg) st).acts) :
    (x = sid ∧ f = .error ⟨"INTERNAL_ERROR", "Server error handling " ++ msg.type, true⟩) ∨
      ∃ cs, getSession sid st.sessions = some cs ∧
        Act.send x f b ∈ (handle cfg net now sid cs msg st).acts := by
  have hd : Act.send x f b ∈ (dispatch cfg net now sid msg st).acts →
      ∃ cs, getSession sid st.sessions = some cs ∧
        Act.send x f b ∈ (handle cfg net now sid cs msg st).acts := by
    intro hm
    unfold dispatch at hm
    cases hg : getSession sid st.sessions with
    | none => simp [hg] at hm
    | some cs => rw [hg] at hm; exact ⟨cs, rfl, hm⟩
  unfold handleTextMessage at h
  dsimp only at h
  split at h
  · rcases List.mem_append.mp h with h' | h'
    · exact .inr (hd h')
    · obtain ⟨_, he⟩ := mem_sendJson h'
      cases he; exact .inl ⟨rfl, rfl⟩
  · exact .inr (hd h)

/-- **What a step sends**: the frames of a message of a registered session, and to the session
the event came from a greeting, a replay or an error. -/
theorem step_sends {st : Server} {e : Event} {x : SessionId} {f : WsMessage} {b : Bool}
    (h : Act.send x f b ∈ (step cfg st e).2) :
    (∃ sid msg now net cs, e = .text sid (some msg) now net ∧
      getSession sid st.sessions = some cs ∧ Sends cfg sid cs st msg x f) ∨
    (e.session? = some x ∧ (f = helloAckFrame cfg ∨ isClip f = true ∨ ∃ er, f = .error er)) := by
  cases e with
  | established sid now net =>
    obtain ⟨rfl, hf⟩ := mem_established h
    exact .inr ⟨rfl, hf.imp_right .inl⟩
  | text sid payload now net =>
    cases payload with
    | none =>
      obtain ⟨_, he⟩ := mem_sendJson h
      cases he
      exact .inr ⟨rfl, .inr (.inr ⟨_, rfl⟩)⟩
    | some msg =>
      rcases mem_handleTextMessage h with ⟨rfl, rfl⟩ | ⟨cs, hg, hm⟩
      · exact .inr ⟨rfl, .inr (.inr ⟨_, rfl⟩)⟩
      · exact .inl ⟨sid, msg, now, net, cs, rfl, hg, handle_sends hm⟩
  | closed sid => simp [step, react] at h
  | evict now => simp [step, react] at h
  | cleanup now => simp [step, react] at h

/-- **Where the frames of a step go**: to the user the event came from, or to the session that
made the offer the message asked for. -/
theorem step_send {st : Server} (ho : Owned cfg st) {e : Event} {x : SessionId} {f : WsMessage}
    {b : Bool} (h : Act.send x f b ∈ (step cfg st e).2) :
    (cfg.session x).username = userOf cfg e ∨
      (isClip f = false ∧ ∃ sid msg now net cs g o, e = .text sid (some msg) now net ∧
        getSession sid st.sessions = some cs ∧ asked cfg msg = some g ∧
        st.activeOffers g = some o ∧ x = o.senderSessionId) := by
  cases e with
  | established sid now net => rw [(mem_established h).1]; exact .inl rfl
  | text sid payload now net =>
    cases payload with
    | none =>
      obtain ⟨_, he⟩ := mem_sendJson h
      cases he; exact .inl rfl
    | some msg =>
      rcases mem_handleTextMessage h with ⟨rfl, -⟩ | ⟨cs, hg, hm⟩
      · exact .inl rfl
      · rcases handle_send hm with ⟨rfl, -⟩ | ⟨t, ht, rfl, hu, -⟩ | ⟨g, o, ha, hog, hx, hf⟩
        · exact .inl rfl
        · left
          rw [ho.user t ht, hu, ← user_of_getSession ho hg]; rfl
        · exact .inr ⟨hf, sid, msg, now, net, cs, g, o, rfl, hg, ha, hog, hx⟩
  | closed sid => simp [step, react] at h
  | evict now => simp [step, react] at h
  | cleanup now => simp [step, react] at h

/-! ### The entry of one id -/

variable (cfg) in
/-- What an event writes into the offer store under an id, whatever was there. -/
def written (F : String) (st : Server) : Event → Option (Option Offer)
  | .text sid (some (.fileOffer m)) now _ =>
    (getSession sid st.sessions).bind fun cs =>
      if asked cfg (.fileOffer m) = some F then some (some (offerOf cfg now sid cs F m)) else none
  | .text sid (some (.fileTransferResult m)) _ _ =>
    (getSession sid st.sessions).bind fun _ => if m.fileId = some F then some none else none
  | _ => none

lemma step_entry {F : String} (st : Server) (e : Event) :
    (step cfg st e).1.activeOffers F =
      (written cfg F st e).getD
        (match e with
          | .cleanup now => (st.activeOffers F).filter fun o => !decide (o.timestamp < now - offerTtlMs)
          | _ => st.activeOffers F) := by
  cases e with
  | established sid now net =>
    show (afterConnectionEstablished cfg net now sid st).st.activeOffers F = _
    rw [established_st]
    split
    · cases addAuthenticated sid _ _ st.sessions <;> rfl
    · rfl
  | text sid payload now net =>
    cases payload with
    | none => simp [step, react, handleTextMessage, sendError, written]
    | some msg =>
      show (handleTextMessage cfg net now sid (some msg) st).st.activeOffers F = _
      rw [handleTextMessage_st]
      unfold dispatch
      cases hg : getSession sid st.sessions with
      | none => cases msg <;> simp [written, hg]
      | some cs =>
        show (handle cfg net now sid cs msg st).st.activeOffers F = _
        rw [handle_offers]
        cases msg with
        | fileOffer m =>
          dsimp only
          by_cases hl : cfg.fileTransferLevel ≤ 0
          · simp [written, asked, hl]
          · cases hf : m.fileId with
            | none => simp [written, asked, hl, hf]
            | some g =>
              rw [if_neg hl, Option.elim_some, registerOffer]
              by_cases hfg : F = g
              · subst hfg; simp [written, asked, hl, hf, hg, offerOf]
              · have hne : F ≠ (offerOf cfg now sid cs g m).fileId := hfg
                rw [Function.update_of_ne hne]
                simp [written, asked, hl, hf, hg, Ne.symm hfg]
        | fileTransferResult m =>
          dsimp only
          cases hf : m.fileId with
          | none => simp [written, hf]
          | some g =>
            rw [Option.elim_some, removeOffer]
            by_cases hfg : F = g
            · subst hfg; simp [written, hf, hg]
            · rw [Function.update_of_ne hfg]
              simp [written, hf, hg, Ne.symm hfg]
        | _ => rfl
  | closed sid => rfl
  | evict now => rfl
  | cleanup now => rfl

lemma written_congr {F : String} {s t : Server} {e : Event}
    (h : ∀ sid, e.session? = some sid → getSession sid s.sessions = getSession sid t.sessions) :
    written cfg F s e = written cfg F t e := by
  cases e with
  | text sid payload now net =>
    have hsame := h sid rfl
    cases payload with
    | none => rfl
    | some msg => cases msg <;> simp only [written, hsame]
  | _ => rfl

/-- A message writes under the id it asks for, as the user it comes from. -/
lemma written_some {F : String} {st : Server} {sid : SessionId} {msg : WsMessage} {now : ℤ}
    {net : Net} {w : Option Offer}
    (h : written cfg F st (.text sid (some msg) now net) = some w) :
    asked cfg msg = some F ∧ ∃ cs, getSession sid st.sessions = some cs ∧
      ∀ o ∈ w, o.senderUsername = cs.username := by
  cases msg with
  | fileOffer m =>
    obtain ⟨cs, hg, hw⟩ := Option.bind_eq_some_iff.mp h
    split_ifs at hw with ha
    refine ⟨ha, cs, hg, ?_⟩
    cases hw
    simp [offerOf]
  | fileTransferResult m =>
    obtain ⟨cs, hg, hw⟩ := Option.bind_eq_some_iff.mp h
    split_ifs at hw with ha
    refine ⟨ha, cs, hg, ?_⟩
    cases hw
    simp
  | _ => simp [written] at h

/-! ### The same frames in states that look alike -/

variable {low : String → Bool}

lemma replay_acts {u : String} {s t : Server} (h : s.cache u = t.cache u) (net : Net) (now : ℤ)
    (sid : SessionId) (d : String) :
    SameActs (replay net now sid u d s) (replay net now sid u d t) := by
  have hfr := (getForDevice_congr h now d).1
  unfold replay
  rcases hs : getForDevice now u d s.cache with ⟨fs, cs⟩
  rcases ht : getForDevice now u d t.cache with ⟨ft, ct⟩
  rw [hs, ht] at hfr
  dsimp only at hfr
  subst hfr
  cases fs with
  | none => exact ⟨rfl, rfl⟩
  | some f => exact sendMessage_acts net sid f _ _

lemma established_acts {s t : Server} (h : SameView low s t) {sid : SessionId}
    (hu : ∀ v, (cfg.session sid).username = some v → low v = true) (net : Net) (now : ℤ) :
    SameActs (afterConnectionEstablished cfg net now sid s)
      (afterConnectionEstablished cfg net now sid t) := by
  unfold afterConnectionEstablished
  cases hn : (cfg.session sid).username with
  | none => exact ⟨rfl, rfl⟩
  | some u =>
    have hlow : low u = true := hu u hn
    cases (cfg.session sid).deviceId with
    | none => exact ⟨rfl, rfl⟩
    | some d =>
      dsimp only
      have hcount : sessionCount u s.sessions = sessionCount u t.sessions := by
        rw [← sessionCount_low hlow s.sessions, h.sessions, sessionCount_low hlow]
      unfold addAuthenticated
      rw [hcount]
      by_cases hc : maxSessionsPerUser ≤ sessionCount u t.sessions
      · rw [if_pos hc, if_pos hc]; exact ⟨rfl, rfl⟩
      · rw [if_neg hc, if_neg hc]
        refine (sendJson_acts net sid _ _ _).andThen ?_
        rw [sendJson_st, sendJson_st]
        refine replay_acts ?_ net now sid d
        exact h.cache u hlow

lemma broadcast_acts {s t : Server} (h : lowSessions low s.sessions = lowSessions low t.sessions)
    {u : String} (hu : low u = true) (net : Net) (sid : SessionId) (f : WsMessage) :
    SameActs (broadcastToUser net u sid f s) (broadcastToUser net u sid f t) := by
  refine ⟨?_, rfl⟩
  show (broadcastTargets u sid s.sessions).flatMap _ = (broadcastTargets u sid t.sessions).flatMap _
  rw [← broadcastTargets_low hu, h, broadcastTargets_low hu]

lemma sendToDevice_acts {s t : Server}
    (h : lowSessions low s.sessions = lowSessions low t.sessions) {u : String}
    (hu : low u = true) (net : Net) (d : String) (f : WsMessage) :
    SameActs (sendToDevice net u d f s) (sendToDevice net u d f t) := by
  have hlow : ∀ reg : Registry, deviceTargets net u d f (lowSessions low reg) =
      deviceTargets net u d f reg := by
    intro reg
    unfold deviceTargets lowSessions
    rw [List.filter_filter]
    congr 1
    refine List.filter_congr fun x _ => ?_
    by_cases hx : u = x.username
    · subst hx; simp [hu]
    · simp [hx]
  have hts : deviceTargets net u d f s.sessions = deviceTargets net u d f t.sessions := by
    rw [← hlow, h, hlow]
  unfold sendToDevice
  rw [hts]
  induction deviceTargets net u d f t.sessions with
  | nil => exact ⟨rfl, rfl⟩
  | cons x xs ih =>
    have hx := sendMessage_acts net x.session f s t
    unfold sendEach
    dsimp only
    rw [hx.2]
    split_ifs
    · exact hx
    · exact ⟨by dsimp only; rw [hx.1, ih.1], ih.2⟩

lemma sendToSender_acts {s t : Server} (hs : Owned cfg s) (ht : Owned cfg t)
    (h : lowSessions low s.sessions = lowSessions low t.sessions) {o : Offer}
    (ho : ∀ v, (cfg.session o.senderSessionId).username = some v → low v = true) (net : Net)
    (f : WsMessage) : SameActs (sendToSender net o f s) (sendToSender net o f t) := by
  unfold sendToSender
  rw [← getSession_low hs ho, h, getSession_low ht ho]
  cases getSession o.senderSessionId t.sessions with
  | none => exact ⟨rfl, rfl⟩
  | some x => exact sendJson_acts net x.session f s t

/-- **The same frames in states that look alike**: a message of a session of the group has the
same acts, if the offer it asks for is the same in both states and belongs to the group. -/
theorem handle_acts {s t : Server} (hs : Owned cfg s) (ht : Owned cfg t)
    (h : lowSessions low s.sessions = lowSessions low t.sessions) {cs : ClientSession}
    (hcs : low cs.username = true) {msg : WsMessage}
    (hask : ∀ g, asked cfg msg = some g → s.activeOffers g = t.activeOffers g)
    (hown : ∀ g o, asked cfg msg = some g → t.activeOffers g = some o →
      low o.senderUsername = true)
    (net : Net) (now : ℤ) (sid : SessionId) :
    SameActs (handle cfg net now sid cs msg s) (handle cfg net now sid cs msg t) := by
  have hsend : ∀ {g o}, asked cfg msg = some g → t.activeOffers g = some o → ∀ f,
      SameActs (sendToSender net o f s) (sendToSender net o f t) := by
    intro g o hg ho f
    refine sendToSender_acts hs ht h (fun v hv => ?_) net f
    rw [ht.offer g o ho] at hv
    rw [← Option.some.inj hv]; exact hown g o hg ho
  cases msg with
  | clipboard m => exact broadcast_acts h hcs net sid _
  | fileOffer m =>
    simp only [handle, handleFileOffer]
    split_ifs
    · exact sendJson_acts net sid _ s t
    · cases m.fileId with
      | none => exact ⟨rfl, rfl⟩
      | some g => exact broadcast_acts h hcs net sid _
  | fileRequest m =>
    simp only [handle, handleFileRequest]
    cases hf : m.fileId with
    | none => exact ⟨rfl, rfl⟩
    | some g =>
      dsimp only
      rw [hask g hf]
      cases ho : t.activeOffers g with
      | none => exact sendJson_acts net sid _ s t
      | some o =>
        refine (hsend hf ho _).andThen ?_
        rw [sendToSender_st, sendToSender_st]
        exact sendJson_acts net sid _ s t
  | fileRelay m =>
    simp only [handle, handleFileRelay]
    by_cases hl : cfg.fileTransferLevel < 3
    · rw [if_pos hl, if_pos hl]; exact sendJson_acts net sid _ s t
    · rw [if_neg hl, if_neg hl]
      cases hf : m.fileId with
      | none => exact ⟨rfl, rfl⟩
      | some g =>
        have hg : asked cfg (.fileRelay m) = some g := by simp [asked, hl, hf]
        dsimp only
        rw [hask g hg]
        cases ho : t.activeOffers g with
        | none => exact sendJson_acts net sid _ s t
        | some o =>
          dsimp only
          split_ifs
          · exact sendJson_acts net sid _ s t
          · cases m.targetDevice with
            | some target => exact sendToDevice_acts h hcs net target _
            | none => exact hsend hg ho _
  | fileTransferResult m =>
    simp only [handle, handleResult]
    cases hf : m.fileId with
    | none => exact ⟨rfl, rfl⟩
    | some g =>
      dsimp only
      rw [hask g hf]
      cases t.activeOffers g <;> exact ⟨rfl, rfl⟩
  | ping ts => exact sendJson_acts net sid _ s t
  | _ => exact ⟨rfl, rfl⟩

lemma handleTextMessage_acts {s t : Server} {net : Net} {now : ℤ} {sid : SessionId}
    {msg : WsMessage}
    (h : SameActs (dispatch cfg net now sid msg s) (dispatch cfg net now sid msg t)) :
    SameActs (handleTextMessage cfg net now sid (some msg) s)
      (handleTextMessage cfg net now sid (some msg) t) := by
  unfold handleTextMessage
  dsimp only
  rw [h.2]
  cases hth : (dispatch cfg net now sid msg t).thrown with
  | none => exact h
  | some x =>
    cases x with
    | io => exact h
    | runtime =>
      have he := sendJson_acts net sid
        (.error ⟨"INTERNAL_ERROR", "Server error handling " ++ msg.type, true⟩)
        (dispatch cfg net now sid msg s).st (dispatch cfg net now sid msg t).st
      exact ⟨by dsimp only [sendError]; rw [h.1, he.1], he.2⟩

end SyncClipboard.Acts
