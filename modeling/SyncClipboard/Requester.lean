import SyncClipboard.Acts

/-!
What a broken connection of another session does to the session that sent a message.

The broadcasts catch what their targets throw. `handleFileRequest` and the request branch of
`handleFileRelay` send to the session of the offer with no such protection, and the loop of
`sendToDevice` ends at a runtime exception. An `IOException` on the way then leaves the handler of
the requester, a runtime exception costs it the frames that were to follow. These are the only
cases (`requester_unhurt_iff`).
-/

namespace SyncClipboard.Requester

open Keyed ServerModel Dispatcher Views Acts

/-- The network on which the sends to other sessions that throw succeed; the map is walked in the
same order. -/
def mended (r : SessionId) (net : Net) : Net where
  link x f := if x ≠ r ∧ (net x f = .ioException ∨ net x f = .runtimeException) then .ok else net x f
  place := net.place

/-- No send to the session itself throws. -/
def Sound (r : SessionId) (net : Net) : Prop := ∀ f, net r f = .ok ∨ net r f = .closed

variable (cfg : Config)

/-- Nothing leaves the handler of the requester, and it is delivered every frame that it would
have been delivered on the mended network. -/
def Unhurt (net : Net) (now : ℤ) (r : SessionId) (payload : Option WsMessage) (st : Server) :
    Prop :=
  (handleTextMessage cfg net now r payload st).thrown = none ∧
  (deliveredTo r (handleTextMessage cfg (mended r net) now r payload st).acts).Sublist
    (deliveredTo r (handleTextMessage cfg net now r payload st).acts)

/-- The offer a session other than the requester made, with that session still registered. -/
def OfOther (r : SessionId) (st : Server) (fileId : String) (offer : Offer) : Prop :=
  st.activeOffers fileId = some offer ∧ offer.senderSessionId ≠ r ∧
    (getSession offer.senderSessionId st.sessions).isSome

/-- The sends to other sessions that no handler protects the requester from. Of the sessions of a
device it matters in which order they come. -/
def Hurts (net : Net) (r : SessionId) (cs : ClientSession) (st : Server) : WsMessage → Prop
  | .fileRequest m => ∃ fileId offer, m.fileId = some fileId ∧ OfOther r st fileId offer ∧
    (net offer.senderSessionId (peerInfoForSender cfg r cs fileId m offer) = .ioException ∨
      net offer.senderSessionId (peerInfoForSender cfg r cs fileId m offer) = .runtimeException ∧
        net r (peerInfoForReceiver cfg r fileId offer) = .ok)
  | .fileRelay m => 3 ≤ cfg.fileTransferLevel ∧ m.fileSize ≤ cfg.maxRelaySize ∧
    ∃ fileId offer, m.fileId = some fileId ∧ st.activeOffers fileId = some offer ∧
    match m.targetDevice with
    | none => OfOther r st fileId offer ∧
      net offer.senderSessionId (.fileRelayRequest ⟨fileId, cs.deviceId⟩) = .ioException
    | some target => ∃ x c, c.session = r ∧
      [x, c].Sublist (deviceTargets net cs.username target (relayDataOf cs fileId m offer)
        st.sessions) ∧
      net x.session (relayDataOf cs fileId m offer) = .runtimeException
  | _ => False

variable {cfg}

/-! ### The sends, on the network and on the mended one -/

lemma mended_self (r : SessionId) (net : Net) (f : WsMessage) : mended r net r f = net r f := by
  simp [mended]

@[simp] lemma mended_place (r : SessionId) (net : Net) : (mended r net).place = net.place := rfl

lemma mended_eq_closed {r : SessionId} {net : Net} {x : SessionId} {f : WsMessage} :
    mended r net x f = .closed ↔ net x f = .closed := by
  unfold mended
  dsimp only
  split_ifs with h
  · rcases h.2 with h' | h' <;> simp [h']
  · rfl

lemma mended_sound {r : SessionId} {net : Net} (hr : Sound r net) (x : SessionId) (f : WsMessage) :
    mended r net x f = .ok ∨ mended r net x f = .closed := by
  by_cases hx : x = r
  · subst hx
    rw [mended_self]
    exact hr f
  · cases hn : net x f <;> simp [mended, hx, hn]

lemma sendJson_ok {net : Net} {x : SessionId} {f : WsMessage}
    (h : net x f = .ok ∨ net x f = .closed) (st : Server) :
    (sendJson net x f st).thrown = none ∧
      (sendJson net x f st).acts = if net x f = .ok then [.send x f true] else [] := by
  rcases h with h | h <;> simp [sendJson, sendMessage, h]

lemma sendJson_self (r : SessionId) (net : Net) (f : WsMessage) (st : Server) :
    sendJson (mended r net) r f st = sendJson net r f st := by
  simp only [sendJson, sendMessage, mended_self]

/-- Nothing of what is handed to another session is delivered to the requester. -/
lemma deliveredTo_others {r : SessionId} {as : List Act}
    (h : ∀ a ∈ as, ∃ x f b, a = .send x f b ∧ x ≠ r) : deliveredTo r as = [] := by
  rw [List.eq_nil_iff_forall_not_mem]
  intro f hf
  obtain ⟨x, g, b, heq, hx⟩ := h _ (mem_deliveredTo hf)
  cases heq
  exact hx rfl

lemma deliveredTo_broadcast (net : Net) (u : String) (r : SessionId) (f : WsMessage) (st : Server) :
    deliveredTo r (broadcastToUser net u r f st).acts = [] := by
  refine deliveredTo_others fun a ha => ?_
  obtain ⟨t, ht, b, rfl⟩ := mem_broadcastToUser ha
  exact ⟨_, _, b, rfl, (mem_broadcastTargets.mp ht).2.2.2⟩

lemma deliveredTo_sendToSender {r : SessionId} {offer : Offer} (h : offer.senderSessionId ≠ r)
    (net : Net) (f : WsMessage) (st : Server) :
    deliveredTo r (sendToSender net offer f st).acts = [] := by
  refine deliveredTo_others fun a ha => ?_
  obtain ⟨b, rfl⟩ := mem_sendToSender ha
  exact ⟨_, _, b, rfl, h⟩

/-- What a send to a registered session throws. -/
def thrownBy : Link → Option Thrown
  | .ioException => some .io
  | .runtimeException => some .runtime
  | .ok | .closed => none

lemma sendToSender_thrown {st : Server} {offer : Offer}
    (h : (getSession offer.senderSessionId st.sessions).isSome) (net : Net) (f : WsMessage) :
    (sendToSender net offer f st).thrown = thrownBy (net offer.senderSessionId f) := by
  obtain ⟨s, hs⟩ := Option.isSome_iff_exists.mp h
  have hk : s.session = offer.senderSessionId := (mem_of_get hs).2
  simp only [sendToSender, hs, hk, sendJson, sendMessage]
  cases net offer.senderSessionId f <;> rfl

/-- The session of the offer is the requester, or it is gone: the network makes no difference. -/
lemma sendToSender_mended {r : SessionId} {st : Server} {offer : Offer}
    (h : offer.senderSessionId = r ∨ ¬ (getSession offer.senderSessionId st.sessions).isSome)
    (net : Net) (f : WsMessage) :
    sendToSender (mended r net) offer f st = sendToSender net offer f st := by
  unfold sendToSender
  cases hs : getSession offer.senderSessionId st.sessions with
  | none => rfl
  | some s =>
    have hk : s.session = offer.senderSessionId := (mem_of_get hs).2
    have hr : offer.senderSessionId = r := h.resolve_right (by simp [hs])
    simp only [hk, hr, sendJson_self]

/-- A send to the requester's own session, or to none. -/
lemma sendToSender_sound {r : SessionId} {net : Net} (hr : Sound r net) {st : Server} {offer : Offer}
    (h : offer.senderSessionId = r ∨ ¬ (getSession offer.senderSessionId st.sessions).isSome)
    (f : WsMessage) : (sendToSender net offer f st).thrown = none := by
  by_cases hs : (getSession offer.senderSessionId st.sessions).isSome
  · rw [sendToSender_thrown hs, h.resolve_right (not_not.mpr hs)]
    rcases hr f with hf | hf <;> rw [hf] <;> rfl
  · rw [Option.not_isSome_iff_eq_none] at hs
    simp [sendToSender, hs]

/-! ### From the dispatcher to the handler -/

/-- The frame that answers a runtime exception. -/
def internalError (msg : WsMessage) : WsMessage :=
  .error ⟨"INTERNAL_ERROR", "Server error handling " ++ msg.type, true⟩

/-- The answer to a runtime exception, as far as it is delivered. -/
def answered (net : Net) (r : SessionId) (msg : WsMessage) (thrown : Option Thrown) :
    List WsMessage :=
  if thrown = some .runtime ∧ net r (internalError msg) = .ok then [internalError msg] else []

variable (cfg) in
lemma handleTextMessage_answer {net : Net} {r : SessionId} (hr : Sound r net) (now : ℤ)
    (msg : WsMessage) (st : Server) :
    ((handleTextMessage cfg net now r (some msg) st).thrown = none ↔
      (dispatch cfg net now r msg st).thrown ≠ some .io) ∧
    deliveredTo r (handleTextMessage cfg net now r (some msg) st).acts =
      deliveredTo r (dispatch cfg net now r msg st).acts ++
        answered net r msg (dispatch cfg net now r msg st).thrown := by
  cases ht : (dispatch cfg net now r msg st).thrown with
  | none => simp [handleTextMessage, ht, answered]
  | some t =>
    cases t with
    | io => simp [handleTextMessage, ht, answered]
    | runtime =>
      obtain ⟨hthrown, hacts⟩ := sendJson_ok (hr (internalError msg))
        (dispatch cfg net now r msg st).st
      simp only [internalError] at hthrown hacts
      simp only [handleTextMessage, ht, sendError, deliveredTo_append, hthrown, hacts, answered,
        internalError]
      split_ifs <;> simp_all [deliveredTo]

/-- Two outcomes of a handler that are the same for the requester, `a` on the mended network and
`b` on the network. -/
structure Alike (net : Net) (r : SessionId) (msg : WsMessage) (a b : Res) : Prop where
  delivered : deliveredTo r a.acts = deliveredTo r b.acts
  answer : answered net r msg a.thrown = answered net r msg b.thrown
  caught : b.thrown ≠ some .io

lemma Alike.of_eq {net : Net} {r : SessionId} {msg : WsMessage} {a b : Res} (h : a = b)
    (hb : b.thrown ≠ some .io) : Alike net r msg a b := by
  subst h
  exact ⟨rfl, rfl, hb⟩

lemma sound_mended {r : SessionId} {net : Net} (hr : Sound r net) : Sound r (mended r net) :=
  mended_sound hr r

lemma answered_mended (net : Net) (r : SessionId) (msg : WsMessage) (t : Option Thrown) :
    answered (mended r net) r msg t = answered net r msg t := by
  simp [answered, mended_self]

/-- What the requester is delivered in all, given the outcome of the dispatcher. -/
def seen (net : Net) (r : SessionId) (msg : WsMessage) (a : Res) : List WsMessage :=
  deliveredTo r a.acts ++ answered net r msg a.thrown

lemma unhurt_iff {net : Net} {r : SessionId} (hr : Sound r net) {now : ℤ} {msg : WsMessage}
    {st : Server} : Unhurt cfg net now r (some msg) st ↔
      (dispatch cfg net now r msg st).thrown ≠ some .io ∧
      (seen net r msg (dispatch cfg (mended r net) now r msg st)).Sublist
        (seen net r msg (dispatch cfg net now r msg st)) := by
  obtain ⟨hthrown, hdel⟩ := handleTextMessage_answer cfg hr now msg st
  obtain ⟨-, hdel'⟩ := handleTextMessage_answer cfg (sound_mended hr) now msg st
  rw [Unhurt, hthrown, hdel, hdel', answered_mended]
  rfl

lemma unhurt_of_alike {net : Net} {now : ℤ} {r : SessionId} {msg : WsMessage} {st : Server}
    (hr : Sound r net) (h : Alike net r msg (dispatch cfg (mended r net) now r msg st)
      (dispatch cfg net now r msg st)) :
    Unhurt cfg net now r (some msg) st := by
  refine (unhurt_iff hr).mpr ⟨h.caught, ?_⟩
  rw [seen, seen, h.delivered, h.answer]

/-! ### The protected handlers -/

section Handlers

variable {net : Net} {r : SessionId} (hr : Sound r net) (now : ℤ) (cs : ClientSession) (st : Server)
include hr

lemma alike_sendJson (msg f : WsMessage) :
    Alike net r msg (sendJson (mended r net) r f st) (sendJson net r f st) :=
  .of_eq (sendJson_self r net f st) (by simp [(sendJson_ok (hr f) st).1])

omit hr in
/-- A handler that sends to the other sessions of the user only. -/
lemma alike_broadcast (msg : WsMessage) (u : String) (f : WsMessage) :
    Alike net r msg (broadcastToUser (mended r net) u r f st) (broadcastToUser net u r f st) where
  delivered := by rw [deliveredTo_broadcast, deliveredTo_broadcast]
  answer := rfl
  caught := by simp [broadcastToUser]

lemma alike_fileOffer (m : FileOffer) :
    Alike net r (.fileOffer m) (handleFileOffer cfg (mended r net) now r cs m st)
      (handleFileOffer cfg net now r cs m st) := by
  unfold handleFileOffer
  split_ifs
  · exact alike_sendJson hr st _ _
  · cases m.fileId with
    | none => exact .of_eq rfl (by simp)
    | some g => exact alike_broadcast _ _ _ _

end Handlers

/-! ### The handlers that send to the session of an offer -/

lemma andThen_of_none {a : Res} (h : a.thrown = none) (k : Server → Res) :
    a.andThen k = ⟨(k a.st).st, a.acts ++ (k a.st).acts, (k a.st).thrown⟩ := by
  simp [Res.andThen, h]

lemma andThen_of_some {a : Res} {t : Thrown} (h : a.thrown = some t) (k : Server → Res) :
    a.andThen k = a := by
  simp [Res.andThen, h]

lemma mended_thrown {r : SessionId} {net : Net} (hr : Sound r net) (x : SessionId) (f : WsMessage) :
    thrownBy (mended r net x f) = none := by
  rcases mended_sound hr x f with h | h <;> rw [h] <;> rfl

lemma same_of_not_other {r : SessionId} {st : Server} {g : String} {offer : Offer}
    (ho : st.activeOffers g = some offer) (h : ¬ OfOther r st g offer) :
    offer.senderSessionId = r ∨ ¬ (getSession offer.senderSessionId st.sessions).isSome := by
  by_contra hcon
  push Not at hcon
  exact h ⟨ho, hcon.1, hcon.2⟩

section OfferSession

variable {net : Net} {r : SessionId} (hr : Sound r net) (now : ℤ) {cs : ClientSession} {st : Server}
  {g : String} {offer : Offer}
include hr

variable (cfg) in
omit hr in
lemma dispatch_fileRequest {m : FileRequest} (hcs : getSession r st.sessions = some cs)
    (hg : m.fileId = some g) (ho : st.activeOffers g = some offer) (n : Net) :
    dispatch cfg n now r (.fileRequest m) st =
      (sendToSender n offer (peerInfoForSender cfg r cs g m offer) st).andThen
        (sendJson n r (peerInfoForReceiver cfg r g offer)) := by
  simp only [dispatch, hcs, handle, handleFileRequest, hg, ho]

variable (cfg) in
/-- After a send that does not throw, the requester is handed its peer information. -/
lemma fileRequest_passes {m : FileRequest} (hcs : getSession r st.sessions = some cs)
    (hg : m.fileId = some g) (ho : st.activeOffers g = some offer)
    (hne : offer.senderSessionId ≠ r) (n : Net)
    (hn : ∀ f s, sendJson n r f s = sendJson net r f s)
    (hnone : (sendToSender n offer (peerInfoForSender cfg r cs g m offer) st).thrown = none) :
    (dispatch cfg n now r (.fileRequest m) st).thrown = none ∧
      seen net r (.fileRequest m) (dispatch cfg n now r (.fileRequest m) st) =
        if net r (peerInfoForReceiver cfg r g offer) = .ok then [peerInfoForReceiver cfg r g offer]
        else [] := by
  have hanswer := sendJson_ok (hr (peerInfoForReceiver cfg r g offer))
  rw [dispatch_fileRequest cfg now hcs hg ho, andThen_of_none hnone, seen]
  simp only [deliveredTo_append, deliveredTo_sendToSender hne, hn, hanswer, true_and]
  split_ifs <;> simp [deliveredTo, answered]

/-- The peer information for the requester goes out, unless the send before it threw. -/
lemma unhurt_fileRequest {m : FileRequest} (hcs : getSession r st.sessions = some cs)
    (hg : m.fileId = some g) (ho : st.activeOffers g = some offer) :
    Unhurt cfg net now r (some (.fileRequest m)) st ↔
      ¬ (OfOther r st g offer ∧
        (net offer.senderSessionId (peerInfoForSender cfg r cs g m offer) = .ioException ∨
          net offer.senderSessionId (peerInfoForSender cfg r cs g m offer) = .runtimeException ∧
            net r (peerInfoForReceiver cfg r g offer) = .ok)) := by
  have hdisp := dispatch_fileRequest cfg now hcs hg ho
  by_cases hother : OfOther r st g offer
  · obtain ⟨-, hne, hreg⟩ := hother
    have hpass := fileRequest_passes cfg hr now hcs hg ho hne
    have hmended : (sendToSender (mended r net) offer (peerInfoForSender cfg r cs g m offer)
        st).thrown = none := by
      rw [sendToSender_thrown hreg, mended_thrown hr]
    have hthrown := sendToSender_thrown hreg net (peerInfoForSender cfg r cs g m offer)
    rw [unhurt_iff hr, (hpass _ (sendJson_self r net) hmended).2]
    cases hnet : net offer.senderSessionId (peerInfoForSender cfg r cs g m offer) with
    | ok =>
      rw [hnet] at hthrown
      obtain ⟨hnone, heq⟩ := hpass net (fun _ _ => rfl) hthrown
      simp [hnone, heq]
    | closed =>
      rw [hnet] at hthrown
      obtain ⟨hnone, heq⟩ := hpass net (fun _ _ => rfl) hthrown
      simp [hnone, heq]
    | ioException =>
      rw [hnet] at hthrown
      rw [hdisp, andThen_of_some hthrown]
      simp [hthrown, thrownBy, ho, hne, hreg, OfOther]
    | runtimeException =>
      rw [hnet] at hthrown
      rw [hdisp, andThen_of_some hthrown]
      rcases hr (peerInfoForReceiver cfg r g offer) with hopen | hclosed
      · -- the answer to the exception is no peer information
        simp only [hthrown, thrownBy, seen, deliveredTo_sendToSender hne, hopen, answered, OfOther,
          ho, hreg]
        split_ifs <;> simp [hne, peerInfoForReceiver, internalError]
      · simp [hthrown, thrownBy, hclosed]
  · have hsame := same_of_not_other ho hother
    have hsound := sendToSender_sound hr hsame
    have hanswer := fun f s => (sendJson_ok (hr f) s).1
    simp only [hother, false_and, not_false_eq_true, iff_true]
    apply unhurt_of_alike hr
    rw [hdisp, hdisp, sendToSender_mended hsame, andThen_of_none (hsound _),
      andThen_of_none (hsound _), sendJson_self]
    exact .of_eq rfl (by simp [hanswer])

/-- A request for the data goes to the session of the offer only. -/
lemma unhurt_relayRequest {m : FileRelay}
    (hdisp : ∀ n, dispatch cfg n now r (.fileRelay m) st =
      sendToSender n offer (.fileRelayRequest ⟨g, cs.deviceId⟩) st)
    (ho : st.activeOffers g = some offer) :
    Unhurt cfg net now r (some (.fileRelay m)) st ↔ ¬ (OfOther r st g offer ∧
      net offer.senderSessionId (.fileRelayRequest ⟨g, cs.deviceId⟩) = .ioException) := by
  by_cases hother : OfOther r st g offer
  · obtain ⟨-, hne, hreg⟩ := hother
    have hmended := sendToSender_thrown hreg (mended r net) (.fileRelayRequest ⟨g, cs.deviceId⟩)
    have hthrown := sendToSender_thrown hreg net (.fileRelayRequest ⟨g, cs.deviceId⟩)
    rw [mended_thrown hr] at hmended
    -- the requester is delivered nothing either way
    have hnil : seen net r (.fileRelay m) (dispatch cfg (mended r net) now r (.fileRelay m) st) =
        [] := by
      rw [hdisp, seen, deliveredTo_sendToSender hne, hmended]
      rfl
    rw [unhurt_iff hr, hnil, hdisp, hthrown]
    cases hnet : net offer.senderSessionId (.fileRelayRequest ⟨g, cs.deviceId⟩) <;>
      simp [thrownBy, OfOther, ho, hne, hreg]
  · have hsame := same_of_not_other ho hother
    simp only [hother, false_and, not_false_eq_true, iff_true]
    apply unhurt_of_alike hr
    rw [hdisp, hdisp, sendToSender_mended hsame]
    exact .of_eq rfl (by simp [sendToSender_sound hr hsame])

end OfferSession

/-! ### The loop over the sessions of a device -/

section Device

variable {net : Net} {r : SessionId} {f : WsMessage}

variable (net r f) in
/-- A send that ends the loop before one to the requester. -/
def Cut (ts : List ClientSession) : Prop :=
  ∃ x c, c.session = r ∧ [x, c].Sublist ts ∧ net x.session f = .runtimeException

lemma not_cut_nil : ¬ Cut net r f [] := by
  rintro ⟨x, c, -, hsub, -⟩
  cases hsub

lemma cut_cons {t : ClientSession} {ts : List ClientSession} : Cut net r f (t :: ts) ↔
    (net t.session f = .runtimeException ∧ ∃ c ∈ ts, c.session = r) ∨ Cut net r f ts := by
  constructor
  · rintro ⟨x, c, hc, hsub, hx⟩
    rcases List.sublist_cons_iff.mp hsub with hsub | ⟨l, hl, hsub⟩
    · exact .inr ⟨x, c, hc, hsub, hx⟩
    · obtain ⟨rfl, rfl⟩ := List.cons.inj hl
      exact .inl ⟨hx, c, List.singleton_sublist.mp hsub, hc⟩
  · rintro (⟨ht, c, hmem, hc⟩ | ⟨x, c, hc, hsub, hx⟩)
    · exact ⟨t, c, hc, (List.singleton_sublist.mpr hmem).cons_cons t, ht⟩
    · exact ⟨x, c, hc, hsub.cons t, hx⟩

lemma deviceTargets_mended (u d : String) (reg : Registry) :
    deviceTargets (mended r net) u d f reg = deviceTargets net u d f reg := by
  simp only [deviceTargets, ne_eq, mended_eq_closed, mended_place]

lemma open_of_mem_deviceTargets {u d : String} {reg : Registry} {t : ClientSession}
    (h : t ∈ deviceTargets net u d f reg) : net t.session f ≠ .closed := by
  have hall := (List.mem_filter.mp ((List.mem_insertionSort _).mp h)).2
  simp only [Bool.and_eq_true, decide_eq_true_eq] at hall
  exact hall.2

lemma sendEach_thrown (net : Net) (f : WsMessage) (st : Server) (ts : List ClientSession) :
    (sendEach net f st ts).thrown ≠ some .io := by
  induction ts with
  | nil => simp [sendEach]
  | cons t ts ih =>
    rw [sendEach]
    split_ifs with h
    · simp [h]
    · exact ih

/-- On the mended network every send of the loop succeeds. -/
lemma sendEach_mended (hr : Sound r net) (st : Server) {ts : List ClientSession}
    (hopen : ∀ t ∈ ts, net t.session f ≠ .closed) :
    (sendEach (mended r net) f st ts).thrown = none ∧
      (sendEach (mended r net) f st ts).acts = ts.map fun t => .send t.session f true := by
  induction ts with
  | nil => exact ⟨rfl, rfl⟩
  | cons t ts ih =>
    obtain ⟨hthrown, hacts⟩ := ih fun t' ht' => hopen t' (List.mem_cons_of_mem _ ht')
    have hok : mended r net t.session f = .ok :=
      (mended_sound hr t.session f).resolve_right fun hc =>
        hopen t (List.mem_cons_self ..) (mended_eq_closed.mp hc)
    simp [sendEach, sendMessage, hok, hthrown, hacts]

/-- What the requester is delivered when nothing ends the loop: the frame, once for each of its
entries. -/
def owed (r : SessionId) (f : WsMessage) (ts : List ClientSession) : List WsMessage :=
  deliveredTo r (ts.map fun t => .send t.session f true)

lemma owed_cons (t : ClientSession) (ts : List ClientSession) :
    owed r f (t :: ts) = if t.session = r then f :: owed r f ts else owed r f ts := rfl

lemma mem_owed {ts : List ClientSession} {c : ClientSession} (hc : c ∈ ts) (hr : c.session = r) :
    f ∈ owed r f ts := by
  induction ts with
  | nil => cases hc
  | cons t ts ih =>
    rw [owed_cons]
    rcases List.mem_cons.mp hc with rfl | hc
    · simp [hr]
    · split_ifs
      · exact List.mem_cons_of_mem _ (ih hc)
      · exact ih hc

lemma owed_eq_nil {ts : List ClientSession} (h : ¬ ∃ c ∈ ts, c.session = r) : owed r f ts = [] := by
  induction ts with
  | nil => rfl
  | cons t ts ih =>
    push Not at h
    rw [owed_cons, if_neg (h t (by simp))]
    exact ih fun ⟨c, hc, hcr⟩ => h c (List.mem_cons_of_mem _ hc) hcr

/-- The loop delivers what is owed, unless it is cut. -/
lemma deliveredTo_sendEach (hr : Sound r net) (st : Server) {ts : List ClientSession}
    (hopen : ∀ t ∈ ts, net t.session f ≠ .closed) :
    (¬ Cut net r f ts → deliveredTo r (sendEach net f st ts).acts = owed r f ts) ∧
    (Cut net r f ts →
      (deliveredTo r (sendEach net f st ts).acts).count f < (owed r f ts).count f) := by
  induction ts with
  | nil => exact ⟨fun _ => rfl, fun h => absurd h not_cut_nil⟩
  | cons t ts ih =>
    obtain ⟨ihgo, ihcut⟩ := ih fun t' ht' => hopen t' (List.mem_cons_of_mem _ ht')
    rw [cut_cons, owed_cons]
    cases hnet : net t.session f with
    | closed => exact absurd hnet (hopen t (List.mem_cons_self ..))
    | ok =>
      simp only [sendEach, sendMessage, hnet, reduceCtorEq, if_false, false_and, false_or,
        List.singleton_append, deliveredTo]
      split_ifs
      · refine ⟨fun h => by rw [ihgo h], fun h => ?_⟩
        rw [List.count_cons_self, List.count_cons_self]
        exact Nat.succ_lt_succ (ihcut h)
      · exact ⟨ihgo, ihcut⟩
    | ioException =>
      have ht : t.session ≠ r := by
        rintro rfl
        rcases hr f with h | h <;> simp [h] at hnet
      simp only [sendEach, sendMessage, hnet, reduceCtorEq, Option.some.injEq, if_false, false_and,
        false_or, List.singleton_append, deliveredTo, if_neg ht]
      exact ⟨ihgo, ihcut⟩
    | runtimeException =>
      have ht : t.session ≠ r := by
        rintro rfl
        rcases hr f with h | h <;> simp [h] at hnet
      simp only [sendEach, sendMessage, hnet, if_true, deliveredTo, if_neg ht, true_and,
        List.count_nil]
      constructor
      · intro h
        rw [owed_eq_nil fun hex => h (.inl hex)]
      · rintro (⟨c, hc, hcr⟩ | ⟨x, c, hcr, hsub, -⟩)
        · exact List.count_pos_iff.mpr (mem_owed hc hcr)
        · exact List.count_pos_iff.mpr (mem_owed (hsub.subset (by simp)) hcr)

lemma unhurt_relayData (hr : Sound r net) (now : ℤ) {st : Server} {msg : WsMessage} {u d : String}
    (hdisp : ∀ n, dispatch cfg n now r msg st = sendToDevice n u d f st)
    (hf : ∀ e, f ≠ .error e) :
    Unhurt cfg net now r (some msg) st ↔ ¬ Cut net r f (deviceTargets net u d f st.sessions) := by
  have hopen := fun t (ht : t ∈ deviceTargets net u d f st.sessions) =>
    open_of_mem_deviceTargets ht
  obtain ⟨hnone, hacts⟩ := sendEach_mended hr st hopen
  obtain ⟨hgo, hcut⟩ := deliveredTo_sendEach hr st hopen
  rw [unhurt_iff hr, hdisp, hdisp, sendToDevice, sendToDevice, deviceTargets_mended, seen, seen,
    hnone, hacts]
  constructor
  · rintro ⟨-, hsub⟩ hc
    -- the answer to the exception does not make up for the frames after the cut
    have hle := hsub.count_le f
    have herr : ∀ t, (answered net r msg t).count f = 0 := by
      intro t
      rw [List.count_eq_zero, answered]
      split_ifs <;> simp [internalError, hf]
    rw [List.count_append, List.count_append, herr, herr] at hle
    exact Nat.not_le_of_lt (hcut hc) hle
  · intro hc
    refine ⟨sendEach_thrown net f st _, ?_⟩
    rw [hgo hc]
    simp [owed, answered]

end Device

/-! ### The requester -/

section Registered

variable {net : Net} {r : SessionId} (hr : Sound r net) (now : ℤ) {cs : ClientSession} {st : Server}
  (hcs : getSession r st.sessions = some cs)
include hr hcs

/-- A message whose handler is the same for the requester on both networks. -/
lemma unhurt_iff_of_alike {msg : WsMessage}
    (h : Alike net r msg (handle cfg (mended r net) now r cs msg st)
      (handle cfg net now r cs msg st)) (hno : ¬ Hurts cfg net r cs st msg) :
    Unhurt cfg net now r (some msg) st ↔ ¬ Hurts cfg net r cs st msg := by
  refine iff_of_true (unhurt_of_alike hr ?_) hno
  simpa only [dispatch, hcs] using h

lemma unhurt_iff_fileRequest (m : FileRequest) :
    Unhurt cfg net now r (some (.fileRequest m)) st ↔
      ¬ Hurts cfg net r cs st (.fileRequest m) := by
  cases hg : m.fileId with
  | none =>
    refine unhurt_iff_of_alike hr now hcs (.of_eq ?_ ?_) ?_
    · simp [handle, handleFileRequest, hg]
    · simp [handle, handleFileRequest, hg]
    · simp [Hurts, hg]
  | some g =>
    cases ho : st.activeOffers g with
    | none =>
      refine unhurt_iff_of_alike hr now hcs ?_ ?_
      · simpa only [handle, handleFileRequest, hg, ho] using alike_sendJson hr st _ _
      · simp [Hurts, hg, OfOther, ho]
    | some offer =>
      rw [unhurt_fileRequest hr now hcs hg ho]
      simp [Hurts, hg, OfOther, ho]

lemma unhurt_iff_fileRelay (m : FileRelay) :
    Unhurt cfg net now r (some (.fileRelay m)) st ↔ ¬ Hurts cfg net r cs st (.fileRelay m) := by
  by_cases hlevel : cfg.fileTransferLevel < 3
  · refine unhurt_iff_of_alike hr now hcs ?_ ?_
    · simpa only [handle, handleFileRelay, hlevel, if_true] using alike_sendJson hr st _ _
    · exact fun h => absurd h.1 (by omega)
  cases hg : m.fileId with
  | none =>
    refine unhurt_iff_of_alike hr now hcs (.of_eq ?_ ?_) ?_
    · simp [handle, handleFileRelay, hlevel, hg]
    · simp [handle, handleFileRelay, hlevel, hg]
    · simp [Hurts, hg]
  | some g =>
    cases ho : st.activeOffers g with
    | none =>
      refine unhurt_iff_of_alike hr now hcs ?_ ?_
      · simpa only [handle, handleFileRelay, hlevel, if_false, hg, ho]
          using alike_sendJson hr st _ _
      · simp [Hurts, hg, ho]
    | some offer =>
      by_cases hsize : cfg.maxRelaySize < m.fileSize
      · refine unhurt_iff_of_alike hr now hcs ?_ ?_
        · simpa only [handle, handleFileRelay, hlevel, if_false, hg, ho, hsize, if_true]
            using alike_sendJson hr st _ _
        · exact fun h => absurd h.2.1 (by omega)
      · have hlevel' : 3 ≤ cfg.fileTransferLevel := by omega
        have hsize' : m.fileSize ≤ cfg.maxRelaySize := by omega
        cases ht : m.targetDevice with
        | none =>
          have hdisp : ∀ n, dispatch cfg n now r (.fileRelay m) st =
              sendToSender n offer (.fileRelayRequest ⟨g, cs.deviceId⟩) st := by
            intro n
            simp only [dispatch, hcs, handle, handleFileRelay, hlevel, hg, ho, hsize, ht, if_false]
          rw [unhurt_relayRequest hr now hdisp ho]
          simp [Hurts, hlevel', hsize', hg, ho, ht]
        | some d =>
          have hdisp : ∀ n, dispatch cfg n now r (.fileRelay m) st =
              sendToDevice n cs.username d (relayDataOf cs g m offer) st := by
            intro n
            simp only [dispatch, hcs, handle, handleFileRelay, hlevel, hg, ho, hsize, ht, if_false]
          rw [unhurt_relayData hr now hdisp (by simp [relayDataOf])]
          simp [Hurts, hlevel', hsize', hg, ho, ht, Cut]

/-- The handler of a registered session is harmless exactly when no unprotected send throws. -/
lemma unhurt_registered (msg : WsMessage) :
    Unhurt cfg net now r (some msg) st ↔ ¬ Hurts cfg net r cs st msg := by
  cases msg with
  | fileRequest m => exact unhurt_iff_fileRequest hr now hcs m
  | fileRelay m => exact unhurt_iff_fileRelay hr now hcs m
  | clipboard m => exact unhurt_iff_of_alike hr now hcs (alike_broadcast _ _ _ _) not_false
  | fileOffer m => exact unhurt_iff_of_alike hr now hcs (alike_fileOffer hr now cs st m) not_false
  | ping ts => exact unhurt_iff_of_alike hr now hcs (alike_sendJson hr st _ _) not_false
  | fileTransferResult m =>
    refine unhurt_iff_of_alike hr now hcs (.of_eq rfl ?_) not_false
    simp only [handle, handleResult]
    split
    · simp
    · split <;> simp
  | _ => exact unhurt_iff_of_alike hr now hcs (.of_eq rfl (by simp [handle])) not_false

end Registered

/-- **When a broken peer hurts the requester.** In every reachable state, and for every payload of
a session none of whose own sends throws: nothing leaves its handler and it is delivered all that
it would be delivered if no send to another session threw, if and only if the session is not
registered, the payload does not parse, or the message makes none of the unprotected sends that
throw. The order in which the sessions are walked is whatever it is. -/
theorem requester_unhurt_iff (cfg : Config) (es : List Event) (net : Net) (now : ℤ) (r : SessionId)
    (payload : Option WsMessage) (hr : Sound r net) :
    Unhurt cfg net now r payload (Run.exec (step cfg) init es) ↔
      ∀ msg cs, payload = some msg →
        getSession r (Run.exec (step cfg) init es).sessions = some cs →
        ¬ Hurts cfg net r cs (Run.exec (step cfg) init es) msg := by
  set st := Run.exec (step cfg) init es
  cases payload with
  | none =>
    simp only [reduceCtorEq, false_implies, implies_true, iff_true]
    refine ⟨(sendJson_ok (hr _) st).1, ?_⟩
    simp only [handleTextMessage, sendError, sendJson_self]
    exact List.Sublist.refl _
  | some msg =>
    cases hcs : getSession r st.sessions with
    | none =>
      simp only [reduceCtorEq, false_implies, implies_true, iff_true]
      refine unhurt_of_alike hr (.of_eq ?_ ?_) <;> simp [dispatch, hcs]
    | some cs =>
      rw [unhurt_registered hr now hcs]
      simp

/-- A laptop and a phone of one user, behind different addresses. -/
def twoDevices : Config :=
  ⟨2, 8081, 1000, fun sid =>
    if sid = "laptop" then ⟨some "alice", some "laptop", some "203.0.113.7"⟩
    else ⟨some "alice", some "phone", some "198.51.100.20"⟩⟩

/-- Both have connected, and the laptop has offered a file. -/
def offeredByLaptop : List Event :=
  [.established "laptop" 0 allOk, .established "phone" 1 allOk,
    .text "laptop" (some (.fileOffer ⟨none, some "f", some "a.png", some "image/png", 3, none,
      some ["192.168.1.5:9000"]⟩)) 2 allOk]

/-- The connection of the laptop breaks with an `IOException`. -/
def laptopBroken : Net := ⟨fun x _ => if x = "laptop" then .ioException else .ok, fun _ => 0⟩

/-- The phone asks for the file. Its connection works, and yet its handler throws. -/
theorem request_to_broken_sender :
    ¬ ∀ (cfg : Config) (es : List Event) (net : Net) (now : ℤ) (r : SessionId)
      (payload : Option WsMessage), Sound r net →
      Unhurt cfg net now r payload (Run.exec (step cfg) init es) := by
  intro h
  have hphone := h twoDevices offeredByLaptop laptopBroken 3 "phone"
    (some (.fileRequest ⟨none, some "f", some ["10.0.0.2:9001"]⟩)) (fun _ => .inl rfl)
  exact absurd hphone.1 (by decide)

/-- A broken laptop does not keep the phone from sending its clipboard. -/
theorem clipboard_with_broken_laptop :
    Unhurt twoDevices laptopBroken 3 "phone" (some (.clipboard ⟨none, some "text", none⟩))
      (Run.exec (step twoDevices) init offeredByLaptop) := by
  refine (requester_unhurt_iff twoDevices offeredByLaptop laptopBroken 3 "phone" _
    fun _ => .inl rfl).mpr ?_
  rintro msg cs ⟨rfl⟩ - hhurt
  exact hhurt

end SyncClipboard.Requester
