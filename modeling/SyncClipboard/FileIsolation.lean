import SyncClipboard.Acts

/-!
File signalling and user isolation.

The offer store is one map for all users, keyed by an id the client chooses, and no handler looks
at whose offer it finds there. A message that asks for an id under which another user has an offer
reads, replaces or deletes that offer. As long as no message does (`OwnOffers` at every step), the
users do not see each other.
-/

namespace SyncClipboard.FileIsolation

open Keyed ServerModel Dispatcher Views Acts

variable {cfg : Config}

/-- The message asks for no id under which another user's offer is stored. -/
def OwnOffers (cfg : Config) (st : Server) : Event → Prop
  | .text sid (some msg) _ _ => ∀ cs ∈ getSession sid st.sessions, ∀ g ∈ asked cfg msg,
      ∀ o ∈ st.activeOffers g, o.senderUsername = cs.username
  | _ => True

instance (cfg : Config) (st : Server) : ∀ e, Decidable (OwnOffers cfg st e)
  | .text sid (some msg) _ _ => inferInstanceAs (Decidable (∀ cs ∈ getSession sid st.sessions,
      ∀ g ∈ asked cfg msg, ∀ o ∈ st.activeOffers g, o.senderUsername = cs.username))
  | .text _ none _ _ | .established _ _ _ | .closed _ | .evict _ | .cleanup _ => isTrue trivial

/-- The offer a step registers, or takes the contents of its frames from. -/
def usedOffer (cfg : Config) (st : Server) : Event → Option Offer
  | .text sid (some msg) now _ =>
    (getSession sid st.sessions).bind fun cs => (asked cfg msg).bind fun g =>
      match msg with
      | .fileOffer m => some (offerOf cfg now sid cs g m)
      | _ => st.activeOffers g
  | _ => none

def isFileMessage : WsMessage → Bool
  | .fileOffer _ | .fileRequest _ | .fileRelay _ | .fileTransferResult _ => true
  | _ => false

/-- The frames that carry addresses, names, checksums or relay requests. -/
def isFileFrame : WsMessage → Bool
  | .fileNotify _ | .filePeerInfo _ | .fileRelayData _ | .fileRelayRequest _ => true
  | _ => false

/-- A file message of a session of `V`. -/
def fileMessageOf (cfg : Config) (V : String) : Event → Bool
  | .text sid (some msg) _ _ => isFileMessage msg && decide ((cfg.session sid).username = some V)
  | _ => false

def offersOf (U : String) (st : Server) (f : String) : Option Offer :=
  (st.activeOffers f).filter fun o => decide (o.senderUsername = U)

/-- Isolation of `U` from the file messages of `V` in one run: the same offers of `U` and the
same frames to its sessions as without those messages, and no file frame taken from an offer of
`U` is delivered to a session of `V`. -/
def FileIsolated (cfg : Config) (U V : String) (es : List Event) : Prop :=
  let es' := es.filter fun e => !fileMessageOf cfg V e
  (∀ f, offersOf U (Run.exec (step cfg) init es) f = offersOf U (Run.exec (step cfg) init es') f) ∧
  (∀ x, (cfg.session x).username = some U →
    deliveredTo x (Run.outs (step cfg) init es) = deliveredTo x (Run.outs (step cfg) init es')) ∧
  (∀ pre e post, es = pre ++ e :: post → ∀ o,
    usedOffer cfg (Run.exec (step cfg) init pre) e = some o → o.senderUsername = U →
    ∀ x, (cfg.session x).username = some V →
      ∀ f ∈ deliveredTo x (step cfg (Run.exec (step cfg) init pre) e).2, isFileFrame f = false)

/-! ### Steps of the hidden user -/

variable {V : String}

/-- The state without the file messages of `V`: alike for all other users, and without offers
of `V`. -/
structure Without (cfg : Config) (V : String) (s t : Server) : Prop where
  ownedLeft : Owned cfg s
  ownedRight : Owned cfg t
  view : SameView (fun u => decide (u ≠ V)) s t
  offers : ∀ f, t.activeOffers f = (s.activeOffers f).filter fun o => decide (o.senderUsername ≠ V)

lemma send_user {st : Server} (ho : Owned cfg st) {e : Event} (hok : OwnOffers cfg st e)
    {x : SessionId} {f : WsMessage} {b : Bool} (h : Act.send x f b ∈ (step cfg st e).2) :
    (cfg.session x).username = userOf cfg e := by
  rcases step_send ho h with hu | ⟨-, sid, msg, now, net, cs, g, o, rfl, hg, ha, hog, rfl⟩
  · exact hu
  · rw [ho.offer g o hog, hok cs hg g ha o hog, ← user_of_getSession ho hg]
    rfl

lemma deliveredTo_other {st : Server} (ho : Owned cfg st) {e : Event} (hok : OwnOffers cfg st e)
    {x : SessionId} (hx : (cfg.session x).username ≠ userOf cfg e) :
    deliveredTo x (step cfg st e).2 = [] := by
  rw [List.eq_nil_iff_forall_not_mem]
  intro f hf
  exact hx (send_user ho hok (mem_deliveredTo hf))

/-- Only file messages and the clean-up touch the offers. -/
lemma step_offers_same {st : Server} {e : Event}
    (h : ∀ sid msg now net, e = .text sid (some msg) now net → isFileMessage msg = false)
    (hc : ∀ now, e ≠ .cleanup now) (f : String) :
    (step cfg st e).1.activeOffers f = st.activeOffers f := by
  rw [step_entry]
  cases e with
  | text sid payload now net =>
    cases payload with
    | none => rfl
    | some msg =>
      have hm := h sid msg now net rfl
      cases msg <;> first | rfl | simp [isFileMessage] at hm
  | cleanup now => exact absurd rfl (hc now)
  | _ => rfl

lemma hidden_offers {s t : Server} (h : Without cfg V s t) {e : Event} (hok : OwnOffers cfg s e)
    (he : fileMessageOf cfg V e = true) (f : String) :
    t.activeOffers f =
      ((step cfg s e).1.activeOffers f).filter fun o => decide (o.senderUsername ≠ V) := by
  cases e with
  | text sid payload now net =>
    cases payload with
    | none => simp [fileMessageOf] at he
    | some msg =>
      simp only [fileMessageOf, Bool.and_eq_true, decide_eq_true_eq] at he
      rw [step_entry]
      cases hw : written cfg f s (.text sid (some msg) now net) with
      | none => exact h.offers f
      | some w =>
        obtain ⟨ha, cs, hg, hown⟩ := written_some hw
        have hV : cs.username = V :=
          Option.some.inj ((user_of_getSession h.ownedLeft hg).symm.trans he.2)
        -- neither before nor after is anything of another user stored under the id
        have hbefore : t.activeOffers f = none := by
          rw [h.offers f]
          cases ho : s.activeOffers f with
          | none => rfl
          | some o =>
            have hu := hok cs hg f ha o ho
            simp [hu, hV]
        have hafter : w.filter (fun o => decide (o.senderUsername ≠ V)) = none := by
          cases w with
          | none => rfl
          | some o =>
            have hu := hown o rfl
            simp [hu, hV]
        rw [hbefore, Option.getD_some, hafter]
  | _ => simp [fileMessageOf] at he

/-! ### Steps of both runs -/

lemma kept_hidden {s t : Server} (h : Without cfg V s t) {e : Event}
    (hu : userOf cfg e = some V) (he : fileMessageOf cfg V e = false) :
    Without cfg V (step cfg s e).1 (step cfg t e).1 := by
  have hV : decide (V ≠ V) = false := by simp
  have hmsg : ∀ sid msg now net, e = .text sid (some msg) now net → isFileMessage msg = false := by
    rintro sid msg now net rfl
    have hs : (cfg.session sid).username = some V := hu
    simpa [fileMessageOf, hs] using he
  have hc : ∀ now, e ≠ .cleanup now := by
    rintro now rfl
    simp [userOf, Event.session?] at hu
  refine ⟨step_owned h.ownedLeft e, step_owned h.ownedRight e, ?_, fun f => ?_⟩
  · exact (step_high h.ownedLeft hu hV).trans
      (h.view.trans (step_high h.ownedRight hu hV).symm)
  · rw [step_offers_same hmsg hc, step_offers_same hmsg hc]
    exact h.offers f

lemma asked_same {s t : Server} (h : Without cfg V s t) {sid : SessionId} {msg : WsMessage}
    {now : ℤ} {net : Net} {cs : ClientSession} (hg : getSession sid s.sessions = some cs)
    (hcs : cs.username ≠ V) (hok : OwnOffers cfg s (.text sid (some msg) now net)) {g : String}
    (ha : asked cfg msg = some g) : s.activeOffers g = t.activeOffers g := by
  rw [h.offers g]
  cases ho : s.activeOffers g with
  | none => rfl
  | some o =>
    have hu := hok cs hg g ha o ho
    simp [hu, hcs, Option.filter_some]

lemma getSession_same {s t : Server} (h : Without cfg V s t) {sid : SessionId}
    (hsid : (cfg.session sid).username ≠ some V) :
    getSession sid s.sessions = getSession sid t.sessions := by
  have hlow : ∀ v, (cfg.session sid).username = some v → decide (v ≠ V) = true := by
    rintro v hv
    simpa using fun hvV : v = V => hsid (hvV ▸ hv)
  rw [← getSession_low h.ownedLeft hlow, h.view.sessions, getSession_low h.ownedRight hlow]

lemma kept_offers {s t : Server} (h : Without cfg V s t) {e : Event}
    (hu : userOf cfg e ≠ some V) (f : String) :
    (step cfg t e).1.activeOffers f =
      ((step cfg s e).1.activeOffers f).filter fun o => decide (o.senderUsername ≠ V) := by
  have hsame : ∀ sid, e.session? = some sid →
      getSession sid s.sessions = getSession sid t.sessions := by
    intro sid hsid
    refine getSession_same h fun hV => hu ?_
    rw [userOf, hsid]
    exact hV
  rw [step_entry, step_entry, ← written_congr hsame]
  cases hw : written cfg f s e with
  | none =>
    cases e with
    | cleanup now =>
      show (t.activeOffers f).filter _ = ((s.activeOffers f).filter _).filter _
      rw [h.offers f, Option.filter_filter, Option.filter_filter]
      simp only [Bool.and_comm]
    | _ => exact h.offers f
  | some w =>
    cases e with
    | text sid payload now net =>
      cases payload with
      | none => simp [written] at hw
      | some msg =>
        obtain ⟨-, cs, hg, hown⟩ := written_some hw
        have hne : cs.username ≠ V := by
          rintro rfl
          exact hu (user_of_getSession h.ownedLeft hg)
        cases w with
        | none => rfl
        | some o =>
          have ho := hown o rfl
          simp [ho, hne, Option.filter_some]
    | _ => simp [written] at hw

lemma kept_acts {s t : Server} (h : Without cfg V s t) {e : Event}
    (hu : userOf cfg e ≠ some V) (hok : OwnOffers cfg s e) :
    (step cfg s e).2 = (step cfg t e).2 := by
  have hlow : ∀ v, userOf cfg e = some v → decide (v ≠ V) = true := by
    rintro v hv
    simpa using fun hvV : v = V => hu (hvV ▸ hv)
  cases e with
  | established sid now net => exact (established_acts h.view hlow net now).1
  | text sid payload now net =>
    cases payload with
    | none => exact (sendJson_acts net sid _ s t).1
    | some msg =>
      refine (handleTextMessage_acts ?_).1
      have hsame := getSession_same h hu
      unfold dispatch
      rw [← hsame]
      cases hg : getSession sid s.sessions with
      | none => exact ⟨rfl, rfl⟩
      | some cs =>
        have hne : cs.username ≠ V := by
          rintro rfl
          exact hu (user_of_getSession h.ownedLeft hg)
        refine handle_acts h.ownedLeft h.ownedRight h.view.sessions (by simpa using hne)
          (fun g ha => asked_same h hg hne hok ha) (fun g o ha ho => ?_) net now sid
        rw [← asked_same h hg hne hok ha] at ho
        rw [hok cs hg g ha o ho]
        simpa using hne
  | closed sid => rfl
  | evict now => rfl
  | cleanup now => rfl

lemma asked_eq_none {msg : WsMessage} (h : isFileMessage msg = false) : asked cfg msg = none := by
  cases msg <;> first | rfl | simp [isFileMessage] at h

lemma fileMessageOf_user {e : Event} (h : fileMessageOf cfg V e = true) :
    userOf cfg e = some V := by
  cases e with
  | text sid payload now net =>
    cases payload with
    | none => simp [fileMessageOf] at h
    | some msg =>
      simp only [fileMessageOf, Bool.and_eq_true, decide_eq_true_eq] at h
      exact h.2
  | _ => simp [fileMessageOf] at h

lemma ownOffers_other (st : Server) {e : Event} (he : fileMessageOf cfg V e = false)
    (hu : userOf cfg e = some V) : OwnOffers cfg st e := by
  cases e with
  | text sid payload now net =>
    cases payload with
    | none => trivial
    | some msg =>
      have hs : (cfg.session sid).username = some V := hu
      have hmsg : isFileMessage msg = false := by simpa [fileMessageOf, hs] using he
      intro cs _ g ha
      rw [asked_eq_none hmsg] at ha; cases ha
  | _ => trivial

lemma hidden_step {s t : Server} (h : Without cfg V s t) {e : Event} (hok : OwnOffers cfg s e)
    (he : fileMessageOf cfg V e = true) : Without cfg V (step cfg s e).1 t :=
  ⟨step_owned h.ownedLeft e, h.ownedRight,
    (step_high h.ownedLeft (fileMessageOf_user he) (by simp)).trans h.view,
    hidden_offers h hok he⟩

lemma kept_step {s t : Server} (h : Without cfg V s t) {e : Event}
    (he : fileMessageOf cfg V e = false) :
    Without cfg V (step cfg s e).1 (step cfg t e).1 := by
  by_cases hu : userOf cfg e = some V
  · exact kept_hidden h hu he
  · refine ⟨step_owned h.ownedLeft e, step_owned h.ownedRight e, ?_, kept_offers h hu⟩
    refine step_low h.ownedLeft h.ownedRight h.view fun v hv => ?_
    simpa using fun hvV : v = V => hu (hvV ▸ hv)

lemma without_init : Without cfg V init init :=
  ⟨owned_init, owned_init, SameView.refl _, fun _ => rfl⟩

lemma kept_delivered {s t : Server} (h : Without cfg V s t) {e : Event}
    (hok : OwnOffers cfg s e) (he : fileMessageOf cfg V e = false) {x : SessionId}
    (hx : (cfg.session x).username ≠ some V) :
    deliveredTo x (step cfg s e).2 = deliveredTo x (step cfg t e).2 := by
  by_cases hu : userOf cfg e = some V
  · rw [deliveredTo_other h.ownedLeft hok (hu ▸ hx),
      deliveredTo_other h.ownedRight (ownOffers_other t he hu) (hu ▸ hx)]
  · rw [kept_acts h hu hok]

lemma usedOffer_user {st : Server} (ho : Owned cfg st) {e : Event} (hok : OwnOffers cfg st e)
    {o : Offer} (h : usedOffer cfg st e = some o) : userOf cfg e = some o.senderUsername := by
  cases e with
  | text sid payload now net =>
    cases payload with
    | none => simp [usedOffer] at h
    | some msg =>
      obtain ⟨cs, hg, h⟩ := Option.bind_eq_some_iff.mp h
      obtain ⟨g, ha, h⟩ := Option.bind_eq_some_iff.mp h
      have hcs : userOf cfg (.text sid (some msg) now net) = some cs.username :=
        user_of_getSession ho hg
      have hstored : st.activeOffers g = some o →
          userOf cfg (.text sid (some msg) now net) = some o.senderUsername := fun hog => by
        rw [hcs, hok cs hg g ha o hog]
      cases msg with
      | fileOffer m =>
        simp only [Option.some.injEq] at h
        rw [hcs, ← h]; rfl
      | _ => exact hstored h
  | _ => simp [usedOffer] at h

/-- **File signalling is isolated while every message asks for its own user's offers.** In every
run none of whose messages asks for an id under which another user's offer is stored, the offers
of a user and the frames delivered to it are the same as without the file messages of another
user, and nothing taken from its offers is delivered to that user. -/
theorem fileIsolated_of_ownOffers {U V : String} (hUV : U ≠ V) {es : List Event}
    (hok : Run.Steps (step cfg) (OwnOffers cfg) init es) : FileIsolated cfg U V es := by
  have hne : some U ≠ some V := fun h => hUV (Option.some.inj h)
  refine ⟨fun f => ?_, fun x hx => ?_, ?_⟩
  · have hR := (Run.unwind (step cfg) (R := Without cfg V)
      (fun e => !fileMessageOf cfg V e) (fun _ => ([] : List Unit)) (fun _ _ => rfl)
      (fun s t e h ho hk => ⟨hidden_step h ho (by simpa using hk), rfl⟩)
      (fun s t e h ho hk => ⟨kept_step h (by simpa using hk), rfl⟩) without_init hok).1
    unfold offersOf
    rw [hR.offers f, Option.filter_filter]
    congr 1
    funext o
    by_cases ho : o.senderUsername = U
    · simp [ho, hUV]
    · simp [ho]
  · refine (Run.unwind (step cfg) (R := Without cfg V) _ (deliveredTo x)
      (deliveredTo_append x) ?_ ?_ without_init hok).2
    · intro s t e h ho hk
      have he : fileMessageOf cfg V e = true := by simpa using hk
      refine ⟨hidden_step h ho he, deliveredTo_other h.ownedLeft ho ?_⟩
      rw [hx, fileMessageOf_user he]; exact hne
    · intro s t e h ho hk
      have he : fileMessageOf cfg V e = false := by simpa using hk
      exact ⟨kept_step h he, kept_delivered h ho he (hx ▸ hne)⟩
  · rintro pre e post rfl o ho hoU x hx f hf
    have hst := exec_owned cfg pre
    have hstep := Run.steps_at hok
    rw [deliveredTo_other hst hstep] at hf
    · simp at hf
    · rw [usedOffer_user hst hstep ho, hoU, hx]; exact hne.symm

/-! ### Two users and one file id -/

def twoUsers : Config where
  fileTransferLevel := 2
  udpPort := 8081
  maxRelaySize := 307200
  session sid :=
    if sid = "a" then ⟨some "alice", some "laptop", some "198.51.100.1"⟩
    else if sid = "b" then ⟨some "bob", some "phone", some "203.0.113.7"⟩
    else ⟨none, none, none⟩

/-- Alice offers the file `f`, and bob asks for it. -/
def foreignRequest : List Event :=
  [.established "a" 0 allOk, .established "b" 1 allOk,
    .text "a" (some (.fileOffer ⟨none, some "f", some "photo.png", some "image/png", 4, some "c0de",
      some ["192.168.1.5:9000"]⟩)) 2 allOk,
    .text "b" (some (.fileRequest ⟨none, some "f", some ["10.0.0.2:9001"]⟩)) 3 allOk]

/-- Bob is told alice's addresses, and alice's session is told of bob's request. -/
theorem foreignRequest_leaks : ¬ FileIsolated twoUsers "alice" "bob" foreignRequest := by
  intro h
  have h2 := h.2.1 "a" (by decide)
  revert h2
  decide

/-- Bob asks for a file of his own instead. -/
def ownRequest : List Event :=
  [.established "a" 0 allOk, .established "b" 1 allOk,
    .text "a" (some (.fileOffer ⟨none, some "f", some "photo.png", some "image/png", 4, some "c0de",
      some ["192.168.1.5:9000"]⟩)) 2 allOk,
    .text "b" (some (.fileRequest ⟨none, some "g", some ["10.0.0.2:9001"]⟩)) 3 allOk]

theorem ownRequest_isolated : FileIsolated twoUsers "alice" "bob" ownRequest :=
  fileIsolated_of_ownOffers (by decide) (by decide)

end SyncClipboard.FileIsolation
