import SyncClipboard.Acts

/-!
Several receivers of one offer.

A `file_transfer_result` deletes the offer it names, whoever sends it and whatever it reports.
The other receivers of the offer are answered from the store, so from then on they are told that
there is no such offer, until the entry is written again or would have expired anyway. This is
exactly when an outcome changes the answer of somebody else (`sameAnswer_iff`).
-/

namespace SyncClipboard.OfferResult

open Keyed ServerModel Dispatcher Views Acts

variable (cfg : Config)

/-- The event leaves the entry of an id as it is: it neither offers the id anew nor reports a
result for it, and a clean-up does not find it expired. -/
def Keeps (F : String) (st : Server) (e : Event) : Prop :=
  written cfg F st e = none ∧
    ∀ now, e = .cleanup now → ∀ o ∈ st.activeOffers F, now - offerTtlMs ≤ o.timestamp

/-- A request for the file or a relay message for it. -/
def AsksFor (F : String) : WsMessage → Prop
  | .fileRequest m => m.fileId = some F
  | .fileRelay m => m.fileId = some F
  | _ => False

/-- The message `ev` that follows `mid` is answered alike with and without the event `result`. -/
def SameAnswer (es : List Event) (result : Event) (mid : List Event) (ev : Event) : Prop :=
  (step cfg (Run.exec (step cfg) init (es ++ result :: mid)) ev).2 =
    (step cfg (Run.exec (step cfg) init (es ++ mid)) ev).2

/-- No receiver's outcome changes what another receiver of the same offer is answered. -/
def OutcomesIndependent : Prop :=
  ∀ (es mid : List Event) (u F : String) (o : Offer) (r₁ r₂ : SessionId) (c₁ c₂ : ClientSession)
    (res : FileTransferResult) (msg : WsMessage) (now₁ now₂ : ℤ) (net₁ net₂ : Net),
    (Run.exec (step cfg) init es).activeOffers F = some o → o.senderUsername = u →
    getSession r₁ (Run.exec (step cfg) init es).sessions = some c₁ → c₁.username = u →
    getSession r₂ (Run.exec (step cfg) init (es ++ mid)).sessions = some c₂ → c₂.username = u →
    r₁ ≠ r₂ → res.fileId = some F → AsksFor F msg → now₂ - o.timestamp ≤ offerTtlMs →
    SameAnswer cfg es (.text r₁ (some (.fileTransferResult res)) now₁ net₁) mid
      (.text r₂ (some msg) now₂ net₂)

variable {cfg} {F : String}

/-! ### The entry of one id -/

variable (cfg) in
lemma result_entry {st : Server} {r : SessionId} {c : ClientSession}
    (hr : getSession r st.sessions = some c) {res : FileTransferResult} (hF : res.fileId = some F)
    (now : ℤ) (net : Net) :
    (step cfg st (.text r (some (.fileTransferResult res)) now net)).1.activeOffers F = none := by
  rw [step_entry]
  simp [written, hr, hF]

/-! ### Two runs that differ in one entry -/

/-- Two states that differ at most in the entry of one id. -/
structure Alike (cfg : Config) (F : String) (s t : Server) : Prop where
  ownedLeft : Owned cfg s
  ownedRight : Owned cfg t
  view : SameView (fun _ => true) s t
  offers : ∀ f ≠ F, s.activeOffers f = t.activeOffers f

lemma Alike.sessions {s t : Server} (h : Alike cfg F s t) : s.sessions = t.sessions := by
  simpa [lowSessions] using h.view.sessions

lemma Alike.written {s t : Server} (h : Alike cfg F s t) (f : String) (e : Event) :
    written cfg f s e = written cfg f t e :=
  written_congr fun _ _ => by rw [h.sessions]

lemma Alike.step {s t : Server} (h : Alike cfg F s t) (e : Event) :
    Alike cfg F (step cfg s e).1 (step cfg t e).1 where
  ownedLeft := step_owned h.ownedLeft e
  ownedRight := step_owned h.ownedRight e
  view := step_low h.ownedLeft h.ownedRight h.view fun _ _ => rfl
  offers f hf := by
    rw [step_entry, step_entry, h.written, h.offers f hf]

lemma keeps_entry {s t : Server} (h : Alike cfg F s t) {o : Offer}
    (hs : s.activeOffers F = some o) (ht : t.activeOffers F = none) {e : Event}
    (hk : Keeps cfg F s e) :
    (step cfg s e).1.activeOffers F = some o ∧ (step cfg t e).1.activeOffers F = none := by
  have hw : written cfg F t e = none := by
    rw [← h.written]; exact hk.1
  rw [step_entry, step_entry, hk.1, hw, hs, ht]
  cases e with
  | cleanup now =>
    have hle : now - offerTtlMs ≤ o.timestamp := hk.2 now rfl o hs
    simp [Option.filter_some, hle]
  | _ => exact ⟨rfl, rfl⟩

/-- Where it is not kept, it is the same on both sides afterwards. -/
lemma not_keeps_entry {s t : Server} (h : Alike cfg F s t) {o : Offer}
    (hs : s.activeOffers F = some o) (ht : t.activeOffers F = none) {e : Event}
    (hk : ¬ Keeps cfg F s e) :
    (step cfg s e).1.activeOffers F = (step cfg t e).1.activeOffers F := by
  rw [step_entry, step_entry, ← h.written]
  cases hw : written cfg F s e with
  | some o' => rfl
  | none =>
    -- then the event is a clean-up that finds the entry expired
    have hexp : ∃ now, e = .cleanup now ∧ o.timestamp < now - offerTtlMs := by
      by_contra hno
      refine hk ⟨hw, fun now he o' ho' => ?_⟩
      rw [hs, Option.mem_some_iff] at ho'
      subst ho'
      by_contra hlt
      exact hno ⟨now, he, by omega⟩
    obtain ⟨now, rfl, hlt⟩ := hexp
    rw [hs, ht]
    simp [Option.filter_some, hlt]

lemma exec_same {s t : Server} (h : Alike cfg F s t)
    (heq : s.activeOffers F = t.activeOffers F) (mid : List Event) :
    Alike cfg F (Run.exec (step cfg) s mid) (Run.exec (step cfg) t mid) ∧
      (Run.exec (step cfg) s mid).activeOffers F = (Run.exec (step cfg) t mid).activeOffers F := by
  induction mid generalizing s t with
  | nil => exact ⟨h, heq⟩
  | cons e mid ih =>
    refine ih (h.step e) ?_
    rw [step_entry, step_entry, h.written, heq]

lemma exec_kept {s t : Server} (h : Alike cfg F s t) {o : Offer}
    (hs : s.activeOffers F = some o) (ht : t.activeOffers F = none) {mid : List Event}
    (hk : Run.Steps (step cfg) (Keeps cfg F) s mid) :
    Alike cfg F (Run.exec (step cfg) s mid) (Run.exec (step cfg) t mid) ∧
      (Run.exec (step cfg) s mid).activeOffers F = some o ∧
      (Run.exec (step cfg) t mid).activeOffers F = none := by
  induction mid generalizing s t with
  | nil => exact ⟨h, hs, ht⟩
  | cons e mid ih =>
    obtain ⟨hs', ht'⟩ := keeps_entry h hs ht hk.1
    exact ih (h.step e) hs' ht' hk.2

lemma exec_not_kept {s t : Server} (h : Alike cfg F s t) {o : Offer}
    (hs : s.activeOffers F = some o) (ht : t.activeOffers F = none) {mid : List Event}
    (hk : ¬ Run.Steps (step cfg) (Keeps cfg F) s mid) :
    Alike cfg F (Run.exec (step cfg) s mid) (Run.exec (step cfg) t mid) ∧
      (Run.exec (step cfg) s mid).activeOffers F = (Run.exec (step cfg) t mid).activeOffers F := by
  induction mid generalizing s t with
  | nil => exact absurd trivial hk
  | cons e mid ih =>
    by_cases he : Keeps cfg F s e
    · obtain ⟨hs', ht'⟩ := keeps_entry h hs ht he
      exact ih (h.step e) hs' ht' fun hrest => hk ⟨he, hrest⟩
    · exact exec_same (h.step e) (not_keeps_entry h hs ht he) mid

/-! ### The answers -/

/-- The refusal of a request or a relay message that finds no offer. -/
def isNotFound : WsMessage → Bool
  | .error e => decide (e.code = "FILE_OFFER_NOT_FOUND")
  | _ => false

lemma sendJson_open {net : Net} {sid : SessionId} {f : WsMessage} (h : net sid f ≠ .closed)
    (st : Server) : ∃ b, Act.send sid f b ∈ (sendJson net sid f st).acts := by
  unfold sendJson sendMessage
  rw [if_neg h]
  cases net sid f <;> simp

lemma mem_handleTextMessage_of_handle {st : Server} {sid : SessionId} {cs : ClientSession}
    (hg : getSession sid st.sessions = some cs) {net : Net} {now : ℤ} {msg : WsMessage} {a : Act}
    (h : a ∈ (handle cfg net now sid cs msg st).acts) :
    a ∈ (handleTextMessage cfg net now sid (some msg) st).acts := by
  unfold handleTextMessage dispatch
  simp only [hg]
  split
  · exact List.mem_append_left _ h
  · exact h

lemma refused_of_missing {st : Server} {r : SessionId} {c : ClientSession}
    (hr : getSession r st.sessions = some c) {msg : WsMessage} (hmsg : AsksFor F msg)
    (hask : asked cfg msg ≠ none) (hF : st.activeOffers F = none) {net : Net}
    (hopen : ∀ f, net r f ≠ .closed) (now : ℤ) :
    ∃ f b, isNotFound f = true ∧ Act.send r f b ∈ (step cfg st (.text r (some msg) now net)).2 := by
  suffices h : ∃ f b, isNotFound f = true ∧ Act.send r f b ∈ (handle cfg net now r c msg st).acts by
    obtain ⟨f, b, hf, hm⟩ := h
    exact ⟨f, b, hf, mem_handleTextMessage_of_handle hr hm⟩
  cases msg with
  | fileRequest m =>
    have hm : m.fileId = some F := hmsg
    simp only [handle, handleFileRequest, hm, hF]
    obtain ⟨b, hb⟩ := sendJson_open (hopen (.error ⟨"FILE_OFFER_NOT_FOUND",
      "File offer not found: " ++ F, false⟩)) st
    exact ⟨_, b, rfl, hb⟩
  | fileRelay m =>
    have hm : m.fileId = some F := hmsg
    have hl : ¬ cfg.fileTransferLevel < 3 := fun hl => hask (by simp [asked, hl])
    simp only [handle, handleFileRelay, if_neg hl, hm, hF]
    obtain ⟨b, hb⟩ := sendJson_open (hopen (.error ⟨"FILE_OFFER_NOT_FOUND",
      "File offer not found", false⟩)) st
    exact ⟨_, b, rfl, hb⟩
  | _ => exact absurd hmsg not_false

lemma not_refused_of_stored {st : Server} {r : SessionId} {msg : WsMessage}
    (hmsg : AsksFor F msg) {o : Offer} (hF : st.activeOffers F = some o) {net : Net} {now : ℤ}
    {x : SessionId} {f : WsMessage} {b : Bool}
    (h : Act.send x f b ∈ (step cfg st (.text r (some msg) now net)).2) : isNotFound f = false := by
  rcases mem_handleTextMessage h with ⟨-, rfl⟩ | ⟨c, -, h⟩
  · rfl
  cases msg with
  | fileRequest m =>
    have hm : m.fileId = some F := hmsg
    simp only [handle, handleFileRequest, hm, hF, Res.andThen] at h
    have hpeer : Act.send x f b ∈
        (sendToSender net o (peerInfoForSender cfg r c F m o) st).acts → isNotFound f = false := by
      intro h'
      obtain ⟨_, he⟩ := mem_sendToSender h'
      cases he; rfl
    split at h
    · exact hpeer h
    · rcases List.mem_append.mp h with h' | h'
      · exact hpeer h'
      · obtain ⟨_, he⟩ := mem_sendJson h'
        cases he; rfl
  | fileRelay m =>
    have hm : m.fileId = some F := hmsg
    by_cases hl : cfg.fileTransferLevel < 3
    · simp only [handle, handleFileRelay, if_pos hl] at h
      obtain ⟨_, he⟩ := mem_sendJson h
      cases he; rfl
    · simp only [handle, handleFileRelay, if_neg hl, hm, hF] at h
      split_ifs at h
      · obtain ⟨_, he⟩ := mem_sendJson h
        cases he; rfl
      · cases ht : m.targetDevice with
        | some target =>
          simp only [ht] at h
          obtain ⟨_, _, _, he⟩ := mem_sendEach h
          cases he; rfl
        | none =>
          simp only [ht] at h
          obtain ⟨_, he⟩ := mem_sendToSender h
          cases he; rfl
  | _ => exact absurd hmsg not_false

lemma answer_congr {s t : Server} (h : Alike cfg F s t) {msg : WsMessage} (hmsg : AsksFor F msg)
    (hF : asked cfg msg ≠ none → s.activeOffers F = t.activeOffers F) (r : SessionId) (now : ℤ)
    (net : Net) : (step cfg s (.text r (some msg) now net)).2 =
      (step cfg t (.text r (some msg) now net)).2 := by
  refine (handleTextMessage_acts ?_).1
  unfold dispatch
  rw [← h.sessions]
  cases getSession r s.sessions with
  | none => exact ⟨rfl, rfl⟩
  | some c =>
    refine handle_acts h.ownedLeft h.ownedRight h.view.sessions rfl (fun g hg => ?_)
      (fun _ _ _ _ => rfl) net now r
    by_cases hgF : g = F
    · subst hgF; exact hF (by simp [hg])
    · exact h.offers g hgF

/-! ### One receiver's outcome and the others -/

lemma alike_result {st : Server} (h : Owned cfg st) {r : SessionId} {res : FileTransferResult}
    (hF : res.fileId = some F) (now : ℤ) (net : Net) :
    Alike cfg F st (step cfg st (.text r (some (.fileTransferResult res)) now net)).1 := by
  refine ⟨h, step_owned h _, ?_, fun f hf => ?_⟩
  · have hst : (step cfg st (.text r (some (.fileTransferResult res)) now net)).1 =
        (dispatch cfg net now r (.fileTransferResult res) st).st := handleTextMessage_st _ _ _ _ _ _
    rw [hst]
    unfold dispatch
    cases getSession r st.sessions with
    | none => exact SameView.refl st
    | some c =>
      refine ⟨?_, fun u _ => ?_⟩
      · show lowSessions _ st.sessions = lowSessions _ (handle cfg net now r c _ st).st.sessions
        rw [handle_sessions]; rfl
      · show _ = (handle cfg net now r c _ st).st.cache u
        rw [handle_cache]
  · have hne : F ≠ f := hf.symm
    rw [step_entry]
    cases hg : getSession r st.sessions <;> simp [written, hg, hF, hne]

/-- **When a receiver's outcome leaves another receiver alone.** An offer is stored under `F`, a
registered session reports a result for it, and after more events an open session asks for `F`.
It is answered as without that result exactly when the entry of `F` was written again or expired
in between, or when its message does not look into the store. -/
theorem sameAnswer_iff {es mid : List Event} {o : Offer} {r₁ r₂ : SessionId}
    {c₁ c₂ : ClientSession} {res : FileTransferResult} {msg : WsMessage} {now₁ now₂ : ℤ}
    {net₁ net₂ : Net} (ho : (Run.exec (step cfg) init es).activeOffers F = some o)
    (hr₁ : getSession r₁ (Run.exec (step cfg) init es).sessions = some c₁)
    (hr₂ : getSession r₂ (Run.exec (step cfg) init (es ++ mid)).sessions = some c₂)
    (hF : res.fileId = some F) (hmsg : AsksFor F msg) (hopen : ∀ f, net₂ r₂ f ≠ .closed) :
    SameAnswer cfg es (.text r₁ (some (.fileTransferResult res)) now₁ net₁) mid
        (.text r₂ (some msg) now₂ net₂) ↔
      ¬ Run.Steps (step cfg) (Keeps cfg F) (Run.exec (step cfg) init es) mid ∨
        asked cfg msg = none := by
  have halike := alike_result (exec_owned cfg es) (r := r₁) hF now₁ net₁
  have hgone := result_entry cfg hr₁ hF now₁ net₁
  unfold SameAnswer
  rw [Run.exec_append] at hr₂
  rw [Run.exec_append, Run.exec_append, Run.exec_cons]
  by_cases hk : Run.Steps (step cfg) (Keeps cfg F) (Run.exec (step cfg) init es) mid
  · obtain ⟨hmid, hs, ht⟩ := exec_kept halike ho hgone hk
    constructor
    · -- the refusal of the run with the result is missing in the run without it
      intro hsame
      right
      by_contra hask
      have hr₂' := hmid.sessions ▸ hr₂
      obtain ⟨f, b, hf, hm⟩ := refused_of_missing hr₂' hmsg hask ht hopen now₂
      rw [hsame] at hm
      simp [not_refused_of_stored hmsg hs hm] at hf
    · rintro (hno | hask)
      · exact absurd hk hno
      · exact (answer_congr hmid hmsg (fun h => absurd hask h) r₂ now₂ net₂).symm
  · obtain ⟨hmid, heq⟩ := exec_not_kept halike ho hgone hk
    exact ⟨fun _ => .inl hk, fun _ => (answer_congr hmid hmsg (fun _ => heq) r₂ now₂ net₂).symm⟩

/-! ### Two receivers of one file -/

def offerF (now : ℤ) : Event :=
  .text "a" (some (.fileOffer ⟨none, some "f", some "photo.png", some "image/png", 4, some "c0de",
    some ["192.168.1.5:9000"]⟩)) now allOk

def offered : List Event :=
  [.established "a" 0 allOk, .established "b" 1 allOk,
    .established "c" 2 allOk, offerF 3]

def phoneDone : FileTransferResult := ⟨some "f", some "lan", true, 12, 80⟩

/-- The desktop asks for the file a moment after the phone reported, and is refused. -/
theorem outcomes_not_independent : ¬ OutcomesIndependent threeDevices := by
  intro h
  have hsame := h offered [] "alice" "f" _ "b" "c" _ _ phoneDone
    (.fileRequest ⟨none, some "f", some ["192.168.1.9:9001"]⟩) 4 5 allOk allOk
    rfl rfl rfl rfl rfl rfl (by decide) rfl rfl (by decide)
  revert hsame
  unfold SameAnswer
  decide

/-- When the laptop offers the file again, the desktop is answered as if nothing had happened. -/
theorem sameAnswer_reoffered :
    SameAnswer threeDevices offered
      (.text "b" (some (.fileTransferResult phoneDone)) 4 allOk) [offerF 5]
      (.text "c" (some (.fileRequest ⟨none, some "f", some ["192.168.1.9:9001"]⟩)) 6
        allOk) := by
  refine (sameAnswer_iff (F := "f") rfl rfl rfl rfl (by rfl) (by simp)).mpr (.inl fun hkept => ?_)
  exact absurd hkept.1.1 (by decide)

end SyncClipboard.OfferResult
