import SyncClipboard.Acts

/-!
Clipboards stay inside their user, and reach every other session of it once.

The first half is about one clipboard message in any reachable state: the frame is handed once to
each other open session of the user, to nobody else, and only sessions found closed or whose send
failed leave the registry. The second half compares two runs: the clipboard frames a session
receives do not change when the events of all other users are left out.
-/

namespace SyncClipboard.ClipIsolation

open Keyed ServerModel Dispatcher Views Acts

variable {cfg : Config}

/-! ### One broadcast -/

lemma handedTo_taskActs (x : SessionId) (net : Net) (f : WsMessage) (t : ClientSession) :
    handedTo x (taskActs net f t) = if t.session = x ∧ net x f ≠ .closed then [f] else [] := by
  unfold taskActs
  by_cases hx : t.session = x
  · subst hx
    cases hn : net t.session f <;> simp [handedTo]
  · cases hn : net t.session f <;> simp [handedTo, hx]

lemma handedTo_broadcast (x : SessionId) (net : Net) (f : WsMessage) {ts : List ClientSession}
    (hd : Distinct ClientSession.session ts) :
    handedTo x (ts.flatMap (taskActs net f)) =
      if (∃ t ∈ ts, t.session = x) ∧ net x f ≠ .closed then [f] else [] := by
  induction ts with
  | nil => simp [handedTo]
  | cons t ts ih =>
    have hd' := List.nodup_cons.mp hd
    rw [List.flatMap_cons, handedTo_append, handedTo_taskActs, ih hd'.2]
    by_cases hx : t.session = x
    · have hnot : ¬ ∃ t' ∈ ts, t'.session = x := by
        rintro ⟨t', ht', rfl⟩
        exact hd'.1 (hx ▸ List.mem_map_of_mem ht')
      simp [hx, hnot]
    · simp [hx]

lemma mem_taskRegistry {net : Net} {f : WsMessage} {reg : Registry} {t y : ClientSession} :
    y ∈ taskRegistry net f reg t ↔ y ∈ reg ∧
      ((net t.session f = .closed ∨ net t.session f = .ioException) → y.session ≠ t.session) := by
  unfold taskRegistry removeSession
  cases hn : net t.session f <;> simp [mem_remove]

lemma mem_foldl_taskRegistry {net : Net} {f : WsMessage} {ts : List ClientSession}
    {reg : Registry} {y : ClientSession} :
    y ∈ ts.foldl (taskRegistry net f) reg ↔ y ∈ reg ∧
      ∀ t ∈ ts, (net t.session f = .closed ∨ net t.session f = .ioException) →
        y.session ≠ t.session := by
  induction ts generalizing reg with
  | nil => simp
  | cons t ts ih =>
    rw [List.foldl_cons, ih, mem_taskRegistry, List.forall_mem_cons, and_assoc]

lemma step_clipboard {st : Server} {sid : SessionId} {cs : ClientSession}
    (hg : getSession sid st.sessions = some cs) (m : Clipboard) (now : ℤ) (net : Net) :
    (step cfg st (.text sid (some (.clipboard m)) now net)).2 =
        (broadcastTargets cs.username sid st.sessions).flatMap
          (taskActs net (.clipboard ⟨m.msgId, m.content, some cs.deviceId⟩)) ∧
      (step cfg st (.text sid (some (.clipboard m)) now net)).1.sessions =
        (broadcastTargets cs.username sid st.sessions).foldl
          (taskRegistry net (.clipboard ⟨m.msgId, m.content, some cs.deviceId⟩)) st.sessions := by
  simp [step, react, handleTextMessage, dispatch, hg, handle, handleClipboard, broadcastToUser]

/-! ### Two runs -/

/-- The clipboard frames delivered to a session: broadcasts and replays. -/
def clipsTo (x : SessionId) (as : List Act) : List WsMessage := (deliveredTo x as).filter isClip

lemma clipsTo_append (x : SessionId) (as bs : List Act) :
    clipsTo x (as ++ bs) = clipsTo x as ++ clipsTo x bs := by
  rw [clipsTo, deliveredTo_append, List.filter_append]; rfl

lemma clipsTo_eq_nil {x : SessionId} {as : List Act}
    (h : ∀ f, Act.send x f true ∈ as → isClip f = false) : clipsTo x as = [] := by
  rw [clipsTo, List.filter_eq_nil_iff]
  intro f hf
  simp [h f (mem_deliveredTo hf)]

lemma clip_user {st : Server} (ho : Owned cfg st) {e : Event} {x : SessionId} {f : WsMessage}
    {b : Bool} (h : Act.send x f b ∈ (step cfg st e).2) (hf : isClip f = true) :
    (cfg.session x).username = userOf cfg e := by
  rcases step_send ho h with hu | ⟨hf', -⟩
  · exact hu
  · rw [hf'] at hf; cases hf

lemma clipsTo_other {net : Net} {now : ℤ} {sid : SessionId} {msg : WsMessage} {st : Server}
    (hmsg : isClip msg = false) (x : SessionId) :
    clipsTo x (handleTextMessage cfg net now sid (some msg) st).acts = [] := by
  refine clipsTo_eq_nil fun f hf => ?_
  rcases mem_handleTextMessage hf with ⟨-, rfl⟩ | ⟨cs, -, hm⟩
  · rfl
  · rcases handle_send hm with ⟨-, h⟩ | ⟨_, -, -, -, h⟩ | ⟨_, _, -, -, -, h⟩
    · exact h
    · by_contra hc
      rw [h (by simpa using hc)] at hmsg; cases hmsg
    · exact h

/-- The events that are left when those of every user but `u` are deleted. -/
def keepUser (cfg : Config) (u : String) (e : Event) : Bool :=
  (userOf cfg e).all fun v => decide (v = u)

lemma keepUser_false {u : String} {e : Event} (h : keepUser cfg u e = false) :
    ∃ v, userOf cfg e = some v ∧ v ≠ u := by
  unfold keepUser at h
  cases hu : userOf cfg e with
  | none => simp [hu] at h
  | some v => exact ⟨v, rfl, by simpa [hu] using h⟩

lemma keepUser_true {u : String} {e : Event} (h : keepUser cfg u e = true) :
    ∀ v, userOf cfg e = some v → decide (v = u) = true := by
  intro v hv
  simpa [keepUser, hv] using h

/-- An event of the group hands out the same clipboard frames in states that look alike to it. -/
lemma clipsTo_low {low : String → Bool} {s t : Server} (hs : Owned cfg s) (ht : Owned cfg t)
    (h : SameView low s t) {e : Event} (hu : ∀ v, userOf cfg e = some v → low v = true)
    (x : SessionId) : clipsTo x (step cfg s e).2 = clipsTo x (step cfg t e).2 := by
  cases e with
  | established sid now net => exact congrArg _ (established_acts h hu net now).1
  | text sid payload now net =>
    cases payload with
    | none => exact congrArg _ (sendJson_acts net sid _ s t).1
    | some msg =>
      cases hmsg : isClip msg with
      | false => exact (clipsTo_other hmsg x).trans (clipsTo_other hmsg x).symm
      | true =>
        cases msg with
        | clipboard m =>
          have hsess : getSession sid s.sessions = getSession sid t.sessions := by
            rw [← getSession_low hs hu, h.sessions, getSession_low ht hu]
          cases hg : getSession sid t.sessions with
          | none =>
            simp [step, react, handleTextMessage, dispatch, hsess.trans hg, hg]
          | some cs =>
            have hlow : low cs.username = true := hu _ (user_of_getSession ht hg)
            rw [(step_clipboard (hsess.trans hg) m now net).1, (step_clipboard hg m now net).1]
            exact congrArg _ (broadcast_acts h.sessions hlow net sid _).1
        | _ => simp [isClip] at hmsg
  | closed sid => rfl
  | evict now => rfl
  | cleanup now => rfl

/-- The clipboard frames of a session are the same without the events of all other users. -/
theorem clipsTo_restrict (es : List Event) {u : String} {x : SessionId}
    (hx : (cfg.session x).username = some u) :
    clipsTo x (Run.outs (step cfg) init es) =
      clipsTo x (Run.outs (step cfg) init (es.filter (keepUser cfg u))) := by
  refine (Run.unwind (step cfg) (R := fun s t => Owned cfg s ∧ Owned cfg t ∧
    SameView (fun v => decide (v = u)) s t) (keepUser cfg u) (clipsTo x)
    (clipsTo_append x) ?_ ?_ ⟨owned_init, owned_init, SameView.refl _⟩ (Run.steps_true _ _)).2
  · rintro s t e ⟨hs, ht, hv⟩ - hk
    obtain ⟨v, hev, hne⟩ := keepUser_false hk
    refine ⟨⟨step_owned hs e, ht, (step_high hs hev (by simpa using hne)).trans hv⟩, ?_⟩
    refine clipsTo_eq_nil fun f hf => ?_
    by_contra hc
    have hu := clip_user hs hf (by simpa using hc)
    rw [hx, hev] at hu
    exact hne (Option.some.inj hu).symm
  · rintro s t e ⟨hs, ht, hv⟩ - hk
    exact ⟨⟨step_owned hs e, step_owned ht e, step_low hs ht hv (keepUser_true hk)⟩,
      clipsTo_low hs ht hv (keepUser_true hk) x⟩

/-- **User isolation and exact delivery of clipboards.** In every reachable state a clipboard
message of a registered session is handed once to every other open registered session of the
same user and to no one else, and only sessions found closed or whose send failed leave the
registry. In every run the clipboard frames delivered to the sessions of a user are those of the
run without the events of the other users. -/
theorem clipboard_isolated (cfg : Config) :
    (∀ (es : List Event) (sid : SessionId) (cs : ClientSession) (m : Clipboard) (now : ℤ)
        (net : Net), getSession sid (Run.exec (step cfg) init es).sessions = some cs →
      let st := Run.exec (step cfg) init es
      let frame := WsMessage.clipboard ⟨m.msgId, m.content, some cs.deviceId⟩
      let next := step cfg st (.text sid (some (.clipboard m)) now net)
      (∀ x, handedTo x next.2 =
        if (∃ t ∈ st.sessions, t.session = x) ∧ x ≠ sid ∧
            (cfg.session x).username = (cfg.session sid).username ∧ net x frame ≠ .closed
        then [frame] else []) ∧
      (∀ t ∈ next.1.sessions, t ∈ st.sessions) ∧
      (∀ t ∈ st.sessions, t ∉ next.1.sessions →
        net t.session frame = .closed ∨ net t.session frame = .ioException)) ∧
    (∀ (es : List Event) (u : String) (x : SessionId), (cfg.session x).username = some u →
      clipsTo x (Run.outs (step cfg) init es) =
        clipsTo x (Run.outs (step cfg) init (es.filter (keepUser cfg u)))) := by
  refine ⟨fun es sid cs m now net hg => ?_, fun es u x hx => clipsTo_restrict es hx⟩
  have ho := exec_owned cfg es
  generalize Run.exec (step cfg) init es = st at hg ho
  intro _ frame next
  have hcs := user_of_getSession ho hg
  obtain ⟨hacts, hsess⟩ := step_clipboard hg m now net
  have hd : Distinct ClientSession.session (broadcastTargets cs.username sid st.sessions) :=
    (List.filter_sublist.map _).nodup ho.distinct
  refine ⟨fun x => ?_, fun t ht => ?_, fun t ht hnot => ?_⟩
  · rw [show next.2 = _ from hacts, handedTo_broadcast x net _ hd]
    -- the targets are the other registered sessions of the user
    have hiff : (∃ t ∈ broadcastTargets cs.username sid st.sessions, t.session = x) ↔
        (∃ t ∈ st.sessions, t.session = x) ∧ x ≠ sid ∧
          (cfg.session x).username = (cfg.session sid).username := by
      constructor
      · rintro ⟨t, ht, rfl⟩
        obtain ⟨hm, -, hu, hne⟩ := mem_broadcastTargets.mp ht
        exact ⟨⟨t, hm, rfl⟩, hne, by rw [ho.user t hm, hcs, hu]⟩
      · rintro ⟨⟨t, hm, rfl⟩, hne, hu⟩
        rw [ho.user t hm, hcs] at hu
        exact ⟨t, mem_broadcastTargets.mpr
          ⟨hm, ho.loggedIn t hm, (Option.some.inj hu).symm, hne⟩, rfl⟩
    simp only [hiff, and_assoc]
    rfl
  · rw [show next.1.sessions = _ from hsess] at ht
    exact (mem_foldl_taskRegistry.mp ht).1
  · rw [show next.1.sessions = _ from hsess, mem_foldl_taskRegistry] at hnot
    push Not at hnot
    obtain ⟨t', -, hdead, hk⟩ := hnot ht
    rw [hk]; exact hdead

/-- Two devices of alice and one of bob. -/
def threeSessions : Config where
  fileTransferLevel := 2
  udpPort := 8081
  maxRelaySize := 307200
  session sid :=
    if sid = "a1" then ⟨some "alice", some "laptop", none⟩
    else if sid = "a2" then ⟨some "alice", some "phone", none⟩
    else if sid = "b" then ⟨some "bob", some "desk", none⟩
    else ⟨none, none, none⟩

def threeConnects : List Event :=
  [.established "a1" 0 allOk, .established "b" 1 allOk,
    .established "a2" 2 allOk]

/-- A clipboard of alice's laptop goes to her phone and not to bob. -/
theorem clipboard_isolated_three :
    (∀ x, handedTo x (step threeSessions (Run.exec (step threeSessions) init threeConnects)
        (.text "a1" (some (.clipboard ⟨some "m", some "hi", none⟩)) 3 allOk)).2 =
      if (∃ t ∈ (Run.exec (step threeSessions) init threeConnects).sessions, t.session = x) ∧
          x ≠ "a1" ∧
          (threeSessions.session x).username = (threeSessions.session "a1").username ∧
          Link.ok ≠ Link.closed
      then [.clipboard ⟨some "m", some "hi", some "laptop"⟩] else []) ∧
    clipsTo "b" (Run.outs (step threeSessions) init threeConnects) =
      clipsTo "b" (Run.outs (step threeSessions) init
        (threeConnects.filter (keepUser threeSessions "bob"))) :=
  ⟨((clipboard_isolated threeSessions).1 threeConnects "a1" ⟨"a1", true, true, "alice", "laptop"⟩
      ⟨some "m", some "hi", none⟩ 3 allOk (by decide)).1,
    (clipboard_isolated threeSessions).2 threeConnects "bob" "b" (by decide)⟩

end SyncClipboard.ClipIsolation
