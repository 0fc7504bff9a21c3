import SyncClipboard.Dispatcher

/-!
What one step of the server does to the sessions, the cache and the offers of a group of users.

A group is a predicate `low` on user names. Every registered session belongs to the user of its
connection (`Owned`), so an event of a session outside the group leaves the group's part of the
registry and of the cache alone, and an event inside it acts on that part only.
-/

namespace SyncClipboard.Views

open Keyed ServerModel Dispatcher

/-! ### Sending changes no state -/

@[simp] lemma sendMessage_st (net : Net) (sid : SessionId) (f : WsMessage) (st : Server) :
    (sendMessage net sid f st).st = st := by
  unfold sendMessage; split <;> rfl

@[simp] lemma sendJson_st (net : Net) (sid : SessionId) (f : WsMessage) (st : Server) :
    (sendJson net sid f st).st = st := by
  unfold sendJson; split
  · rfl
  · simp

@[simp] lemma sendEach_st (net : Net) (f : WsMessage) (st : Server) (ts : List ClientSession) :
    (sendEach net f st ts).st = st := by
  cases ts with
  | nil => rfl
  | cons t ts => unfold sendEach; dsimp only; split <;> simp

@[simp] lemma sendToDevice_st (net : Net) (u d : String) (f : WsMessage) (st : Server) :
    (sendToDevice net u d f st).st = st := by
  simp [sendToDevice]

@[simp] lemma sendToSender_st (net : Net) (o : Offer) (f : WsMessage) (st : Server) :
    (sendToSender net o f st).st = st := by
  unfold sendToSender; split <;> simp

lemma andThen_st_of_st {r : Res} {k : Server → Res} {st : Server} (hr : r.st = st)
    (hk : (k st).st = st) : (r.andThen k).st = st := by
  unfold Res.andThen; split
  · exact hr
  · simp [hr, hk]

/-- Two outcomes with the same acts and the same exception. -/
def SameActs (r r' : Res) : Prop := r.acts = r'.acts ∧ r.thrown = r'.thrown

lemma sendMessage_acts (net : Net) (sid : SessionId) (f : WsMessage) (s t : Server) :
    SameActs (sendMessage net sid f s) (sendMessage net sid f t) := by
  unfold SameActs sendMessage
  cases net sid f <;> simp

lemma sendJson_acts (net : Net) (sid : SessionId) (f : WsMessage) (s t : Server) :
    SameActs (sendJson net sid f s) (sendJson net sid f t) := by
  unfold sendJson
  split_ifs
  · exact ⟨rfl, rfl⟩
  · exact sendMessage_acts net sid f s t

lemma SameActs.andThen {r r' : Res} {k k' : Server → Res} (h : SameActs r r')
    (hk : SameActs (k r.st) (k' r'.st)) : SameActs (r.andThen k) (r'.andThen k') := by
  unfold Res.andThen
  rw [← h.2]
  cases ht : r.thrown with
  | some x => exact h
  | none =>
    refine ⟨?_, hk.2⟩
    show r.acts ++ _ = r'.acts ++ _
    rw [h.1, hk.1]

variable (cfg : Config)

lemma handleFileRequest_st (net : Net) (sid : SessionId) (cs : ClientSession) (m : FileRequest)
    (st : Server) : (handleFileRequest cfg net sid cs m st).st = st := by
  unfold handleFileRequest; split
  · rfl
  · split
    · simp
    · exact andThen_st_of_st (by simp) (by simp)

lemma handleFileRelay_st (net : Net) (sid : SessionId) (cs : ClientSession) (m : FileRelay)
    (st : Server) : (handleFileRelay cfg net sid cs m st).st = st := by
  by_cases hl : cfg.fileTransferLevel < 3
  · simp [handleFileRelay, hl]
  · simp only [handleFileRelay, if_neg hl]
    split
    · rfl
    · split
      · simp
      · split_ifs
        · simp
        · split <;> simp

/-- Answering a runtime exception changes no state either. -/
lemma handleTextMessage_st (net : Net) (now : ℤ) (sid : SessionId) (msg : WsMessage)
    (st : Server) : (handleTextMessage cfg net now sid (some msg) st).st =
      (dispatch cfg net now sid msg st).st := by
  unfold handleTextMessage; dsimp only; split
  · simp [sendError]
  · rfl

/-! ### The registry after a message -/

/-- The frame a message makes the server broadcast to the user's other sessions. -/
def broadcastFrame (sid : SessionId) (cs : ClientSession) : WsMessage → Option WsMessage
  | .clipboard m => some (.clipboard ⟨m.msgId, m.content, some cs.deviceId⟩)
  | .fileOffer m =>
    if cfg.fileTransferLevel ≤ 0 then none else m.fileId.map fun f => notifyOf cfg sid cs f m
  | _ => none

/-- The registry after the broadcast of a frame. -/
def afterBroadcast (net : Net) (username : String) (sid : SessionId) (frame : WsMessage)
    (reg : Registry) : Registry :=
  (broadcastTargets username sid reg).foldl (taskRegistry net frame) reg

/-- A message changes the registry through its broadcast only. -/
lemma handle_sessions (net : Net) (now : ℤ) (sid : SessionId) (cs : ClientSession)
    (msg : WsMessage) (st : Server) :
    (handle cfg net now sid cs msg st).st.sessions =
      match broadcastFrame cfg sid cs msg with
      | none => st.sessions
      | some frame => afterBroadcast net cs.username sid frame st.sessions := by
  cases msg with
  | clipboard m => rfl
  | fileOffer m =>
    unfold handle broadcastFrame; dsimp only
    unfold handleFileOffer
    split_ifs
    · simp
    · cases m.fileId <;> rfl
  | fileRequest m => simp [handle, broadcastFrame, handleFileRequest_st]
  | fileRelay m => simp [handle, broadcastFrame, handleFileRelay_st]
  | fileTransferResult m =>
    unfold handle broadcastFrame; dsimp only
    unfold handleResult
    split
    · rfl
    · split <;> rfl
  | ping ts => simp [handle, broadcastFrame]
  | _ => rfl

/-- A message changes the cache when it is a clipboard. -/
lemma handle_cache (net : Net) (now : ℤ) (sid : SessionId) (cs : ClientSession)
    (msg : WsMessage) (st : Server) :
    (handle cfg net now sid cs msg st).st.cache =
      match msg with
      | .clipboard m => store now cs.username m.content cs.deviceId st.cache
      | _ => st.cache := by
  cases msg with
  | clipboard m => rfl
  | fileOffer m =>
    unfold handle; dsimp only
    unfold handleFileOffer
    split_ifs
    · simp
    · cases m.fileId <;> rfl
  | fileRequest m => simp [handle, handleFileRequest_st]
  | fileRelay m => simp [handle, handleFileRelay_st]
  | fileTransferResult m =>
    unfold handle; dsimp only
    unfold handleResult
    split
    · rfl
    · split <;> rfl
  | ping ts => simp [handle]
  | _ => rfl

/-- A message changes the offers when it registers one or reports a result. -/
lemma handle_offers (net : Net) (now : ℤ) (sid : SessionId) (cs : ClientSession)
    (msg : WsMessage) (st : Server) :
    (handle cfg net now sid cs msg st).st.activeOffers =
      match msg with
      | .fileOffer m =>
        if cfg.fileTransferLevel ≤ 0 then st.activeOffers
        else m.fileId.elim st.activeOffers fun f =>
          registerOffer (offerOf cfg now sid cs f m) st.activeOffers
      | .fileTransferResult m =>
        m.fileId.elim st.activeOffers fun f => removeOffer f st.activeOffers
      | _ => st.activeOffers := by
  cases msg with
  | fileOffer m =>
    unfold handle; dsimp only
    unfold handleFileOffer
    split_ifs
    · simp
    · cases m.fileId <;> rfl
  | fileRequest m => simp [handle, handleFileRequest_st]
  | fileRelay m => simp [handle, handleFileRelay_st]
  | fileTransferResult m =>
    unfold handle; dsimp only
    unfold handleResult
    cases m.fileId with
    | none => rfl
    | some f =>
      cases ho : st.activeOffers f with
      | some o => simp [ho]
      | none =>
        have hself : removeOffer f st.activeOffers = st.activeOffers := by
          unfold removeOffer; rw [← ho]; exact Function.update_eq_self f _
        simp [ho, hself]
  | ping ts => simp [handle]
  | _ => rfl

/-! ### Connecting -/

lemma replay_st (net : Net) (now : ℤ) (sid : SessionId) (u d : String) (st : Server) :
    (replay net now sid u d st).st = { st with cache := (getForDevice now u d st.cache).2 } := by
  unfold replay
  rcases getForDevice now u d st.cache with ⟨_ | f, c⟩ <;> simp

/-- What a connect does to the state: the session joins the registry, and the cache is read
when the acknowledgement went out. -/
lemma established_st (net : Net) (now : ℤ) (sid : SessionId) (st : Server) :
    (afterConnectionEstablished cfg net now sid st).st =
      match (cfg.session sid).username, (cfg.session sid).deviceId with
      | some u, some d => (addAuthenticated sid u d st.sessions).elim st fun reg =>
          { st with
            sessions := reg
            cache := if (sendJson net sid (helloAckFrame cfg) st).thrown = none then
              (getForDevice now u d st.cache).2 else st.cache }
      | _, _ => st := by
  unfold afterConnectionEstablished
  cases (cfg.session sid).username with
  | none => rfl
  | some u =>
    cases (cfg.session sid).deviceId with
    | none => rfl
    | some d =>
      dsimp only
      cases addAuthenticated sid u d st.sessions with
      | none => rfl
      | some reg =>
        have ht := (sendJson_acts net sid (helloAckFrame cfg) { st with sessions := reg } st).2
        simp only [Res.andThen, Option.elim_some]
        cases h : (sendJson net sid (helloAckFrame cfg) { st with sessions := reg }).thrown with
        | none => simp [← ht, h, replay_st]
        | some x => simp [← ht, h]

lemma addAuthenticated_some {sid : SessionId} {u d : String} {reg reg' : Registry}
    (h : addAuthenticated sid u d reg = some reg') :
    reg' = put ClientSession.session ⟨sid, true, true, u, d⟩ reg := by
  unfold addAuthenticated at h
  split_ifs at h
  exact (Option.some.inj h).symm

/-! ### Ownership -/

/-- Every registered session is logged in and belongs to the user and the device of its
connection, no two share an id, and every stored offer belongs to the user of the session that
made it. -/
structure Owned (st : Server) : Prop where
  distinct : Distinct ClientSession.session st.sessions
  loggedIn : ∀ s ∈ st.sessions, s.loggedIn = true
  user : ∀ s ∈ st.sessions, (cfg.session s.session).username = some s.username
  offer : ∀ f o, st.activeOffers f = some o →
    (cfg.session o.senderSessionId).username = some o.senderUsername

variable {cfg}

lemma taskRegistry_sublist (net : Net) (f : WsMessage) (reg : Registry) (t : ClientSession) :
    (taskRegistry net f reg t).Sublist reg := by
  unfold taskRegistry; split
  all_goals first
    | exact List.Sublist.refl _
    | exact List.filter_sublist

lemma foldl_taskRegistry_sublist (net : Net) (f : WsMessage) (ts : List ClientSession)
    (reg : Registry) : (ts.foldl (taskRegistry net f) reg).Sublist reg := by
  induction ts generalizing reg with
  | nil => exact List.Sublist.refl _
  | cons t ts ih => exact (ih _).trans (taskRegistry_sublist net f reg t)

lemma afterBroadcast_sublist (net : Net) (u : String) (sid : SessionId) (f : WsMessage)
    (reg : Registry) : (afterBroadcast net u sid f reg).Sublist reg :=
  foldl_taskRegistry_sublist net f _ reg

lemma Owned.of_sublist {s t : Server} (h : Owned cfg s) (hs : t.sessions.Sublist s.sessions)
    (ho : ∀ f o, t.activeOffers f = some o →
      (cfg.session o.senderSessionId).username = some o.senderUsername) : Owned cfg t where
  distinct := (hs.map _).nodup h.distinct
  loggedIn x hx := h.loggedIn x (hs.subset hx)
  user x hx := h.user x (hs.subset hx)
  offer := ho

lemma user_of_getSession {st : Server} (h : Owned cfg st) {sid : SessionId} {cs : ClientSession}
    (hg : getSession sid st.sessions = some cs) :
    (cfg.session sid).username = some cs.username := by
  obtain ⟨hm, hk⟩ := mem_of_get hg
  rw [← hk]; exact h.user cs hm

lemma Owned.put {st : Server} (h : Owned cfg st) {sid : SessionId} {u : String} (d : String)
    (hu : (cfg.session sid).username = some u) (c : Cache) :
    Owned cfg { st with
      sessions := Keyed.put ClientSession.session ⟨sid, true, true, u, d⟩ st.sessions
      cache := c } where
  distinct := distinct_put h.distinct _
  loggedIn x hx := by
    rcases mem_put.mp hx with ⟨hx', -⟩ | rfl
    · exact h.loggedIn x hx'
    · rfl
  user x hx := by
    rcases mem_put.mp hx with ⟨hx', -⟩ | rfl
    · exact h.user x hx'
    · exact hu
  offer := h.offer

lemma owned_init : Owned cfg init :=
  ⟨List.nodup_nil, by simp [init], by simp [init], by simp [init]⟩

lemma handle_owned {st : Server} (h : Owned cfg st) (net : Net) (now : ℤ) {sid : SessionId}
    {cs : ClientSession} (hu : (cfg.session sid).username = some cs.username) (msg : WsMessage) :
    Owned cfg (handle cfg net now sid cs msg st).st := by
  refine h.of_sublist ?_ ?_
  · rw [handle_sessions]
    split
    · exact List.Sublist.refl _
    · exact afterBroadcast_sublist _ _ _ _ _
  · intro f o ho
    rw [handle_offers] at ho
    split at ho
    · -- an offer is registered by the session that sends it
      split_ifs at ho
      · exact h.offer f o ho
      · rename_i m _
        cases hf : m.fileId with
        | none => rw [hf] at ho; exact h.offer f o ho
        | some g =>
          rw [hf, Option.elim_some, registerOffer] at ho
          by_cases hg : f = g
          · subst hg
            simp only [offerOf, Function.update_self, Option.some.injEq] at ho
            rw [← ho]; exact hu
          · rw [Function.update_of_ne (by simpa [offerOf] using hg)] at ho
            exact h.offer f o ho
    · rename_i m
      cases hf : m.fileId with
      | none => rw [hf] at ho; exact h.offer f o ho
      | some g =>
        rw [hf, Option.elim_some, removeOffer] at ho
        by_cases hg : f = g
        · subst hg; simp at ho
        · rw [Function.update_of_ne hg] at ho; exact h.offer f o ho
    · exact h.offer f o ho

/-- **Ownership is kept by every step.** -/
theorem step_owned {st : Server} (h : Owned cfg st) (e : Event) : Owned cfg (step cfg st e).1 := by
  cases e with
  | established sid now net =>
    show Owned cfg (afterConnectionEstablished cfg net now sid st).st
    rw [established_st]
    split
    · rename_i u d hu hd
      cases ha : addAuthenticated sid u d st.sessions with
      | none => exact h
      | some reg =>
        rw [addAuthenticated_some ha]
        exact h.put d hu _
    · exact h
  | text sid payload now net =>
    cases payload with
    | none =>
      show Owned cfg (sendError net sid _ _ _ st).st
      simpa [sendError] using h
    | some msg =>
      show Owned cfg (handleTextMessage cfg net now sid (some msg) st).st
      rw [handleTextMessage_st]
      unfold dispatch
      cases hg : getSession sid st.sessions with
      | none => exact h
      | some cs => exact handle_owned h net now (user_of_getSession h hg) msg
  | closed sid => exact h.of_sublist List.filter_sublist h.offer
  | evict now => exact h.of_sublist (List.Sublist.refl _) h.offer
  | cleanup now =>
    refine h.of_sublist (List.Sublist.refl _) fun f o ho => ?_
    exact h.offer f o (Option.eq_some_of_filter_eq_some ho)

variable (cfg) in
theorem exec_owned (es : List Event) : Owned cfg (Run.exec (step cfg) init es) :=
  Run.exec_inv (I := Owned cfg) (fun _ e h => step_owned h e) owned_init es

/-! ### The part of a group of users -/

variable (low : String → Bool)

/-- The registered sessions of the group. -/
def lowSessions (reg : Registry) : Registry := reg.filter fun s => low s.username

variable {low}

lemma broadcastTargets_low {u : String} (hu : low u = true) (sid : SessionId) (reg : Registry) :
    broadcastTargets u sid (lowSessions low reg) = broadcastTargets u sid reg := by
  unfold broadcastTargets lowSessions
  rw [List.filter_filter]
  refine List.filter_congr fun s _ => ?_
  by_cases h : u = s.username
  · subst h; simp [hu]
  · simp [h]

lemma lowSessions_foldl (net : Net) (f : WsMessage) (ts : List ClientSession) (reg : Registry) :
    lowSessions low (ts.foldl (taskRegistry net f) reg) =
      ts.foldl (taskRegistry net f) (lowSessions low reg) := by
  induction ts generalizing reg with
  | nil => rfl
  | cons t ts ih =>
    have ht : lowSessions low (taskRegistry net f reg t) =
        taskRegistry net f (lowSessions low reg) t := by
      unfold taskRegistry
      cases net t.session f <;> first | rfl | exact filter_remove _ _ _
    rw [List.foldl_cons, ih, ht, List.foldl_cons]

/-- A broadcast inside the group acts on the group's sessions. -/
lemma lowSessions_afterBroadcast {u : String} (hu : low u = true) (net : Net) (sid : SessionId)
    (f : WsMessage) (reg : Registry) :
    lowSessions low (afterBroadcast net u sid f reg) =
      afterBroadcast net u sid f (lowSessions low reg) := by
  unfold afterBroadcast
  rw [lowSessions_foldl, broadcastTargets_low hu]

/-- Removing a session outside the group leaves the group's sessions alone. -/
lemma lowSessions_remove_high {st : Server} (h : Owned cfg st) {sid : SessionId} {v : String}
    (hv : (cfg.session sid).username = some v) (hlow : low v = false) :
    lowSessions low (removeSession sid st.sessions) = lowSessions low st.sessions := by
  refine filter_remove_of_neg fun s hs hk => ?_
  have hu := h.user s hs
  rw [hk, hv] at hu
  rw [← Option.some.inj hu]; exact hlow

lemma lowSessions_put_high {st : Server} (h : Owned cfg st) {sid : SessionId} {v : String}
    (hv : (cfg.session sid).username = some v) (hlow : low v = false) (d : String) :
    lowSessions low (put ClientSession.session ⟨sid, true, true, v, d⟩ st.sessions) =
      lowSessions low st.sessions := by
  rw [lowSessions, put, List.filter_append, List.filter_cons_of_neg (by simp [hlow]),
    List.filter_nil, List.append_nil]
  exact lowSessions_remove_high h hv hlow

lemma lowSessions_put_low {u : String} (hlow : low u = true) (sid : SessionId) (d : String)
    (reg : Registry) :
    lowSessions low (put ClientSession.session ⟨sid, true, true, u, d⟩ reg) =
      put ClientSession.session ⟨sid, true, true, u, d⟩ (lowSessions low reg) := by
  rw [lowSessions, put, List.filter_append, filter_remove,
    List.filter_cons_of_pos (by simpa using hlow),
    List.filter_nil]
  rfl

/-- A broadcast outside the group leaves the group's sessions alone. -/
lemma lowSessions_afterBroadcast_high {v : String} (hlow : low v = false) (net : Net)
    (sid : SessionId) (f : WsMessage) {st : Server} (h : Owned cfg st) :
    lowSessions low (afterBroadcast net v sid f st.sessions) = lowSessions low st.sessions := by
  unfold afterBroadcast
  rw [lowSessions_foldl]
  have hts : ∀ t ∈ broadcastTargets v sid st.sessions,
      (cfg.session t.session).username = some v := by
    intro t ht
    simp only [broadcastTargets, List.mem_filter, Bool.and_eq_true, decide_eq_true_eq] at ht
    rw [ht.2.1.2]; exact h.user t ht.1
  -- no task of the broadcast names a session of the group
  generalize broadcastTargets v sid st.sessions = ts at hts
  induction ts with
  | nil => rfl
  | cons t ts ih =>
    have ht : taskRegistry net f (lowSessions low st.sessions) t = lowSessions low st.sessions := by
      unfold taskRegistry
      have hrem : removeSession t.session (lowSessions low st.sessions) =
          lowSessions low st.sessions :=
        (filter_remove _ _ _).symm.trans (lowSessions_remove_high h (hts t (by simp)) hlow)
      cases net t.session f <;> first | rfl | exact hrem
    rw [List.foldl_cons, ht]
    exact ih fun x hx => hts x (by simp [hx])

lemma sessionCount_low {u : String} (hu : low u = true) (reg : Registry) :
    sessionCount u (lowSessions low reg) = sessionCount u reg := by
  unfold sessionCount lowSessions
  rw [List.filter_filter]
  congr 1
  refine List.filter_congr fun s _ => ?_
  by_cases h : u = s.username
  · subst h; simp [hu]
  · simp [h]

lemma getSession_low {st : Server} (h : Owned cfg st) {sid : SessionId}
    (hs : ∀ v, (cfg.session sid).username = some v → low v = true) :
    getSession sid (lowSessions low st.sessions) = getSession sid st.sessions :=
  get_filter fun s hm hk => hs _ (hk ▸ h.user s hm)

/-! ### One step, seen by the group -/

/-- The user an event comes from. -/
def userOf (cfg : Config) (e : Event) : Option String :=
  e.session?.bind fun sid => (cfg.session sid).username

variable (low) in
/-- Two states that look alike to the group: the same sessions of the group, and the same cached
clipboard for each of its users. -/
structure SameView (s t : Server) : Prop where
  sessions : lowSessions low s.sessions = lowSessions low t.sessions
  cache : ∀ u, low u = true → s.cache u = t.cache u

lemma SameView.refl (s : Server) : SameView low s s := ⟨rfl, fun _ _ => rfl⟩

lemma SameView.symm {s t : Server} (h : SameView low s t) : SameView low t s :=
  ⟨h.sessions.symm, fun u hu => (h.cache u hu).symm⟩

lemma SameView.trans {r s t : Server} (h : SameView low r s) (h' : SameView low s t) :
    SameView low r t :=
  ⟨h.sessions.trans h'.sessions, fun u hu => (h.cache u hu).trans (h'.cache u hu)⟩

lemma getForDevice_ne {u v : String} (h : u ≠ v) (now : ℤ) (d : String) (c : Cache) :
    (getForDevice now v d c).2 u = c u := by
  unfold getForDevice
  split
  · rfl
  · split_ifs
    · rfl
    · exact Function.update_of_ne h _ _
    · rfl

lemma getForDevice_congr {v : String} {c c' : Cache} (h : c v = c' v) (now : ℤ) (d : String) :
    (getForDevice now v d c).1 = (getForDevice now v d c').1 ∧
      (getForDevice now v d c).2 v = (getForDevice now v d c').2 v := by
  unfold getForDevice
  rw [h]
  split
  · exact ⟨rfl, h⟩
  · split_ifs
    · exact ⟨rfl, h⟩
    · simp
    · exact ⟨rfl, h⟩

lemma store_congr {c c' : Cache} {u v : String} (h : c u = c' u) (now : ℤ)
    (x : Option String) (d : String) : store now v x d c u = store now v x d c' u := by
  unfold store
  by_cases hu : u = v
  · subst hu; simp
  · simp [Function.update_of_ne hu, h]

lemma ne_of_high {u v : String} (hlow : low v = false) (hu : low u = true) : u ≠ v := by
  rintro rfl
  simp [hu] at hlow

lemma established_high {st : Server} (h : Owned cfg st) {sid : SessionId} {v : String}
    (hv : (cfg.session sid).username = some v) (hlow : low v = false) (now : ℤ) (net : Net) :
    SameView low (afterConnectionEstablished cfg net now sid st).st st := by
  rw [established_st, hv]
  cases (cfg.session sid).deviceId with
  | none => exact SameView.refl st
  | some d =>
    dsimp only
    cases ha : addAuthenticated sid v d st.sessions with
    | none => exact SameView.refl st
    | some reg =>
      refine ⟨?_, fun u hu => ?_⟩
      · show lowSessions low reg = _
        rw [addAuthenticated_some ha]
        exact lowSessions_put_high h hv hlow d
      · show (if _ then (getForDevice now v d st.cache).2 else st.cache) u = st.cache u
        split_ifs
        · exact getForDevice_ne (ne_of_high hlow hu) now d st.cache
        · rfl

/-- A message from outside the group. -/
lemma dispatch_high {st : Server} (h : Owned cfg st) {sid : SessionId} {v : String}
    (hv : (cfg.session sid).username = some v) (hlow : low v = false) (msg : WsMessage) (now : ℤ)
    (net : Net) : SameView low (dispatch cfg net now sid msg st).st st := by
  unfold dispatch
  cases hg : getSession sid st.sessions with
  | none => exact SameView.refl st
  | some cs =>
    have hcs : cs.username = v := Option.some.inj ((user_of_getSession h hg).symm.trans hv)
    refine ⟨?_, fun u hu => ?_⟩
    · show lowSessions low (handle cfg net now sid cs msg st).st.sessions = _
      rw [handle_sessions]
      split
      · rfl
      · rw [hcs]; exact lowSessions_afterBroadcast_high hlow net sid _ h
    · show (handle cfg net now sid cs msg st).st.cache u = _
      rw [handle_cache]
      split
      · rw [hcs]; exact Function.update_of_ne (ne_of_high hlow hu) _ _
      · rfl

/-- **An event from outside the group** does not change what the group sees. -/
theorem step_high {st : Server} (h : Owned cfg st) {e : Event} {v : String}
    (hv : userOf cfg e = some v) (hlow : low v = false) : SameView low (step cfg st e).1 st := by
  cases e with
  | established sid now net => exact established_high h hv hlow now net
  | text sid payload now net =>
    cases payload with
    | none =>
      show SameView low (sendError net sid _ _ _ st).st st
      simpa [sendError] using SameView.refl st
    | some msg =>
      show SameView low (handleTextMessage cfg net now sid (some msg) st).st st
      rw [handleTextMessage_st]
      exact dispatch_high h hv hlow msg now net
  | closed sid => exact ⟨lowSessions_remove_high h hv hlow, fun _ _ => rfl⟩
  | evict now => simp [userOf, Event.session?] at hv
  | cleanup now => simp [userOf, Event.session?] at hv

/-- A connect within the group. -/
lemma established_low {s t : Server} (h : SameView low s t) {sid : SessionId}
    (hu : ∀ v, (cfg.session sid).username = some v → low v = true) (now : ℤ) (net : Net) :
    SameView low (afterConnectionEstablished cfg net now sid s).st
      (afterConnectionEstablished cfg net now sid t).st := by
  rw [established_st, established_st]
  cases hn : (cfg.session sid).username with
  | none => exact h
  | some u =>
    have hlow : low u = true := hu u hn
    cases (cfg.session sid).deviceId with
    | none => exact h
    | some d =>
      dsimp only
      have hcount : sessionCount u s.sessions = sessionCount u t.sessions := by
        rw [← sessionCount_low hlow s.sessions, h.sessions, sessionCount_low hlow]
      unfold addAuthenticated
      rw [hcount]
      by_cases hc : maxSessionsPerUser ≤ sessionCount u t.sessions
      · rw [if_pos hc, if_pos hc]; exact h
      · rw [if_neg hc, if_neg hc, Option.elim_some, Option.elim_some]
        refine ⟨?_, fun x hx => ?_⟩
        · show lowSessions low (put _ _ s.sessions) = lowSessions low (put _ _ t.sessions)
          rw [lowSessions_put_low hlow, lowSessions_put_low hlow, h.sessions]
        · show (if _ then (getForDevice now u d s.cache).2 else s.cache) x =
            (if _ then (getForDevice now u d t.cache).2 else t.cache) x
          rw [(sendJson_acts net sid (helloAckFrame cfg) s t).2]
          split_ifs
          · by_cases hx' : x = u
            · subst hx'; exact (getForDevice_congr (h.cache x hx) now d).2
            · rw [getForDevice_ne hx', getForDevice_ne hx']; exact h.cache x hx
          · exact h.cache x hx

/-- A message within the group. -/
lemma dispatch_low {s t : Server} (hs : Owned cfg s) (ht : Owned cfg t) (h : SameView low s t)
    {sid : SessionId} (hu : ∀ v, (cfg.session sid).username = some v → low v = true)
    (msg : WsMessage) (now : ℤ) (net : Net) :
    SameView low (dispatch cfg net now sid msg s).st (dispatch cfg net now sid msg t).st := by
  unfold dispatch
  rw [← getSession_low hs hu, ← getSession_low ht hu, h.sessions]
  cases hg : getSession sid (lowSessions low t.sessions) with
  | none => exact h
  | some cs =>
    have hlow : low cs.username = true := by
      refine hu _ (user_of_getSession ht ?_)
      rw [← getSession_low ht hu]; exact hg
    refine ⟨?_, fun x hx => ?_⟩
    · show lowSessions low (handle cfg net now sid cs msg s).st.sessions =
        lowSessions low (handle cfg net now sid cs msg t).st.sessions
      rw [handle_sessions, handle_sessions]
      split
      · exact h.sessions
      · rw [lowSessions_afterBroadcast hlow, lowSessions_afterBroadcast hlow, h.sessions]
    · show (handle cfg net now sid cs msg s).st.cache x =
        (handle cfg net now sid cs msg t).st.cache x
      rw [handle_cache, handle_cache]
      split
      · exact store_congr (h.cache x hx) _ _ _
      · exact h.cache x hx

/-- **An event of the group** does the same to states that look alike to the group. -/
theorem step_low {s t : Server} (hs : Owned cfg s) (ht : Owned cfg t) (h : SameView low s t)
    {e : Event} (hu : ∀ v, userOf cfg e = some v → low v = true) :
    SameView low (step cfg s e).1 (step cfg t e).1 := by
  cases e with
  | established sid now net => exact established_low h hu now net
  | text sid payload now net =>
    cases payload with
    | none =>
      show SameView low (sendError net sid _ _ _ s).st (sendError net sid _ _ _ t).st
      simpa [sendError] using h
    | some msg =>
      show SameView low (handleTextMessage cfg net now sid (some msg) s).st
        (handleTextMessage cfg net now sid (some msg) t).st
      rw [handleTextMessage_st, handleTextMessage_st]
      exact dispatch_low hs ht h hu msg now net
  | closed sid =>
    refine ⟨?_, h.cache⟩
    show lowSessions low (removeSession sid s.sessions) = lowSessions low (removeSession sid t.sessions)
    unfold removeSession lowSessions
    rw [filter_remove, filter_remove]
    exact congrArg _ h.sessions
  | evict now =>
    refine ⟨h.sessions, fun u hu => ?_⟩
    show (s.cache u).filter _ = (t.cache u).filter _
    rw [h.cache u hu]
  | cleanup now => exact ⟨h.sessions, h.cache⟩

end SyncClipboard.Views
