import SyncClipboard.Acts

/-!
Publishing and connecting at the same time.

`handleClipboard` stores the clipboard and then broadcasts it to the sessions registered at that
moment; `afterConnectionEstablished` registers the session, then reads the cache, then sends what
it read. The handlers run on threads of their own, so here each of these is one step, and any
number of handlers take their steps in any order. What was stored, read and delivered is kept as
a history. `Rule` says what each entry of a history owes to the entries before it; both results
about interleavings are read off that.
-/

namespace SyncClipboard.PublishConnect

open Keyed ServerModel Dispatcher Acts

abbrev PublishId := ℕ

/-- A clipboard message of a registered session. -/
structure Publish where
  sid : SessionId
  username : String
  deviceId : String
  msg : Clipboard
  deriving DecidableEq

/-- The broadcast of a publish. -/
def Publish.frame (p : Publish) : WsMessage :=
  .clipboard ⟨p.msg.msgId, p.msg.content, some p.deviceId⟩

/-- The replay of a publish. -/
def Publish.replayFrame (p : Publish) : WsMessage :=
  .clipboard ⟨none, p.msg.content, some p.deviceId⟩

/-- Where a call of `handleClipboard` stands. -/
inductive Publishing
  | fresh
  | stored (p : Publish)
  | finished

/-- Where a call of `afterConnectionEstablished` stands. -/
inductive Connecting
  | fresh
  | rejected
  | registered
  | read (replay : Option WsMessage)
  | done

structure Sys where
  sessions : Registry
  cache : Cache
  publishing : PublishId → Publishing
  connecting : SessionId → Connecting

def start : Sys := ⟨[], fun _ => none, fun _ => .fresh, fun _ => .fresh⟩

inductive Label
  | store (i : PublishId) (sid : SessionId) (msg : Clipboard) (now : ℤ)
  | broadcast (i : PublishId)
  | register (sid : SessionId)
  | readCache (sid : SessionId) (now : ℤ)
  | sendReplay (sid : SessionId)
  | evict (now : ℤ)

inductive Via
  | broadcast (i : PublishId)
  | replay
  deriving DecidableEq

inductive Obs
  | stored (i : PublishId) (p : Publish)
  | delivered (sid : SessionId) (frame : WsMessage) (via : Via)
  | finished (i : PublishId)
  | readCache (sid : SessionId) (replay : Option WsMessage)
  | connected (sid : SessionId)
  deriving DecidableEq

variable (cfg : Config)

/-- One step of one handler; every send succeeds. A label that does not fit where the handler
stands does nothing. -/
def step (s : Sys) : Label → Sys × List Obs
  | .store i sid msg now =>
    match s.publishing i, getSession sid s.sessions with
    | .fresh, some cs =>
      let p : Publish := ⟨sid, cs.username, cs.deviceId, msg⟩
      ({ s with
          cache := store now cs.username msg.content cs.deviceId s.cache
          publishing := Function.update s.publishing i (.stored p) }, [.stored i p])
    | _, _ => (s, [])
  | .broadcast i =>
    match s.publishing i with
    | .stored p =>
      ({ s with publishing := Function.update s.publishing i .finished },
        (broadcastTargets p.username p.sid s.sessions).map
          (fun t => .delivered t.session p.frame (.broadcast i)) ++ [.finished i])
    | _ => (s, [])
  | .register sid =>
    match s.connecting sid with
    | .fresh =>
      match (cfg.session sid).username, (cfg.session sid).deviceId with
      | some username, some deviceId =>
        match addAuthenticated sid username deviceId s.sessions with
        | some reg =>
          ({ s with
              sessions := reg
              connecting := Function.update s.connecting sid .registered }, [])
        | none => ({ s with connecting := Function.update s.connecting sid .rejected }, [])
      | _, _ => ({ s with connecting := Function.update s.connecting sid .rejected }, [])
    | _ => (s, [])
  | .readCache sid now =>
    match s.connecting sid, (cfg.session sid).username, (cfg.session sid).deviceId with
    | .registered, some username, some deviceId =>
      let (replay, cache) := getForDevice now username deviceId s.cache
      ({ s with
          cache := cache
          connecting := Function.update s.connecting sid (.read replay) },
        [.readCache sid replay])
    | _, _, _ => (s, [])
  | .sendReplay sid =>
    match s.connecting sid with
    | .read replay =>
      ({ s with connecting := Function.update s.connecting sid .done },
        replay.toList.map (fun f => .delivered sid f .replay) ++ [.connected sid])
    | _ => (s, [])
  | .evict now => ({ s with cache := evictExpired now s.cache }, [])

/-- The time a step reads. -/
def Label.now? : Label → Option ℤ
  | .store _ _ _ now | .readCache _ now | .evict now => some now
  | .broadcast _ | .register _ | .sendReplay _ => none

/-- The step happens within the hour after `t₀`. -/
def Within (t₀ : ℤ) (l : Label) : Prop := ∀ now ∈ l.now?, t₀ ≤ now ∧ now ≤ t₀ + ttlMs

/-! ### Histories -/

/-- The last publish of a user. -/
def lastStored (u : String) : List Obs → Option Publish
  | [] => none
  | .stored _ p :: tr => (lastStored u tr).or (if p.username = u then some p else none)
  | _ :: tr => lastStored u tr

/-- What a device is replayed of the last publish. -/
def shown (last : Option Publish) (deviceId : String) : Option WsMessage :=
  match last with
  | none => none
  | some p => if p.deviceId = deviceId then none else some p.replayFrame

/-- What an entry of the history owes to the entries before it. -/
def Rule (pre : List Obs) : Obs → Prop
  | .stored i p => (∀ p', .stored i p' ∉ pre) ∧
      (cfg.session p.sid).username = some p.username ∧ (cfg.session p.sid).deviceId = some p.deviceId
  | .delivered sid f (.broadcast i) => ∃ p, .stored i p ∈ pre ∧ f = p.frame ∧
      (cfg.session sid).username = some p.username
  | .delivered sid f .replay => .readCache sid (some f) ∈ pre
  -- a finished broadcast has reached every session that had read the cache by then
  | .finished i => ∃ p, .stored i p ∈ pre ∧
      ∀ sid r, .readCache sid r ∈ pre → (cfg.session sid).username = some p.username →
        sid ≠ p.sid → .delivered sid p.frame (.broadcast i) ∈ pre
  | .readCache sid r => ∃ u d, (cfg.session sid).username = some u ∧
      (cfg.session sid).deviceId = some d ∧ r = shown (lastStored u pre) d
  | .connected sid => ∃ r, .readCache sid r ∈ pre ∧ ∀ f ∈ r, .delivered sid f .replay ∈ pre

lemma lastStored_append (u : String) (tr os : List Obs) :
    lastStored u (tr ++ os) = (lastStored u os).or (lastStored u tr) := by
  induction tr with
  | nil => simp [lastStored]
  | cons o tr ih => cases o <;> simp [lastStored, ih, Option.or_assoc]

lemma lastStored_eq_none_iff {u : String} {os : List Obs} :
    lastStored u os = none ↔ ∀ i p, .stored i p ∈ os → p.username ≠ u := by
  induction os with
  | nil => simp [lastStored]
  | cons o os ih =>
    cases o with
    | stored j q =>
      simp only [lastStored, Option.or_eq_none_iff, ih, List.mem_cons, Obs.stored.injEq]
      constructor
      · rintro ⟨hos, hq⟩ i p (⟨-, rfl⟩ | hp)
        · simpa using hq
        · exact hos i p hp
      · intro h
        exact ⟨fun i p hp => h i p (.inr hp), by simpa using h j q (.inl ⟨rfl, rfl⟩)⟩
    | _ => simpa [lastStored] using ih

lemma lastStored_split {u : String} {tr : List Obs} {p : Publish} (h : lastStored u tr = some p) :
    p.username = u ∧ ∃ i pre post, tr = pre ++ .stored i p :: post ∧
      ∀ j p', .stored j p' ∈ post → p'.username ≠ u := by
  induction tr with
  | nil => simp [lastStored] at h
  | cons o tr ih =>
    cases hl : lastStored u tr with
    | some p' =>
      have hp : p' = p := by cases o <;> simpa [lastStored, hl] using h
      subst hp
      obtain ⟨hu, i, pre, post, rfl, hpost⟩ := ih hl
      exact ⟨hu, i, o :: pre, post, rfl, hpost⟩
    | none =>
      cases o with
      | stored i q =>
        simp only [lastStored, hl, Option.none_or] at h
        split_ifs at h with hu
        obtain rfl := Option.some.inj h
        exact ⟨hu, i, [], tr, rfl, lastStored_eq_none_iff.mp hl⟩
      | _ => simp [lastStored, hl] at h

/-- The cache holds the last publish of a user, stored within the hour. -/
def Cached (t₀ : ℤ) : Option Publish → Option CachedClipboard → Prop
  | none, c => c = none
  | some p, c => ∃ now, t₀ ≤ now ∧ now ≤ t₀ + ttlMs ∧ c = some ⟨p.msg.content, p.deviceId, now⟩

/-- The calls of `handleClipboard` and the history agree. -/
structure Publishes (pub : PublishId → Publishing) (tr : List Obs) : Prop where
  fresh : ∀ i, pub i = .fresh → ∀ p, .stored i p ∉ tr
  stored : ∀ i p, pub i = .stored p → .stored i p ∈ tr
  finished : ∀ i, pub i = .finished → .finished i ∈ tr

/-- A session in the registry is one whose connect handler has put it there. -/
structure Joined (con : SessionId → Connecting) (c : ClientSession) : Prop where
  loggedIn : c.loggedIn = true
  username : (cfg.session c.session).username = some c.username
  deviceId : (cfg.session c.session).deviceId = some c.deviceId
  notFresh : con c.session ≠ .fresh
  notRejected : con c.session ≠ .rejected

/-- The calls of `afterConnectionEstablished`, the registry and the history agree. -/
structure Connects (reg : Registry) (con : SessionId → Connecting) (tr : List Obs) : Prop where
  joined : ∀ c ∈ reg, Joined cfg con c
  registered : ∀ q, con q = .registered → ∃ c ∈ reg, c.session = q
  reader : ∀ q r, .readCache q r ∈ tr → ∃ c ∈ reg, c.session = q
  read : ∀ q r, con q = .read r → .readCache q r ∈ tr
  done : ∀ q, con q = .done → .connected q ∈ tr

/-- The state and the history agree. -/
structure Inv (t₀ : ℤ) (s : Sys) (tr : List Obs) : Prop where
  legal : Run.Legal (Rule cfg) tr
  cache : ∀ u, Cached t₀ (lastStored u tr) (s.cache u)
  publishes : Publishes s.publishing tr
  connects : Connects cfg s.sessions s.connecting tr

variable {cfg} {t₀ : ℤ}

lemma inv_start : Inv cfg t₀ start [] where
  legal pre o post h := by simp at h
  cache u := rfl
  publishes := ⟨by simp, by simp [start], by simp [start]⟩
  connects := ⟨by simp [start], by simp [start], by simp, by simp [start], by simp [start]⟩

/-! ### What a step changes -/

lemma lastStored_grow {os : List Obs} (h : ∀ i p, .stored i p ∉ os) (u : String)
    (tr : List Obs) : lastStored u (tr ++ os) = lastStored u tr := by
  have hnone : lastStored u os = none :=
    lastStored_eq_none_iff.mpr fun i p hp => absurd hp (h i p)
  rw [lastStored_append, hnone, Option.none_or]

lemma Publishes.grow {pub : PublishId → Publishing} {tr os : List Obs} (h : Publishes pub tr)
    (hos : ∀ i p, .stored i p ∉ os) : Publishes pub (tr ++ os) where
  fresh i hi p hp := (List.mem_append.mp hp).elim (h.fresh i hi p) (hos i p)
  stored i p hi := List.mem_append_left _ (h.stored i p hi)
  finished i hi := List.mem_append_left _ (h.finished i hi)

lemma Publishes.store {pub : PublishId → Publishing} {tr : List Obs} (h : Publishes pub tr)
    (i : PublishId) (p : Publish) :
    Publishes (Function.update pub i (.stored p)) (tr ++ [.stored i p]) := by
  refine ⟨fun j hj p' hp' => ?_, fun j p' hj => ?_, fun j hj => ?_⟩ <;> by_cases hij : j = i
  · subst hij; simp at hj
  · rw [Function.update_of_ne hij] at hj
    rcases List.mem_append.mp hp' with hp' | hp'
    · exact h.fresh j hj p' hp'
    · simp [hij] at hp'
  · subst hij
    rw [Function.update_self, Publishing.stored.injEq] at hj
    simp [hj]
  · rw [Function.update_of_ne hij] at hj
    exact List.mem_append_left _ (h.stored j p' hj)
  · subst hij; simp at hj
  · rw [Function.update_of_ne hij] at hj
    exact List.mem_append_left _ (h.finished j hj)

lemma Publishes.finish {pub : PublishId → Publishing} {tr os : List Obs} (h : Publishes pub tr)
    {i : PublishId} (hos : ∀ j p, .stored j p ∉ os) (hi : .finished i ∈ os) :
    Publishes (Function.update pub i .finished) (tr ++ os) := by
  have hgrow := h.grow hos
  refine ⟨fun j hj => ?_, fun j p hj => ?_, fun j hj => ?_⟩ <;> by_cases hij : j = i
  · subst hij; simp at hj
  · rw [Function.update_of_ne hij] at hj
    exact hgrow.fresh j hj
  · subst hij; simp at hj
  · rw [Function.update_of_ne hij] at hj
    exact hgrow.stored j p hj
  · subst hij
    exact List.mem_append_right _ hi
  · rw [Function.update_of_ne hij] at hj
    exact hgrow.finished j hj

lemma Connects.grow {reg : Registry} {con : SessionId → Connecting} {tr os : List Obs}
    (h : Connects cfg reg con tr) (hos : ∀ q r, .readCache q r ∉ os) :
    Connects cfg reg con (tr ++ os) where
  joined := h.joined
  registered := h.registered
  reader q r hq := (List.mem_append.mp hq).elim (h.reader q r) (fun hq' => absurd hq' (hos q r))
  read q r hq := List.mem_append_left _ (h.read q r hq)
  done q hq := List.mem_append_left _ (h.done q hq)

lemma Joined.move {con : SessionId → Connecting} {c : ClientSession} (h : Joined cfg con c)
    {sid : SessionId} {next : Connecting} (hf : next ≠ .fresh) (hr : next ≠ .rejected) :
    Joined cfg (Function.update con sid next) c := by
  by_cases hc : c.session = sid
  · subst hc
    exact ⟨h.loggedIn, h.username, h.deviceId, by simpa using hf, by simpa using hr⟩
  · refine ⟨h.loggedIn, h.username, h.deviceId, ?_, ?_⟩ <;> rw [Function.update_of_ne hc]
    · exact h.notFresh
    · exact h.notRejected

lemma Connects.ne_of_fresh {reg : Registry} {con : SessionId → Connecting} {tr : List Obs}
    (h : Connects cfg reg con tr) {sid : SessionId} (hf : con sid = .fresh) {c : ClientSession}
    (hc : c ∈ reg) : c.session ≠ sid := by
  rintro rfl
  exact (h.joined c hc).notFresh hf

lemma Connects.reject {reg : Registry} {con : SessionId → Connecting} {tr : List Obs}
    (h : Connects cfg reg con tr) {sid : SessionId} (hf : con sid = .fresh) :
    Connects cfg reg (Function.update con sid .rejected) tr := by
  refine ⟨fun c hc => ?_, fun q hq => ?_, h.reader, fun q r hq => ?_, fun q hq => ?_⟩
  · have hne := h.ne_of_fresh hf hc
    have hj := h.joined c hc
    refine ⟨hj.loggedIn, hj.username, hj.deviceId, ?_, ?_⟩ <;> rw [Function.update_of_ne hne]
    · exact hj.notFresh
    · exact hj.notRejected
  all_goals
    by_cases hqs : q = sid
    · subst hqs; simp at hq
    · rw [Function.update_of_ne hqs] at hq
      first
        | exact h.registered q hq
        | exact h.read q r hq
        | exact h.done q hq

lemma Connects.register {reg : Registry} {con : SessionId → Connecting} {tr : List Obs}
    (h : Connects cfg reg con tr) {sid : SessionId} (hf : con sid = .fresh) {u d : String}
    (hu : (cfg.session sid).username = some u) (hd : (cfg.session sid).deviceId = some d) :
    Connects cfg (put ClientSession.session ⟨sid, true, true, u, d⟩ reg)
      (Function.update con sid .registered) tr := by
  have hkeep : ∀ {q : SessionId}, (∃ c ∈ reg, c.session = q) →
      ∃ c ∈ put ClientSession.session ⟨sid, true, true, u, d⟩ reg, c.session = q := by
    rintro q ⟨c, hc, rfl⟩
    exact ⟨c, mem_put.mpr (.inl ⟨hc, h.ne_of_fresh hf hc⟩), rfl⟩
  refine ⟨fun c hc => ?_, fun q hq => ?_, fun q r hq => hkeep (h.reader q r hq), fun q r hq => ?_,
    fun q hq => ?_⟩
  · rcases mem_put.mp hc with ⟨hc, -⟩ | rfl
    · exact (h.joined c hc).move (by simp) (by simp)
    · exact ⟨rfl, hu, hd, by simp, by simp⟩
  all_goals by_cases hqs : q = sid
  · subst hqs
    exact ⟨_, mem_put.mpr (.inr rfl), rfl⟩
  · rw [Function.update_of_ne hqs] at hq
    exact hkeep (h.registered q hq)
  · subst hqs; simp at hq
  · rw [Function.update_of_ne hqs] at hq
    exact h.read q r hq
  · subst hqs; simp at hq
  · rw [Function.update_of_ne hqs] at hq
    exact h.done q hq

lemma Connects.readCache {reg : Registry} {con : SessionId → Connecting} {tr : List Obs}
    (h : Connects cfg reg con tr) {sid : SessionId} (hr : con sid = .registered)
    (replay : Option WsMessage) :
    Connects cfg reg (Function.update con sid (.read replay)) (tr ++ [.readCache sid replay]) := by
  refine ⟨fun c hc => (h.joined c hc).move (by simp) (by simp), fun q hq => ?_, fun q r hq => ?_,
    fun q r hq => ?_, fun q hq => ?_⟩
  · by_cases hqs : q = sid
    · subst hqs; simp at hq
    · rw [Function.update_of_ne hqs] at hq
      exact h.registered q hq
  · rcases List.mem_append.mp hq with hq | hq
    · exact h.reader q r hq
    · simp only [List.mem_singleton, Obs.readCache.injEq] at hq
      obtain ⟨rfl, -⟩ := hq
      exact h.registered q hr
  · by_cases hqs : q = sid
    · subst hqs
      rw [Function.update_self, Connecting.read.injEq] at hq
      simp [hq]
    · rw [Function.update_of_ne hqs] at hq
      exact List.mem_append_left _ (h.read q r hq)
  · by_cases hqs : q = sid
    · subst hqs; simp at hq
    · rw [Function.update_of_ne hqs] at hq
      exact List.mem_append_left _ (h.done q hq)

lemma Connects.finish {reg : Registry} {con : SessionId → Connecting} {tr os : List Obs}
    (h : Connects cfg reg con tr) {sid : SessionId} (hos : ∀ q r, .readCache q r ∉ os)
    (hsid : .connected sid ∈ os) :
    Connects cfg reg (Function.update con sid .done) (tr ++ os) := by
  have hgrow := h.grow hos
  refine ⟨fun c hc => (h.joined c hc).move (by simp) (by simp), fun q hq => ?_, hgrow.reader,
    fun q r hq => ?_, fun q hq => ?_⟩ <;> by_cases hqs : q = sid
  · subst hqs; simp at hq
  · rw [Function.update_of_ne hqs] at hq
    exact hgrow.registered q hq
  · subst hqs; simp at hq
  · rw [Function.update_of_ne hqs] at hq
    exact hgrow.read q r hq
  · subst hqs
    exact List.mem_append_right _ hsid
  · rw [Function.update_of_ne hqs] at hq
    exact hgrow.done q hq

/-! ### The steps -/

lemma inv_store {s : Sys} {tr : List Obs} (h : Inv cfg t₀ s tr) (i : PublishId) (sid : SessionId)
    (msg : Clipboard) {now : ℤ} (hnow : t₀ ≤ now ∧ now ≤ t₀ + ttlMs) :
    Inv cfg t₀ (step cfg s (.store i sid msg now)).1
      (tr ++ (step cfg s (.store i sid msg now)).2) := by
  have hstay : Inv cfg t₀ s (tr ++ []) := by simpa using h
  cases hp : s.publishing i with
  | stored p => simpa only [step, hp] using hstay
  | finished => simpa only [step, hp] using hstay
  | fresh =>
    cases hg : getSession sid s.sessions with
    | none => simpa only [step, hp, hg] using hstay
    | some cs =>
      simp only [step, hp, hg]
      obtain ⟨hmem, rfl⟩ := mem_of_get hg
      have hj := h.connects.joined cs hmem
      refine ⟨?_, fun u => ?_, h.publishes.store i _, h.connects.grow (by simp)⟩
      · exact Run.legal_snoc h.legal ⟨h.publishes.fresh i hp, hj.username, hj.deviceId⟩
      · rw [lastStored_append]
        by_cases hu : cs.username = u
        · subst hu
          simp only [lastStored, Option.none_or, if_pos, Option.some_or, store,
            Function.update_self]
          exact ⟨now, hnow.1, hnow.2, rfl⟩
        · have hne : u ≠ cs.username := fun h => hu h.symm
          simp only [lastStored, Option.none_or, if_neg hu, store, Function.update_of_ne hne]
          exact h.cache u

/-- A broadcast reaches every session that has read the cache. -/
lemma inv_broadcast {s : Sys} {tr : List Obs} (h : Inv cfg t₀ s tr) (i : PublishId) :
    Inv cfg t₀ (step cfg s (.broadcast i)).1 (tr ++ (step cfg s (.broadcast i)).2) := by
  have hstay : Inv cfg t₀ s (tr ++ []) := by simpa using h
  cases hp : s.publishing i with
  | fresh => simpa only [step, hp] using hstay
  | finished => simpa only [step, hp] using hstay
  | stored p =>
    simp only [step, hp]
    have hstored := h.publishes.stored i p hp
    refine ⟨?_, fun u => ?_, h.publishes.finish (by simp) (by simp), h.connects.grow (by simp)⟩
    · rw [← List.append_assoc]
      have hdel : Run.Legal (Rule cfg) (tr ++ (broadcastTargets p.username p.sid s.sessions).map
          fun t => .delivered t.session p.frame (.broadcast i)) := by
        refine Run.legal_append h.legal fun pre o post heq => ?_
        have ho : o ∈ (broadcastTargets p.username p.sid s.sessions).map
            (fun t => Obs.delivered t.session p.frame (.broadcast i)) := by simp [heq]
        obtain ⟨t, ht, rfl⟩ := List.mem_map.mp ho
        obtain ⟨htmem, -, hu, -⟩ := mem_broadcastTargets.mp ht
        refine ⟨p, List.mem_append_left _ hstored, rfl, ?_⟩
        rw [hu]; exact (h.connects.joined t htmem).username
      refine Run.legal_snoc hdel ⟨p, List.mem_append_left _ hstored, fun q r hq hu hne => ?_⟩
      -- whoever has read the cache is in the registry
      have hq' : Obs.readCache q r ∈ tr := by simpa using hq
      obtain ⟨c, hc, rfl⟩ := h.connects.reader q r hq'
      have hj := h.connects.joined c hc
      refine List.mem_append_right _ (List.mem_map.mpr ⟨c, ?_, rfl⟩)
      refine mem_broadcastTargets.mpr ⟨hc, hj.loggedIn, ?_, hne⟩
      exact Option.some.inj (hu.symm.trans hj.username)
    · rw [lastStored_grow (by simp)]
      exact h.cache u

lemma inv_register {s : Sys} {tr : List Obs} (h : Inv cfg t₀ s tr) (sid : SessionId) :
    Inv cfg t₀ (step cfg s (.register sid)).1 (tr ++ (step cfg s (.register sid)).2) := by
  have hstay : Inv cfg t₀ s (tr ++ []) := by simpa using h
  cases hf : s.connecting sid with
  | fresh =>
    have hreject : Inv cfg t₀ { s with connecting := Function.update s.connecting sid .rejected }
        (tr ++ []) := by
      rw [List.append_nil]
      exact ⟨h.legal, h.cache, h.publishes, h.connects.reject hf⟩
    cases hu : (cfg.session sid).username with
    | none => simpa only [step, hf, hu] using hreject
    | some u =>
      cases hd : (cfg.session sid).deviceId with
      | none => simpa only [step, hf, hu, hd] using hreject
      | some d =>
        cases ha : addAuthenticated sid u d s.sessions with
        | none => simpa only [step, hf, hu, hd, ha] using hreject
        | some reg =>
          simp only [step, hf, hu, hd, ha, List.append_nil]
          rw [Views.addAuthenticated_some ha]
          exact ⟨h.legal, h.cache, h.publishes, h.connects.register hf hu hd⟩
  | _ => simpa only [step, hf] using hstay

/-- Within the hour, the replay is what is shown of the last publish, and nothing expires. -/
lemma getForDevice_cached {last : Option Publish} {c : Cache} {u : String}
    (h : Cached t₀ last (c u)) {now : ℤ} (hnow : now ≤ t₀ + ttlMs) (d : String) :
    getForDevice now u d c = (shown last d, c) := by
  cases last with
  | none =>
    have hnone : c u = none := h
    simp [getForDevice, hnone, shown]
  | some p =>
    obtain ⟨t, ht₀, -, hc⟩ := h
    have hfresh : ¬ ttlMs < now - t := by omega
    by_cases hd : p.deviceId = d
    · simp [getForDevice, hc, shown, hd]
    · simp [getForDevice, hc, shown, hd, hfresh, Publish.replayFrame]

lemma inv_readCache {s : Sys} {tr : List Obs} (h : Inv cfg t₀ s tr) (sid : SessionId) {now : ℤ}
    (hnow : now ≤ t₀ + ttlMs) :
    Inv cfg t₀ (step cfg s (.readCache sid now)).1
      (tr ++ (step cfg s (.readCache sid now)).2) := by
  have hstay : Inv cfg t₀ s (tr ++ []) := by simpa using h
  cases hr : s.connecting sid with
  | registered =>
    cases hu : (cfg.session sid).username with
    | none => simpa only [step, hr, hu] using hstay
    | some u =>
      cases hd : (cfg.session sid).deviceId with
      | none => simpa only [step, hr, hu, hd] using hstay
      | some d =>
        simp only [step, hr, hu, hd, getForDevice_cached (h.cache u) hnow d]
        refine ⟨?_, fun v => ?_, h.publishes.grow (by simp), h.connects.readCache hr _⟩
        · exact Run.legal_snoc h.legal ⟨u, d, hu, hd, rfl⟩
        · rw [lastStored_grow (by simp)]
          exact h.cache v
  | _ => simpa only [step, hr] using hstay

lemma inv_sendReplay {s : Sys} {tr : List Obs} (h : Inv cfg t₀ s tr) (sid : SessionId) :
    Inv cfg t₀ (step cfg s (.sendReplay sid)).1 (tr ++ (step cfg s (.sendReplay sid)).2) := by
  have hstay : Inv cfg t₀ s (tr ++ []) := by simpa using h
  cases hr : s.connecting sid with
  | read replay =>
    have hread := h.connects.read sid replay hr
    simp only [step, hr]
    refine ⟨?_, fun u => ?_, h.publishes.grow (by simp), h.connects.finish (by simp) (by simp)⟩
    · cases replay with
      | none => exact Run.legal_snoc h.legal ⟨none, hread, by simp⟩
      | some f =>
        have hdel : Run.Legal (Rule cfg) (tr ++ [.delivered sid f .replay]) :=
          Run.legal_snoc h.legal hread
        have hcon : Run.Legal (Rule cfg) (tr ++ [.delivered sid f .replay] ++ [.connected sid]) :=
          Run.legal_snoc hdel ⟨some f, List.mem_append_left _ hread, by simp⟩
        simpa using hcon
    · rw [lastStored_grow (by simp)]
      exact h.cache u
  | _ => simpa only [step, hr] using hstay

lemma inv_evict {s : Sys} {tr : List Obs} (h : Inv cfg t₀ s tr) {now : ℤ}
    (hnow : now ≤ t₀ + ttlMs) :
    Inv cfg t₀ (step cfg s (.evict now)).1 (tr ++ (step cfg s (.evict now)).2) := by
  simp only [step, List.append_nil]
  refine ⟨h.legal, fun u => ?_, h.publishes, h.connects⟩
  have hc := h.cache u
  have hsame : evictExpired now s.cache u = s.cache u := by
    unfold evictExpired
    cases hl : lastStored u tr with
    | none =>
      rw [hl] at hc
      have hnone : s.cache u = none := hc
      rw [hnone]; rfl
    | some p =>
      rw [hl] at hc
      obtain ⟨t, ht₀, -, hcu⟩ := hc
      have hfresh : now - ttlMs ≤ t := by omega
      simp [hcu, Option.filter_some, hfresh]
  show Cached t₀ (lastStored u tr) (evictExpired now s.cache u)
  rw [hsame]
  exact hc

lemma inv_step {s : Sys} {tr : List Obs} (h : Inv cfg t₀ s tr) (l : Label) (hl : Within t₀ l) :
    Inv cfg t₀ (step cfg s l).1 (tr ++ (step cfg s l).2) := by
  cases l with
  | store i sid msg now => exact inv_store h i sid msg (hl now rfl)
  | broadcast i => exact inv_broadcast h i
  | register sid => exact inv_register h sid
  | readCache sid now => exact inv_readCache h sid (hl now rfl).2
  | sendReplay sid => exact inv_sendReplay h sid
  | evict now => exact inv_evict h (hl now rfl).2

variable (cfg) in
/-- Everything that happens in a run, in order. -/
def history (ls : List Label) : List Obs := Run.outs (step cfg) start ls

/-- **Every history within the hour follows the rule.** -/
theorem history_inv {ls : List Label} (hls : ∀ l ∈ ls, Within t₀ l) :
    Inv cfg t₀ (Run.exec (step cfg) start ls) (history cfg ls) := by
  have hrun : Inv cfg t₀ (Run.exec (step cfg) start ls) ([] ++ history cfg ls) := by
    refine Run.exec_outs_inv (fun s tr l hl h => ?_) inv_start hls
    exact inv_step h l hl
  exact hrun

/-! ### A handler without interference -/

/-- The state of the server behind the handlers. -/
def Sys.server (s : Sys) (offers : Offers) : Server := ⟨s.sessions, s.cache, offers⟩

/-- The frames delivered, as acts of the server. -/
def actsOf : List Obs → List Act
  | [] => []
  | .delivered sid f _ :: tr => .send sid f true :: actsOf tr
  | _ :: tr => actsOf tr

lemma actsOf_append (tr os : List Obs) : actsOf (tr ++ os) = actsOf tr ++ actsOf os := by
  induction tr with
  | nil => rfl
  | cons o tr ih => cases o <;> simp [actsOf, ih]

lemma foldl_taskRegistry_ok (f : WsMessage) (ts : List ClientSession) (reg : Registry) :
    ts.foldl (taskRegistry allOk f) reg = reg := by
  induction ts with
  | nil => rfl
  | cons t ts ih => exact ih

lemma publish_alone {s : Sys} {i : PublishId} (hi : s.publishing i = .fresh) {sid : SessionId}
    {cs : ClientSession} (hg : getSession sid s.sessions = some cs) (msg : Clipboard) (now : ℤ)
    (offers : Offers) :
    (Run.exec (step cfg) s [.store i sid msg now, .broadcast i]).server offers =
        (handleClipboard allOk now sid cs msg (s.server offers)).st ∧
      actsOf (Run.outs (step cfg) s [.store i sid msg now, .broadcast i]) =
        (handleClipboard allOk now sid cs msg (s.server offers)).acts := by
  constructor
  · simp [step, hi, hg, Sys.server, handleClipboard, broadcastToUser, foldl_taskRegistry_ok]
  · simp only [Run.outs_cons, Run.outs_nil, step, hi, hg, Function.update_self, actsOf_append,
      actsOf, List.append_nil, List.nil_append, handleClipboard, broadcastToUser, Sys.server]
    induction broadcastTargets cs.username sid s.sessions with
    | nil => rfl
    | cons t ts ih =>
      rw [List.map_cons, actsOf, ih, List.flatMap_cons]
      rfl

lemma connect_alone {s : Sys} {sid : SessionId} (hf : s.connecting sid = .fresh) {u d : String}
    (hu : (cfg.session sid).username = some u) (hd : (cfg.session sid).deviceId = some d)
    {reg : Registry} (ha : addAuthenticated sid u d s.sessions = some reg) (now : ℤ)
    (offers : Offers) :
    (Run.exec (step cfg) s [.register sid, .readCache sid now, .sendReplay sid]).server offers =
        (afterConnectionEstablished cfg allOk now sid (s.server offers)).st ∧
      .send sid (helloAckFrame cfg) true ::
          actsOf (Run.outs (step cfg) s [.register sid, .readCache sid now, .sendReplay sid]) =
        (afterConnectionEstablished cfg allOk now sid (s.server offers)).acts := by
  rcases hr : getForDevice now u d s.cache with ⟨_ | f, c⟩ <;>
  · constructor <;>
      simp [step, hf, hu, hd, ha, hr, Sys.server, afterConnectionEstablished, sendJson, sendMessage,
        Res.andThen, replay, actsOf]

end SyncClipboard.PublishConnect
