import SyncClipboard.Views

/-!
The clipboard cache under concurrent calls.

A call is cut where the code touches the shared map or the clock: one step is one operation of
the concurrent map or one reading of the clock, and any number of calls take their steps in any
order. The abstract cache remembers the last publish of each user and shows it for one hour; it
knows nothing of evictions. Whatever the calls do, the abstract cache follows (`cache_refines`).
-/

namespace SyncClipboard.CacheRace

open ServerModel

/-! ### The calls, cut at the shared map -/

abbrev CallId := ℕ

/-- Where a call stands. -/
inductive Pc
  | idle
  /-- `store` has read the clock and built the entry. -/
  | storing (username : String) (entry : CachedClipboard)
  /-- `getForDevice` has looked an entry of another device up. -/
  | looked (username : String) (cached : CachedClipboard)
  /-- `getForDevice` has found the entry expired at `now` and is about to remove it. -/
  | dropping (username : String) (cached : CachedClipboard) (now : ℤ)
  /-- `evictExpired` walks over the entries with its cutoff. -/
  | evicting (cutoff : ℤ)
  /-- `evictExpired` has found an entry before the cutoff and is about to remove it. -/
  | evictingEntry (cutoff : ℤ) (username : String) (entry : CachedClipboard)

structure Sys where
  cache : Cache
  clock : ℤ
  calls : CallId → Pc

def start (clock : ℤ) : Sys := ⟨fun _ => none, clock, fun _ => .idle⟩

inductive Label
  | tick (now : ℤ)
  | readClock (i : CallId) (username : String) (encryptedContent : Option String)
      (fromDevice : String)
  | put (i : CallId)
  | lookup (i : CallId) (username deviceId : String)
  | test (i : CallId)
  | drop (i : CallId)
  | readCutoff (i : CallId)
  | visit (i : CallId) (username : String)
  | removeEntry (i : CallId)
  | endEvict (i : CallId)
  deriving DecidableEq

/-- What can be seen of a step. A return carries the time at which the call read the clock, or
looked into the map if it ended there. -/
inductive Obs
  | published (username : String) (entry : CachedClipboard)
  | lookedUp (i : CallId) (username deviceId : String)
  | returned (i : CallId) (now : ℤ) (res : Option WsMessage)
  | removed (username : String) (entry : CachedClipboard) (now : ℤ)

/-- The replayed frame of an entry. -/
def frameOf (cached : CachedClipboard) : WsMessage :=
  .clipboard ⟨none, cached.encryptedContent, some cached.fromDevice⟩

def Sys.goto (s : Sys) (i : CallId) (pc : Pc) : Sys :=
  { s with calls := Function.update s.calls i pc }

/-- `ConcurrentHashMap.remove(key, value)`: removes the entry if it is still this one. -/
def removeIfSame (username : String) (entry : CachedClipboard) (s : Sys) : Sys × List Obs :=
  if s.cache username = some entry then
    ({ s with cache := Function.update s.cache username none }, [.removed username entry s.clock])
  else (s, [])

/-- One step of one call. A label that does not fit where the call stands does nothing. -/
def step (s : Sys) : Label → Sys × List Obs
  | .tick now => ({ s with clock := max s.clock now }, [])
  | .readClock i username content fromDevice =>
    match s.calls i with
    | .idle => (s.goto i (.storing username ⟨content, fromDevice, s.clock⟩), [])
    | _ => (s, [])
  | .put i =>
    match s.calls i with
    | .storing username entry =>
      ({ s.goto i .idle with cache := Function.update s.cache username (some entry) },
        [.published username entry])
    | _ => (s, [])
  | .lookup i username deviceId =>
    match s.calls i with
    | .idle =>
      match s.cache username with
      | none => (s, [.lookedUp i username deviceId, .returned i s.clock none])
      | some cached =>
        if cached.fromDevice = deviceId then
          (s, [.lookedUp i username deviceId, .returned i s.clock none])
        else (s.goto i (.looked username cached), [.lookedUp i username deviceId])
    | _ => (s, [])
  | .test i =>
    match s.calls i with
    | .looked username cached =>
      if ttlMs < s.clock - cached.timestamp then (s.goto i (.dropping username cached s.clock), [])
      else (s.goto i .idle, [.returned i s.clock (some (frameOf cached))])
    | _ => (s, [])
  | .drop i =>
    match s.calls i with
    | .dropping username cached now =>
      let (s', obs) := removeIfSame username cached s
      (s'.goto i .idle, obs ++ [.returned i now none])
    | _ => (s, [])
  | .readCutoff i =>
    match s.calls i with
    | .idle => (s.goto i (.evicting (s.clock - ttlMs)), [])
    | _ => (s, [])
  | .visit i username =>
    match s.calls i, s.cache username with
    | .evicting cutoff, some entry =>
      if entry.timestamp < cutoff then (s.goto i (.evictingEntry cutoff username entry), [])
      else (s, [])
    | _, _ => (s, [])
  | .removeEntry i =>
    match s.calls i with
    | .evictingEntry cutoff username entry =>
      let (s', obs) := removeIfSame username entry s
      (s'.goto i (.evicting cutoff), obs)
    | _ => (s, [])
  | .endEvict i =>
    match s.calls i with
    | .evicting _ => (s.goto i .idle, [])
    | _ => (s, [])

/-! ### The abstract cache -/

/-- The last publish of each user, and for each call of `getForDevice` what it asked for and the
last publish at its lookup. -/
structure LastPublish where
  last : String → Option CachedClipboard
  asked : CallId → Option (String × Option CachedClipboard)

def empty : LastPublish := ⟨fun _ => none, fun _ => none⟩

def expired (entry : CachedClipboard) (now : ℤ) : Prop := ttlMs < now - entry.timestamp

instance (entry : CachedClipboard) (now : ℤ) : Decidable (expired entry now) :=
  inferInstanceAs (Decidable (_ < _))

/-- What a device is shown of the last publish at a time: a publish of another device, for one
hour. -/
def visible (last : Option CachedClipboard) (deviceId : String) (now : ℤ) : Option WsMessage :=
  match last with
  | none => none
  | some e => if e.fromDevice ≠ deviceId ∧ ¬ expired e now then some (frameOf e) else none

/-- The abstract cache takes note of publishes, and refuses a result that is not what is visible
of the last publish and a removal of an entry that is not expired. -/
def accept (a : LastPublish) : Obs → Option LastPublish
  | .published username entry => some { a with last := Function.update a.last username (some entry) }
  | .lookedUp i username deviceId =>
    some { a with asked := Function.update a.asked i (some (deviceId, a.last username)) }
  | .returned i now res =>
    match a.asked i with
    | some (deviceId, last) => if res = visible last deviceId now then some a else none
    | none => none
  | .removed _ entry now => if expired entry now then some a else none

/-! ### The simulation -/

/-- What the abstract cache knows of a call, by where the call stands. -/
def CallOk (a : LastPublish) (clock : ℤ) (i : CallId) : Pc → Prop
  | .looked _ cached => ∃ d, a.asked i = some (d, some cached) ∧ cached.fromDevice ≠ d
  | .dropping _ cached now =>
    (∃ d, a.asked i = some (d, some cached)) ∧ expired cached now ∧ now ≤ clock
  | .evicting cutoff => cutoff ≤ clock - ttlMs
  | .evictingEntry cutoff _ entry => cutoff ≤ clock - ttlMs ∧ entry.timestamp < cutoff
  | .idle | .storing _ _ => True

/-- The map holds the last publish of a user, or nothing once that publish is expired. -/
structure Sim (s : Sys) (a : LastPublish) : Prop where
  cache : ∀ u, s.cache u = a.last u ∨ s.cache u = none ∧ ∀ e ∈ a.last u, expired e s.clock
  calls : ∀ i, CallOk a s.clock i (s.calls i)

lemma expired_mono {e : CachedClipboard} {now now' : ℤ} (h : expired e now) (hle : now ≤ now') :
    expired e now' := by
  unfold expired at h ⊢
  omega

lemma CallOk.mono {a : LastPublish} {clock clock' : ℤ} {i : CallId} {pc : Pc}
    (h : CallOk a clock i pc) (hle : clock ≤ clock') : CallOk a clock' i pc := by
  cases pc with
  | dropping u cached now =>
    obtain ⟨hd, hexp, hnow⟩ := h
    exact ⟨hd, hexp, by omega⟩
  | evicting cutoff =>
    have hcut : cutoff ≤ clock - ttlMs := h
    show cutoff ≤ clock' - ttlMs
    omega
  | evictingEntry cutoff u e =>
    obtain ⟨hcut, hlt⟩ := h
    exact ⟨by omega, hlt⟩
  | _ => exact h

lemma callOk_congr {a a' : LastPublish} {clock : ℤ} {i : CallId} {pc : Pc}
    (h : a.asked i = a'.asked i) : CallOk a clock i pc ↔ CallOk a' clock i pc := by
  unfold CallOk
  rw [h]

lemma Sim.tick {s : Sys} {a : LastPublish} (h : Sim s a) (now : ℤ) :
    Sim { s with clock := max s.clock now } a := by
  have hle : s.clock ≤ max s.clock now := by omega
  refine ⟨fun u => ?_, fun i => (h.calls i).mono hle⟩
  rcases h.cache u with heq | ⟨hnone, hexp⟩
  · exact .inl heq
  · exact .inr ⟨hnone, fun e he => expired_mono (hexp e he) hle⟩

/-- A call may go wherever the abstract cache can account for it. -/
lemma Sim.goto {s : Sys} {a : LastPublish} (h : Sim s a) {i : CallId} {pc : Pc}
    (hpc : CallOk a s.clock i pc) : Sim (s.goto i pc) a := by
  refine ⟨h.cache, fun j => ?_⟩
  show CallOk a s.clock j (Function.update s.calls i pc j)
  by_cases hj : j = i
  · subst hj; rw [Function.update_self]; exact hpc
  · rw [Function.update_of_ne hj]; exact h.calls j

lemma Sim.publish {s : Sys} {a : LastPublish} (h : Sim s a) (u : String) (e : CachedClipboard) :
    Sim { s with cache := Function.update s.cache u (some e) }
      { a with last := Function.update a.last u (some e) } := by
  refine ⟨fun v => ?_, h.calls⟩
  by_cases hv : v = u
  · subst hv
    exact .inl (by simp)
  · simp only [Function.update_of_ne hv]
    exact h.cache v

/-- A lookup is noted by the abstract cache with the last publish of that moment. -/
lemma Sim.lookedUp {s : Sys} {a : LastPublish} (h : Sim s a) {i : CallId}
    (hi : s.calls i = .idle) (w : String × Option CachedClipboard) :
    Sim s { a with asked := Function.update a.asked i (some w) } := by
  refine ⟨h.cache, fun j => ?_⟩
  by_cases hj : j = i
  · subst hj; rw [hi]; trivial
  · have hsame : Function.update a.asked i (some w) j = a.asked j := Function.update_of_ne hj _ _
    exact (callOk_congr hsame).mpr (h.calls j)

/-- Taking out an expired entry goes unnoticed: were it another entry by now, it would stay. -/
lemma Sim.removeIfSame {s : Sys} {a : LastPublish} (h : Sim s a) (u : String)
    {e : CachedClipboard} (he : expired e s.clock) :
    Run.follow accept a (removeIfSame u e s).2 = some a ∧ Sim (removeIfSame u e s).1 a := by
  unfold CacheRace.removeIfSame
  by_cases hsame : s.cache u = some e
  · rw [if_pos hsame]
    refine ⟨by simp [accept, he], fun v => ?_, h.calls⟩
    by_cases hv : v = u
    · subst hv
      refine .inr ⟨by simp, fun e' he' => ?_⟩
      rcases h.cache v with heq | ⟨hnone, -⟩
      · rw [← heq, hsame, Option.mem_some_iff] at he'
        exact he' ▸ he
      · rw [hnone] at hsame; cases hsame
    · simp only [Function.update_of_ne hv]
      exact h.cache v
  · rw [if_neg hsame]
    exact ⟨rfl, h⟩

lemma visible_same (e : CachedClipboard) (now : ℤ) : visible (some e) e.fromDevice now = none := by
  simp [visible]

lemma visible_expired {last : Option CachedClipboard} {now : ℤ} (h : ∀ e ∈ last, expired e now)
    (d : String) : visible last d now = none := by
  cases last with
  | none => rfl
  | some e => simp [visible, h e rfl]

lemma visible_fresh {e : CachedClipboard} {d : String} {now : ℤ} (hd : e.fromDevice ≠ d)
    (h : ¬ expired e now) : visible (some e) d now = some (frameOf e) := by
  simp [visible, hd, h]

lemma follow_returned {a : LastPublish} {i : CallId} {d : String} {last : Option CachedClipboard}
    (ha : a.asked i = some (d, last)) {now : ℤ} {res : Option WsMessage}
    (hres : res = visible last d now) : Run.follow accept a [.returned i now res] = some a := by
  simp [accept, ha, hres]

/-- A lookup: the call either ends there, with nothing visible, or goes on with the last publish. -/
lemma sim_lookup {s : Sys} {a : LastPublish} (h : Sim s a) (i : CallId) (u d : String) :
    ∃ a', Run.follow accept a (step s (.lookup i u d)).2 = some a' ∧
      Sim (step s (.lookup i u d)).1 a' := by
  cases hi : s.calls i with
  | idle =>
    have hsim := h.lookedUp hi (d, a.last u)
    have hasked : Function.update a.asked i (some (d, a.last u)) i = some (d, a.last u) :=
      Function.update_self ..
    -- the answer of a call that ends at the lookup
    have hend : visible (a.last u) d s.clock = none →
        ∃ a', Run.follow accept a [.lookedUp i u d, .returned i s.clock none] = some a' ∧
          Sim s a' := by
      intro hvis
      refine ⟨_, ?_, hsim⟩
      rw [Run.follow_cons]
      exact follow_returned hasked hvis.symm
    cases hc : s.cache u with
    | none =>
      have hexp : ∀ e ∈ a.last u, expired e s.clock := by
        rcases h.cache u with heq | ⟨-, hexp⟩
        · rw [← heq, hc]; simp
        · exact hexp
      simp only [step, hi, hc]
      exact hend (visible_expired hexp d)
    | some cached =>
      have hlast : a.last u = some cached := by
        rcases h.cache u with heq | ⟨hnone, -⟩
        · rw [← heq, hc]
        · rw [hnone] at hc; cases hc
      by_cases hd : cached.fromDevice = d
      · simp only [step, hi, hc, if_pos hd]
        refine hend ?_
        rw [hlast, ← hd]; exact visible_same cached s.clock
      · simp only [step, hi, hc, if_neg hd]
        refine ⟨_, rfl, hsim.goto ⟨d, ?_, hd⟩⟩
        rw [← hlast]; exact hasked
  | _ => exact ⟨a, by simp [step, hi], by simpa [step, hi] using h⟩

/-- **One step of any call is followed by the abstract cache.** -/
theorem sim_step (s : Sys) (a : LastPublish) (l : Label) (h : Sim s a) :
    ∃ a', Run.follow accept a (step s l).2 = some a' ∧ Sim (step s l).1 a' := by
  have hstay : ∃ a', Run.follow accept a [] = some a' ∧ Sim s a' := ⟨a, rfl, h⟩
  cases l with
  | tick now => exact ⟨a, rfl, h.tick now⟩
  | readClock i u x d =>
    cases hi : s.calls i <;> simp only [step, hi] <;> try exact hstay
    exact ⟨a, rfl, h.goto trivial⟩
  | put i =>
    cases hi : s.calls i <;> simp only [step, hi] <;> try exact hstay
    case storing u e =>
      have hidle : Sim (s.goto i .idle) a := h.goto trivial
      exact ⟨_, rfl, hidle.publish u e⟩
  | lookup i u d => exact sim_lookup h i u d
  | test i =>
    cases hi : s.calls i <;> simp only [step, hi] <;> try exact hstay
    case looked u cached =>
      have hok := h.calls i
      rw [hi] at hok
      obtain ⟨d, hask, hd⟩ := hok
      split_ifs with hexp
      · exact ⟨a, rfl, h.goto ⟨⟨d, hask⟩, hexp, Int.le_refl _⟩⟩
      · exact ⟨a, follow_returned hask (visible_fresh hd hexp).symm, h.goto trivial⟩
  | drop i =>
    cases hi : s.calls i <;> simp only [step, hi] <;> try exact hstay
    case dropping u cached now =>
      have hok := h.calls i
      rw [hi] at hok
      obtain ⟨⟨d, hask⟩, hexp, hle⟩ := hok
      obtain ⟨hfollow, hsim⟩ := h.removeIfSame u (expired_mono hexp hle)
      refine ⟨a, ?_, hsim.goto trivial⟩
      rw [Run.follow_append, hfollow]
      refine follow_returned hask (visible_expired (fun e he => ?_) d).symm
      exact Option.mem_some_iff.mp he ▸ hexp
  | readCutoff i =>
    cases hi : s.calls i <;> simp only [step, hi] <;> try exact hstay
    exact ⟨a, rfl, h.goto (Int.le_refl _)⟩
  | visit i u =>
    cases hi : s.calls i <;> simp only [step, hi] <;> try exact hstay
    case evicting cutoff =>
      have hok := h.calls i
      rw [hi] at hok
      cases hc : s.cache u with
      | none => exact hstay
      | some e =>
        dsimp only
        split_ifs with hlt
        · exact ⟨a, rfl, h.goto ⟨hok, hlt⟩⟩
        · exact hstay
  | removeEntry i =>
    cases hi : s.calls i <;> simp only [step, hi] <;> try exact hstay
    case evictingEntry cutoff u e =>
      have hok := h.calls i
      rw [hi] at hok
      obtain ⟨hcut, hlt⟩ := hok
      have hexp : expired e s.clock := by
        unfold expired
        omega
      obtain ⟨hfollow, hsim⟩ := h.removeIfSame u hexp
      refine ⟨a, hfollow, hsim.goto ?_⟩
      have hclock : (removeIfSame u e s).1.clock = s.clock := by
        unfold removeIfSame; split_ifs <;> rfl
      show cutoff ≤ (removeIfSame u e s).1.clock - ttlMs
      omega
  | endEvict i =>
    cases hi : s.calls i <;> simp only [step, hi] <;> try exact hstay
    exact ⟨a, rfl, h.goto trivial⟩

/-! ### Every call returns -/

def Label.call? : Label → Option CallId
  | .tick _ => none
  | .readClock i _ _ _ | .put i | .lookup i _ _ | .test i | .drop i | .readCutoff i | .visit i _
  | .removeEntry i | .endEvict i => some i

/-- The steps of one call, in order. -/
def stepsOf (i : CallId) (ls : List Label) : List Label := ls.filter fun l => l.call? = some i

def Returned (i : CallId) (os : List Obs) : Prop := ∃ now res, Obs.returned i now res ∈ os

lemma removeIfSame_calls (u : String) (e : CachedClipboard) (s : Sys) :
    (removeIfSame u e s).1.calls = s.calls := by
  unfold removeIfSame; split_ifs <;> rfl

lemma goto_calls_of_ne {s : Sys} {i j : CallId} (h : i ≠ j) (pc : Pc) :
    (s.goto j pc).calls i = s.calls i :=
  Function.update_of_ne h _ _

lemma calls_of_other {i : CallId} {l : Label} (hl : l.call? ≠ some i) (s : Sys) :
    (step s l).1.calls i = s.calls i := by
  have hgoto : ∀ {j : CallId}, some j ≠ some i → ∀ (t : Sys) (pc : Pc),
      (t.goto j pc).calls i = t.calls i :=
    fun hj t pc => goto_calls_of_ne (fun hij => hj (by rw [hij])) pc
  cases l with
  | tick now => rfl
  | readClock j u x d => cases hj : s.calls j <;> simp [step, hj, hgoto hl]
  | put j =>
    cases hj : s.calls j <;> simp only [step, hj]
    exact hgoto hl s .idle
  | lookup j u d =>
    cases hj : s.calls j <;> simp only [step, hj]
    cases s.cache u with
    | none => rfl
    | some cached => dsimp only; split_ifs <;> simp [hgoto hl]
  | test j =>
    cases hj : s.calls j <;> simp only [step, hj]
    split_ifs <;> exact hgoto hl s _
  | drop j =>
    cases hj : s.calls j <;> simp only [step, hj]
    rw [hgoto hl, removeIfSame_calls]
  | readCutoff j => cases hj : s.calls j <;> simp [step, hj, hgoto hl]
  | visit j u =>
    cases hj : s.calls j <;> simp only [step, hj]
    cases s.cache u with
    | none => rfl
    | some e => dsimp only; split_ifs <;> simp [hgoto hl]
  | removeEntry j =>
    cases hj : s.calls j <;> simp only [step, hj]
    rw [hgoto hl, removeIfSame_calls]
  | endEvict j => cases hj : s.calls j <;> simp [step, hj, hgoto hl]

lemma next_step {i : CallId} {l : Label} {rest ls : List Label}
    (h : stepsOf i ls = l :: rest) (s : Sys) :
    ∃ t post, t.calls i = s.calls i ∧ stepsOf i post = rest ∧
      ∀ o, o ∈ (step t l).2 ∨ o ∈ Run.outs step (step t l).1 post → o ∈ Run.outs step s ls := by
  obtain ⟨pre, post, rfl, hpre, -, hrest⟩ := List.filter_eq_cons_iff.mp h
  have hframe : ∀ {pre : List Label}, (∀ m ∈ pre, m.call? ≠ some i) → ∀ s : Sys,
      (Run.exec step s pre).calls i = s.calls i := by
    intro pre
    induction pre with
    | nil => intro _ s; rfl
    | cons m pre ih =>
      intro hm s
      rw [Run.exec_cons, ih fun x hx => hm x (by simp [hx])]
      exact calls_of_other (hm m (by simp)) s
  refine ⟨Run.exec step s pre, post, hframe (fun m hm => by simpa using hpre m hm) s, hrest,
    fun o ho => ?_⟩
  rw [Run.outs_append, Run.outs_cons, List.mem_append, List.mem_append]
  exact .inr ho

lemma returned_of_dropping {i : CallId} {s : Sys} {u : String} {e : CachedClipboard} {now : ℤ}
    (hi : s.calls i = .dropping u e now) {ls : List Label} (h : stepsOf i ls = [.drop i]) :
    Returned i (Run.outs step s ls) := by
  obtain ⟨t, post, ht, -, hmem⟩ := next_step h s
  refine ⟨now, none, hmem _ (.inl ?_)⟩
  simp [step, ht, hi]

lemma returned_of_looked {i : CallId} {s : Sys} {u : String} {e : CachedClipboard}
    (hi : s.calls i = .looked u e) {ls : List Label} (h : stepsOf i ls = [.test i, .drop i]) :
    Returned i (Run.outs step s ls) := by
  obtain ⟨t, post, ht, hpost, hmem⟩ := next_step h s
  rw [hi] at ht
  by_cases hexp : ttlMs < t.clock - e.timestamp
  · have hdrop : (step t (.test i)).1.calls i = .dropping u e t.clock := by
      simp [step, ht, hexp, Sys.goto]
    obtain ⟨now, res, hr⟩ := returned_of_dropping hdrop hpost
    exact ⟨now, res, hmem _ (.inr hr)⟩
  · refine ⟨t.clock, some (frameOf e), hmem _ (.inl ?_)⟩
    simp [step, ht, hexp]

/-- A call of `getForDevice` that is given its steps returns, whatever the others do meanwhile. -/
theorem returned_of_idle {i : CallId} {s : Sys} (hi : s.calls i = .idle) {u d : String}
    {ls : List Label} (h : stepsOf i ls = [.lookup i u d, .test i, .drop i]) :
    Returned i (Run.outs step s ls) := by
  obtain ⟨t, post, ht, hpost, hmem⟩ := next_step h s
  rw [hi] at ht
  have hnow : (step t (.lookup i u d)).2 = [.lookedUp i u d, .returned i t.clock none] →
      Returned i (Run.outs step s ls) :=
    fun ho => ⟨t.clock, none, hmem _ (.inl (by simp [ho]))⟩
  cases hc : t.cache u with
  | none => exact hnow (by simp [step, ht, hc])
  | some e =>
    by_cases hd : e.fromDevice = d
    · exact hnow (by simp [step, ht, hc, hd])
    · have hlook : (step t (.lookup i u d)).1.calls i = .looked u e := by
        simp [step, ht, hc, hd, Sys.goto]
      obtain ⟨now, res, hr⟩ := returned_of_looked hlook hpost
      exact ⟨now, res, hmem _ (.inr hr)⟩

/-- **The cache refines the last publish of each user, visible for one hour.** In every
interleaving of the steps of any calls, each `getForDevice` returns what is visible to its device
of the last publish at its lookup, at the time it read, and no step removes an entry that is not
expired at that moment. A call that is given its steps does return. -/
theorem cache_refines (clock : ℤ) (ls : List Label) :
    (∃ a, Run.follow accept empty (Run.outs step (start clock) ls) = some a) ∧
      ∀ pre post, ls = pre ++ post → ∀ i u d, (Run.exec step (start clock) pre).calls i = .idle →
        stepsOf i post = [.lookup i u d, .test i, .drop i] →
        Returned i (Run.outs step (Run.exec step (start clock) pre) post) := by
  constructor
  · have hinit : Sim (start clock) empty := ⟨fun _ => .inl rfl, fun _ => trivial⟩
    obtain ⟨a, ha, -⟩ := Run.simulates sim_step hinit ls
    exact ⟨a, ha⟩
  · intro pre post _ i u d hi hpost
    exact returned_of_idle hi hpost

/-! ### A call without interference -/

lemma store_alone {s : Sys} {i : CallId} (hi : s.calls i = .idle) (u : String)
    (x : Option String) (d : String) :
    (Run.exec step s [.readClock i u x d, .put i]).cache = store s.clock u x d s.cache := by
  simp [step, hi, Sys.goto, store]

/-- `getForDevice` in one go returns and leaves what the sequential reading of it does. -/
lemma getForDevice_alone {s : Sys} {i : CallId} (hi : s.calls i = .idle) (u d : String) :
    (Run.exec step s [.lookup i u d, .test i, .drop i]).cache =
        (getForDevice s.clock u d s.cache).2 ∧
      Obs.returned i s.clock (getForDevice s.clock u d s.cache).1 ∈
        Run.outs step s [.lookup i u d, .test i, .drop i] := by
  cases hc : s.cache u with
  | none => simp [step, hi, hc, getForDevice]
  | some e =>
    by_cases hd : e.fromDevice = d
    · simp [step, hi, hc, hd, getForDevice]
    · by_cases hexp : ttlMs < s.clock - e.timestamp
      · simp [step, hi, hc, hd, hexp, getForDevice, Sys.goto, removeIfSame]
      · simp [step, hi, hc, hd, hexp, getForDevice, Sys.goto, frameOf]

/-- The steps of `evictExpired` over some users. -/
def sweep (i : CallId) (us : List String) : List Label :=
  us.flatMap fun u => [.visit i u, .removeEntry i]

lemma visit_alone {s : Sys} {i : CallId} {cutoff : ℤ} (hi : s.calls i = .evicting cutoff)
    (u : String) :
    (Run.exec step s [.visit i u, .removeEntry i]).calls i = .evicting cutoff ∧
      ∀ v, (Run.exec step s [.visit i u, .removeEntry i]).cache v =
        if v = u then (s.cache v).filter fun e => !decide (e.timestamp < cutoff)
        else s.cache v := by
  cases hc : s.cache u with
  | none =>
    refine ⟨by simp [step, hi, hc], fun v => ?_⟩
    by_cases hv : v = u
    · subst hv; simp [step, hi, hc]
    · simp [step, hi, hc, hv]
  | some e =>
    by_cases hlt : e.timestamp < cutoff
    · refine ⟨by simp [step, hi, hc, hlt, Sys.goto], fun v => ?_⟩
      by_cases hv : v = u
      · subst hv; simp [step, hi, hc, hlt, Sys.goto, removeIfSame, Option.filter_some]
      · simp [step, hi, hc, hlt, hv, Sys.goto, removeIfSame]
    · refine ⟨by simp [step, hi, hc, hlt], fun v => ?_⟩
      by_cases hv : v = u
      · subst hv; simp [step, hi, hc, hlt, Option.filter_some]
      · simp [step, hi, hc, hlt, hv]

lemma sweep_alone {i : CallId} {cutoff : ℤ} (us : List String) {s : Sys}
    (hi : s.calls i = .evicting cutoff) (v : String) :
    (Run.exec step s (sweep i us)).cache v =
      if v ∈ us then (s.cache v).filter fun e => !decide (e.timestamp < cutoff)
      else s.cache v := by
  induction us generalizing s with
  | nil => simp [sweep]
  | cons u us ih =>
    obtain ⟨hcalls, hcache⟩ := visit_alone hi u
    have hsplit : sweep i (u :: us) = [.visit i u, .removeEntry i] ++ sweep i us := by
      simp [sweep]
    rw [hsplit, Run.exec_append, ih hcalls, hcache]
    by_cases hv : v = u
    · by_cases hus : v ∈ us
      · simp [hv, Option.filter_filter]
      · simp [hv]
    · simp [hv]

/-- `evictExpired` in one go, over all users with an entry. -/
lemma evictExpired_alone {s : Sys} {i : CallId} (hi : s.calls i = .idle) {us : List String}
    (hus : ∀ u, s.cache u ≠ none → u ∈ us) :
    (Run.exec step s (.readCutoff i :: sweep i us)).cache = evictExpired s.clock s.cache := by
  have hstart : (step s (.readCutoff i)).1 = s.goto i (.evicting (s.clock - ttlMs)) := by
    simp [step, hi]
  have hcalls : (s.goto i (.evicting (s.clock - ttlMs))).calls i = .evicting (s.clock - ttlMs) := by
    simp [Sys.goto]
  funext v
  rw [Run.exec_cons, hstart, sweep_alone us hcalls v]
  show (if v ∈ us then (s.cache v).filter _ else s.cache v) = (s.cache v).filter _
  by_cases hv : v ∈ us
  · rw [if_pos hv]
  · have hnone : s.cache v = none := by
      by_contra hne
      exact hv (hus v hne)
    rw [if_neg hv, hnone]
    rfl

/-! ### A publish between the lookup and the removal -/

/-- The laptop published long ago. A phone looks that entry up; before the call finds it expired
and removes it, the laptop publishes again. -/
def lateRemoval : List Label :=
  [.readClock 0 "alice" (some "old") "laptop", .put 0, .tick 4000000, .lookup 1 "alice" "phone",
    .readClock 0 "alice" (some "new") "laptop", .test 1, .put 0, .drop 1]

theorem lateRemoval_returns :
    (Run.exec step (start 0) lateRemoval).cache "alice" = some ⟨some "new", "laptop", 4000000⟩ ∧
      Returned 1 (Run.outs step (Run.exec step (start 0) []) lateRemoval) :=
  ⟨by decide, (cache_refines 0 lateRemoval).2 [] _ rfl 1 "alice" "phone" rfl (by decide)⟩

end SyncClipboard.CacheRace
