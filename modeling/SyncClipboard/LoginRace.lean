import SyncClipboard.Auth
import SyncClipboard.Pool
import SyncClipboard.Run

/-!
Concurrent logins.

A request is cut into the steps `tryAcquire`, `authenticate` and `recordFailure` or
`recordSuccess`, and any number of requests take their steps in any order. A request that has been
admitted and has not recorded its failure yet is not in the counter, so the limit holds only as
long as the requests that are admitted leave room for those in flight.
-/

namespace SyncClipboard.LoginRace

open Auth

/-- A request that has been admitted, with the verdict on its password once there is one. -/
structure Call where
  ip : String
  req : LoginRequest
  verdict : Option Bool

structure Sys where
  auth : AuthState
  calls : List Call

inductive Label
  | tryAcquire (now : ℤ) (ip : String) (req : LoginRequest)
  | authenticate (i : ℕ) (salt : ℕ)
  | record (i : ℕ) (now : ℤ) (times : Kind → ℤ)

inductive Obs
  | admitted
  | authenticated (ok : Bool)
  | answered (response : Response)
  deriving DecidableEq

variable (cfg : Settings) (enc : Encoder) (jwt : Jwt)

/-- One step of one request. A label that does not fit where the request stands does nothing. -/
def step (y : Sys) : Label → Sys × List Obs
  | .tryAcquire now ip req =>
    if (notBlank req.username && notBlank req.password && notBlank req.deviceId) = false then
      (y, [.answered .badRequest])
    else
      let a := Auth.tryAcquire cfg.limits now (some req.username) (some ip) y.auth.counters
      if a.1 = false then
        ({ y with auth := { y.auth with counters := a.2 } }, [.answered
          (.refused 429 "RATE_LIMITED" "Too many failed attempts, please try again later")])
      else (⟨{ y.auth with counters := a.2 }, y.calls ++ [⟨ip, req, none⟩]⟩, [.admitted])
  | .authenticate i salt =>
    match y.calls[i]? with
    | some ⟨ip, req, none⟩ =>
      let r := Auth.authenticate enc salt (some req.username) (some req.password) y.auth.users
      (⟨{ y.auth with users := r.2 }, y.calls.set i ⟨ip, req, some r.1⟩⟩, [.authenticated r.1])
    | _ => (y, [])
  | .record i now times =>
    match y.calls[i]? with
    | some ⟨ip, req, some false⟩ =>
      (⟨{ y.auth with
            counters := recordFailure cfg.limits now (some req.username) (some ip) y.auth.counters },
          y.calls.eraseIdx i⟩,
        [.answered (.refused 401 "AUTH_INVALID" "Invalid username or password")])
    | some ⟨ip, req, some true⟩ =>
      (⟨{ y.auth with
            counters := recordSuccess (some req.username) (some ip) y.auth.counters },
          y.calls.eraseIdx i⟩,
        [.answered (.ok (issueTokens cfg jwt times req.username req.deviceId))])
    | _ => (y, [])

/-- The steps of a request that runs alone give what the request gives as a whole. -/
lemma step_alone (st : AuthState) (acquire record : ℤ) (times : Kind → ℤ) (salt : ℕ) (ip : String)
    (req : LoginRequest) :
    Run.exec (step cfg enc jwt) ⟨st, []⟩
        [.tryAcquire acquire ip req, .authenticate 0 salt, .record 0 record times] =
      ⟨(login cfg enc jwt acquire record times salt ip req st).2, []⟩ := by
  simp only [Run.exec_cons, Run.exec_nil]
  unfold login
  split_ifs with hblank
  · simp [step, hblank]
  · cases hacquire : (Auth.tryAcquire cfg.limits acquire (some req.username) (some ip)
      st.counters).1 with
    | false => simp [step, hblank, hacquire]
    | true =>
      cases hauth : (Auth.authenticate enc salt (some req.username) (some req.password)
        st.users).1 <;> simp [step, hblank, hacquire, hauth]

/-! ### Guesses for one pair -/

/-- The label is one of requests for the pair, all with a wrong password, in the time from `t₀` in
which a counter lives that was made then. -/
def Guess (users : Users) (username ip : String) (t₀ : ℤ) : Label → Prop
  | .tryAcquire now ip' req => ip' = ip ∧ req.username = username ∧
      (∀ salt, (Auth.authenticate enc salt (some req.username) (some req.password) users).1 = false) ∧
      t₀ ≤ now ∧ now < t₀ + cfg.limits.window
  | .authenticate _ _ => True
  | .record _ now _ => t₀ ≤ now ∧ now < t₀ + cfg.limits.window

/-- The failures in the counter of the pair. -/
def failures (username ip : String) (y : Sys) : ℕ :=
  ((y.auth.counters (key (some username) (some ip))).map Counter.count).getD 0

/-- The failures in the counter and the requests that may still add to it. -/
def taken (username ip : String) (y : Sys) : ℕ := failures username ip y + y.calls.length

def Admits (y : Sys) : Label → Prop
  | .tryAcquire now ip req =>
    (notBlank req.username && notBlank req.password && notBlank req.deviceId) = true ∧
    (Auth.tryAcquire cfg.limits now (some req.username) (some ip) y.auth.counters).1 = true
  | _ => False

/-- A request is admitted only if there is room for those in flight too. -/
def Room (username ip : String) (y : Sys) (e : Label) : Prop :=
  Admits cfg y e → taken username ip y < cfg.limits.maxAttempts.toNat

instance (y : Sys) : ∀ e, Decidable (Admits cfg y e)
  | .tryAcquire _ _ _ => inferInstanceAs (Decidable (_ ∧ _))
  | .authenticate _ _ => inferInstanceAs (Decidable False)
  | .record _ _ _ => inferInstanceAs (Decidable False)

instance (username ip : String) (y : Sys) (e : Label) : Decidable (Room cfg username ip y e) :=
  inferInstanceAs (Decidable (_ → _))

def Obs.isAuthenticated : Obs → Bool
  | .authenticated _ => true
  | _ => false

/-- The number of requests that have executed `authenticate`. -/
def authenticated (tr : List Obs) : ℕ := tr.countP Obs.isAuthenticated

def Call.unchecked (c : Call) : Bool := c.verdict.isNone

structure Inv (users : Users) (username ip : String) (t₀ : ℤ) (y : Sys) : Prop where
  same : y.auth.users = users
  call : ∀ c ∈ y.calls, c.ip = ip ∧ c.req.username = username ∧ c.verdict ≠ some true ∧
    ∀ salt, (Auth.authenticate enc salt (some c.req.username) (some c.req.password) users).1 = false
  created : ∀ c ∈ y.auth.counters (key (some username) (some ip)), t₀ ≤ c.created

/-- What a step does to the failures and requests that are counted. -/
structure Effect (users : Users) (username ip : String) (t₀ : ℤ) (y : Sys) (admits : Prop)
    (next : Sys × List Obs) : Prop where
  inv : Inv enc users username ip t₀ next.1
  takes : admits → taken username ip next.1 = taken username ip y + 1
  keeps : ¬ admits → taken username ip next.1 = taken username ip y
  checks : authenticated next.2 + next.1.calls.countP Call.unchecked + taken username ip y =
    y.calls.countP Call.unchecked + taken username ip next.1

variable {cfg enc jwt} {users : Users} {username ip : String} {t₀ : ℤ} {y : Sys}

lemma authenticate_users {salt : ℕ} {u password : String}
    (h : (Auth.authenticate enc salt (some u) (some password) users).1 = false) :
    (Auth.authenticate enc salt (some u) (some password) users).2 = users := by
  unfold Auth.authenticate at h ⊢
  dsimp only at h ⊢
  split at h
  · rfl
  · split_ifs at h ⊢ <;> simp_all

/-- Within the life of the counter a look at it leaves its count as it is. -/
lemma look_count (h : Inv enc users username ip t₀ y) {now : ℤ}
    (hnow : t₀ ≤ now ∧ now < t₀ + cfg.limits.window) :
    (look cfg.limits now (y.auth.counters (key (some username) (some ip)))).count =
        failures username ip y ∧
      t₀ ≤ (look cfg.limits now (y.auth.counters (key (some username) (some ip)))).created := by
  unfold failures
  cases hc : y.auth.counters (key (some username) (some ip)) with
  | none => exact ⟨rfl, hnow.1⟩
  | some c =>
    have hcreated := h.created c hc
    rw [look_of_live (by omega)]
    exact ⟨rfl, hcreated⟩

lemma effect_none (h : Inv enc users username ip t₀ y) {admits : Prop} (hadmits : ¬ admits)
    {os : List Obs} (hos : authenticated os = 0) :
    Effect enc users username ip t₀ y admits (y, os) :=
  ⟨h, fun ha => absurd ha hadmits, fun _ => rfl, by rw [hos, Nat.zero_add]⟩

lemma inv_look (h : Inv enc users username ip t₀ y) {now : ℤ}
    (hnow : t₀ ≤ now ∧ now < t₀ + cfg.limits.window) :
    Inv enc users username ip t₀ { y with auth := { y.auth with
        counters := (lookup cfg.limits now (key (some username) (some ip)) y.auth.counters).2 } } ∧
      failures username ip { y with auth := { y.auth with
        counters := (lookup cfg.limits now (key (some username) (some ip)) y.auth.counters).2 } } =
      failures username ip y := by
  obtain ⟨hcount, hcreated⟩ := look_count h hnow
  rw [lookup_eq]
  refine ⟨⟨h.same, h.call, ?_⟩, ?_⟩
  · dsimp only
    rw [Function.update_self]
    rintro c ⟨⟩
    exact hcreated
  · rw [← hcount]
    simp [failures]

lemma effect_tryAcquire (h : Inv enc users username ip t₀ y) {now : ℤ} {ip' : String}
    {req : LoginRequest} (hg : Guess cfg enc users username ip t₀ (.tryAcquire now ip' req)) :
    Effect enc users username ip t₀ y (Admits cfg y (.tryAcquire now ip' req))
      (step cfg enc jwt y (.tryAcquire now ip' req)) := by
  obtain ⟨rfl, rfl, hwrong, hnow⟩ := hg
  obtain ⟨hinv, hfailures⟩ := inv_look h hnow
  simp only [step, Admits]
  split_ifs with hblank hacquire
  · exact effect_none h (by simp [hblank]) rfl
  · have heq : taken req.username ip' { y with auth := { y.auth with counters := (Auth.tryAcquire
        cfg.limits now (some req.username) (some ip') y.auth.counters).2 } } =
        taken req.username ip' y := congrArg (· + y.calls.length) hfailures
    refine ⟨hinv, fun ha => by simp [hacquire] at ha, fun _ => heq, ?_⟩
    dsimp only
    rw [heq]
    simp [authenticated, Obs.isAuthenticated]
  · have hadmits : (notBlank req.username && notBlank req.password && notBlank req.deviceId) = true ∧
        (Auth.tryAcquire cfg.limits now (some req.username) (some ip') y.auth.counters).1 = true :=
      ⟨(Bool.not_eq_false _).mp hblank, (Bool.not_eq_false _).mp hacquire⟩
    have htaken : taken req.username ip' ⟨{ y.auth with counters := (Auth.tryAcquire cfg.limits now
        (some req.username) (some ip') y.auth.counters).2 }, y.calls ++ [⟨ip', req, none⟩]⟩ =
        taken req.username ip' y + 1 := by
      unfold taken
      rw [List.length_append, ← hfailures]
      rfl
    refine ⟨⟨hinv.same, fun c hc => ?_, hinv.created⟩, fun _ => htaken,
      fun hn => absurd hadmits hn, ?_⟩
    · rcases List.mem_append.mp hc with hc | hc
      · exact h.call c hc
      · rw [List.mem_singleton.mp hc]
        exact ⟨rfl, rfl, by simp, hwrong⟩
    · dsimp only
      rw [htaken, List.countP_append]
      simp [authenticated, Obs.isAuthenticated, Call.unchecked]
      omega

lemma effect_authenticate (h : Inv enc users username ip t₀ y) (i salt : ℕ) :
    Effect enc users username ip t₀ y (Admits cfg y (.authenticate i salt))
      (step cfg enc jwt y (.authenticate i salt)) := by
  unfold step
  dsimp only
  split
  · next ip' req hi =>
    have hcall := h.call _ (List.mem_of_getElem? hi)
    have hwrong := hcall.2.2.2 salt
    have hlen : (y.calls.set i ⟨ip', req, some false⟩).length = y.calls.length :=
      List.length_set
    have hcount := Pool.countP_set hi ⟨ip', req, some false⟩ Call.unchecked
    rw [h.same, hwrong, authenticate_users hwrong]
    have htaken : taken username ip ⟨⟨users, y.auth.counters⟩,
        y.calls.set i ⟨ip', req, some false⟩⟩ = taken username ip y := by
      simp [taken, failures]
    refine ⟨⟨rfl, fun c hc => ?_, h.created⟩, False.elim, fun _ => htaken, ?_⟩
    · rcases Pool.mem_of_mem_set hi hc with rfl | hc
      · exact ⟨hcall.1, hcall.2.1, by simp, hcall.2.2.2⟩
      · exact h.call c hc
    · dsimp only
      rw [htaken]
      simp [authenticated, Obs.isAuthenticated, Call.unchecked] at hcount ⊢
      omega
  · exact effect_none h id rfl

lemma effect_record (h : Inv enc users username ip t₀ y) (i : ℕ) {now : ℤ} (times : Kind → ℤ)
    (hnow : t₀ ≤ now ∧ now < t₀ + cfg.limits.window) :
    Effect enc users username ip t₀ y (Admits cfg y (.record i now times))
      (step cfg enc jwt y (.record i now times)) := by
  unfold step
  dsimp only
  split
  · next ip' req hi =>
    obtain ⟨rfl, rfl, -, -⟩ := h.call _ (List.mem_of_getElem? hi)
    obtain ⟨hcount, hcreated⟩ := look_count h hnow
    have hlen := Pool.length_eraseIdx hi
    have hunchecked := Pool.countP_eraseIdx hi Call.unchecked
    have htaken : taken req.username ip' ⟨{ y.auth with counters := (recordFailure cfg.limits now
        (some req.username) (some ip') y.auth.counters) }, y.calls.eraseIdx i⟩ =
        taken req.username ip' y := by
      unfold taken
      rw [← hcount, ← hlen]
      simp [failures, recordFailure, lookup_eq]
      omega
    refine ⟨⟨h.same, fun c hc => h.call c (List.mem_of_mem_eraseIdx hc), ?_⟩, False.elim,
      fun _ => htaken, ?_⟩
    · simp only [recordFailure, lookup_eq, Function.update_self]
      rintro c ⟨⟩
      exact hcreated
    · dsimp only
      rw [htaken]
      simp [authenticated, Obs.isAuthenticated, Call.unchecked] at hunchecked ⊢
      omega
  · next ip' req hi => exact absurd rfl (h.call _ (List.mem_of_getElem? hi)).2.2.1
  · exact effect_none h id rfl

variable (jwt) in
lemma effect_step (h : Inv enc users username ip t₀ y) {e : Label}
    (hg : Guess cfg enc users username ip t₀ e) :
    Effect enc users username ip t₀ y (Admits cfg y e) (step cfg enc jwt y e) := by
  cases e with
  | tryAcquire now ip' req => exact effect_tryAcquire h hg
  | authenticate i salt => exact effect_authenticate h i salt
  | record i now times => exact effect_record h i times hg

/-! ### Every run -/

def start (users : Users) : Sys := ⟨⟨users, fun _ => none⟩, []⟩

lemma inv_start (username ip : String) (t₀ : ℤ) : Inv enc users username ip t₀ (start users) :=
  ⟨rfl, by simp [start], by simp [start]⟩

variable (jwt) in
/-- Every request that has been admitted is checked, or still in flight. -/
lemma authenticated_add {es : List Label}
    (hes : ∀ e ∈ es, Guess cfg enc users username ip t₀ e) :
    authenticated (Run.outs (step cfg enc jwt) (start users) es) +
        (Run.exec (step cfg enc jwt) (start users) es).calls.countP Call.unchecked =
      taken username ip (Run.exec (step cfg enc jwt) (start users) es) := by
  have hstart : Inv enc users username ip t₀ (start users) ∧
      authenticated [] + (start users).calls.countP Call.unchecked =
        taken username ip (start users) :=
    ⟨inv_start username ip t₀, rfl⟩
  have hrun := Run.exec_outs_inv
    (I := fun y tr => Inv enc users username ip t₀ y ∧
      authenticated tr + y.calls.countP Call.unchecked = taken username ip y)
    (fun y tr e hg ⟨hinv, heq⟩ => by
      have heffect := effect_step jwt hinv hg
      have hchecks := heffect.checks
      refine ⟨heffect.inv, ?_⟩
      simp only [authenticated, List.countP_append] at heq hchecks ⊢
      omega)
    hstart hes
  exact hrun.2

/-- **The limit under concurrency.** If every request that is admitted leaves room for those in
flight, at most the configured number execute `authenticate`; and once no request is left between
the two steps, this is the only way to stay within it. -/
theorem authenticated_le_iff (users : Users) (username ip : String) (t₀ : ℤ) (es : List Label)
    (hes : ∀ e ∈ es, Guess cfg enc users username ip t₀ e) :
    (Run.Steps (step cfg enc jwt) (Room cfg username ip) (start users) es →
      authenticated (Run.outs (step cfg enc jwt) (start users) es) ≤
        cfg.limits.maxAttempts.toNat) ∧
    ((Run.exec (step cfg enc jwt) (start users) es).calls.countP Call.unchecked = 0 →
      authenticated (Run.outs (step cfg enc jwt) (start users) es) ≤
        cfg.limits.maxAttempts.toNat →
      Run.Steps (step cfg enc jwt) (Room cfg username ip) (start users) es) := by
  have hbudget : Run.Steps (step cfg enc jwt) (Room cfg username ip) (start users) es ↔
      taken username ip (Run.exec (step cfg enc jwt) (start users) es) ≤
        cfg.limits.maxAttempts.toNat :=
    Run.steps_iff_le_budget
      (fun y e hinv hg =>
        have heffect := effect_step jwt hinv hg
        ⟨heffect.inv, heffect.takes, heffect.keeps⟩)
      (inv_start username ip t₀) (Nat.zero_le _) hes
  have hsum := authenticated_add jwt hes
  constructor
  · intro hroom
    have hle := hbudget.mp hroom
    omega
  · intro hdone hle
    refine hbudget.mpr ?_
    omega

/-! Guesses for a name that has no account. -/

def sampleSettings : Settings := ⟨⟨5, 60⟩, fun _ => 1000⟩

def sampleEncoder : Encoder := ⟨fun password stored => decide (stored = password), fun _ s => s⟩

def sampleJwt : Jwt := ⟨Claims.subject, fun _ => none⟩

def guess : Label := .tryAcquire 0 "10.0.0.1" ⟨"al", "guess", "pc"⟩

lemma guess_fits : Guess sampleSettings sampleEncoder (fun _ => none) "al" "10.0.0.1" 0 guess :=
  ⟨rfl, rfl, fun _ => rfl, by decide⟩

def inTurn : List Label :=
  [guess, .authenticate 0 0, .record 0 1 fun _ => 0, guess, guess, .authenticate 1 0]

theorem authenticated_inTurn :
    Run.Steps (step sampleSettings sampleEncoder sampleJwt) (Room sampleSettings "al" "10.0.0.1")
      (start fun _ => none) inTurn ∧
    authenticated (Run.outs (step sampleSettings sampleEncoder sampleJwt) (start fun _ => none)
      inTurn) ≤ 5 := by
  have hroom : Run.Steps (step sampleSettings sampleEncoder sampleJwt)
      (Room sampleSettings "al" "10.0.0.1") (start fun _ => none) inTurn := by
    decide +kernel
  have hfits : ∀ e ∈ inTurn,
      Guess sampleSettings sampleEncoder (fun _ => none) "al" "10.0.0.1" 0 e := by
    intro e he
    simp only [inTurn, List.mem_cons, List.not_mem_nil, or_false] at he
    rcases he with rfl | rfl | rfl | rfl | rfl | rfl
    exacts [guess_fits, trivial, ⟨by decide, by decide⟩, guess_fits, guess_fits, trivial]
  exact ⟨hroom, (authenticated_le_iff (fun _ => none) "al" "10.0.0.1" 0 inTurn hfits).1 hroom⟩

/-- Six requests that are all admitted before the first of them has failed. -/
def atOnce : List Label := List.replicate 6 guess ++ (List.range 6).map (.authenticate · 0)

theorem authenticated_atOnce :
    (∀ e ∈ atOnce, Guess sampleSettings sampleEncoder (fun _ => none) "al" "10.0.0.1" 0 e) ∧
    ¬ authenticated (Run.outs (step sampleSettings sampleEncoder sampleJwt) (start fun _ => none)
      atOnce) ≤ sampleSettings.limits.maxAttempts.toNat := by
  refine ⟨fun e he => ?_, by decide +kernel⟩
  rcases List.mem_append.mp he with he | he
  · rw [List.eq_of_mem_replicate he]
    exact guess_fits
  · obtain ⟨i, -, rfl⟩ := List.mem_map.mp he
    trivial

end SyncClipboard.LoginRace
