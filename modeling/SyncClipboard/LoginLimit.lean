import SyncClipboard.Auth
import SyncClipboard.Run
import Mathlib.Data.List.Induction

/-!
The limit on failed logins, for requests that come one after the other.

The counter of a user and address lives for one window from the time it was made, so it may be
replaced while the failures it has counted are still recent. Where no counter is replaced that
early, the limit holds over every interval that is shorter than the window.
-/

namespace SyncClipboard.LoginLimit

open Auth

/-- A login request. The clock of the limit is read when it starts and, after the password has
been checked, once more. -/
structure Request where
  acquire : ℤ
  record : ℤ
  times : Kind → ℤ
  salt : ℕ
  ip : String
  req : LoginRequest
  acquire_le : acquire ≤ record
  ip_plain : '@' ∉ ip.toList

structure Entry where
  request : Request
  response : Response

/-- The password was checked and was wrong. -/
def Entry.failed (o : Entry) : Bool :=
  match o.response with
  | .refused 401 _ _ => true
  | _ => false

def Entry.passed (o : Entry) : Bool :=
  match o.response with
  | .ok _ => true
  | _ => false

def Request.of (username ip : String) (r : Request) : Bool :=
  decide (r.req.username = username) && decide (r.ip = ip)

def Request.key (r : Request) : String := Auth.key (some r.req.username) (some r.ip)

def Entry.within (a b : ℤ) (o : Entry) : Bool :=
  decide (a ≤ o.request.acquire) && decide (o.request.record ≤ b)

/-- A failed request of the pair in the interval. -/
def Entry.counts (username ip : String) (a b : ℤ) (o : Entry) : Bool :=
  o.request.of username ip && o.within a b && o.failed

/-- The limit over any interval that is shorter than the window and has no success in it. -/
def RollingLimit (lim : Limits) (username ip : String) (tr : List Entry) : Prop :=
  ∀ a b, b - a < lim.window →
    (∀ o ∈ tr, o.request.of username ip = true → o.within a b = true → o.passed = false) →
    (tr.filter (Entry.counts username ip a b)).length ≤ lim.maxAttempts.toNat

/-- The failed requests of a pair after its last successful one. -/
def since (username ip : String) (tr : List Entry) : List Entry :=
  tr.foldl (fun l o =>
    if o.request.of username ip = false then l
    else if o.passed then []
    else if o.failed then l ++ [o]
    else l) []

section Machine

variable (cfg : Settings) (enc : Encoder) (jwt : Jwt)

def step (s : AuthState) (r : Request) : AuthState × List Entry :=
  let p := login cfg enc jwt r.acquire r.record r.times r.salt r.ip r.req s
  (p.2, [⟨r, p.1⟩])

/-- The times at which a request looks its counter up. -/
def readings (s : AuthState) (r : Request) : List ℤ :=
  if (notBlank r.req.username && notBlank r.req.password && notBlank r.req.deviceId) = false then []
  else if (tryAcquire cfg.limits r.acquire (some r.req.username) (some r.ip) s.counters).1 = true ∧
      (authenticate enc r.salt (some r.req.username) (some r.req.password) s.users).1 = false then
    [r.acquire, r.record]
  else [r.acquire]

/-- The request starts when all earlier ones have ended. -/
def InOrder (tr : List Entry) (r : Request) : Prop := ∀ o ∈ tr, o.request.record ≤ r.acquire

/-- Where the request finds that the counter of its pair has expired, the failed requests of the
pair since its last success began a window ago or earlier. -/
def Settled (s : AuthState) (tr : List Entry) (r : Request) : Prop :=
  ∀ t ∈ readings cfg enc s r, ∀ c ∈ s.counters r.key, c.created + cfg.limits.window ≤ t →
    ∀ o ∈ since r.req.username r.ip tr, o.request.acquire + cfg.limits.window ≤ t

instance (tr : List Entry) (r : Request) : Decidable (InOrder tr r) :=
  inferInstanceAs (Decidable (∀ o ∈ tr, _))

instance (s : AuthState) (tr : List Entry) (r : Request) : Decidable (Settled cfg enc s tr r) :=
  inferInstanceAs (Decidable (∀ t ∈ readings cfg enc s r, ∀ c ∈ s.counters r.key, _ → ∀ o ∈ _, _))

end Machine

variable {cfg : Settings} {enc : Encoder} {jwt : Jwt}

/-! ### What a request does -/

/-- The response to a request and the counters it leaves. -/
inductive Did (cfg : Settings) (enc : Encoder) (s : AuthState) (r : Request) :
    Response → Counters → Prop
  | blank : Did cfg enc s r .badRequest s.counters
  | limited (hread : r.acquire ∈ readings cfg enc s r) :
      Did cfg enc s r
        (.refused 429 "RATE_LIMITED" "Too many failed attempts, please try again later")
        (Function.update s.counters r.key (some (look cfg.limits r.acquire (s.counters r.key))))
  | failed {c c' : Counter} (hread : ∀ t ∈ [r.acquire, r.record], t ∈ readings cfg enc s r)
      (hc : c = look cfg.limits r.acquire (s.counters r.key))
      (hlt : (c.count : ℤ) < cfg.limits.maxAttempts)
      (hc' : c' = look cfg.limits r.record (some c)) :
      Did cfg enc s r (.refused 401 "AUTH_INVALID" "Invalid username or password")
        (Function.update s.counters r.key (some ⟨c'.created, c'.count + 1⟩))
  | passed (pair : TokenPair) : Did cfg enc s r (.ok pair) (Function.update s.counters r.key none)

lemma did (cfg : Settings) (enc : Encoder) (jwt : Jwt) (s : AuthState) (r : Request) :
    ∃ o, (step cfg enc jwt s r).2 = [⟨r, o⟩] ∧ Did cfg enc s r o (step cfg enc jwt s r).1.counters := by
  refine ⟨_, rfl, ?_⟩
  simp only [step]
  unfold login tryAcquire recordFailure recordSuccess
  simp only [lookup_eq]
  split_ifs with hblank hadmit hauth
  · exact .blank
  · refine .limited ?_
    unfold readings
    split_ifs <;> simp
  · have hread : readings cfg enc s r = [r.acquire, r.record] := by
      unfold readings
      rw [if_neg hblank, if_pos ⟨by simpa [tryAcquire, lookup_eq] using hadmit, hauth⟩]
    have hlt : ((look cfg.limits r.acquire (s.counters r.key)).count : ℤ) <
        cfg.limits.maxAttempts := by
      simpa [Request.key] using hadmit
    have hdid : Did cfg enc s r _ _ := .failed (by simp [hread]) rfl hlt rfl
    simpa [Request.key] using hdid
  · have hdid : Did cfg enc s r _ _ :=
      .passed (issueTokens cfg jwt r.times r.req.username r.req.deviceId)
    simpa [Request.key] using hdid

/-! ### The failures since the last success -/

variable {username ip : String}

lemma since_append_of_other {tr : List Entry} {o : Entry} (h : o.request.of username ip = false) :
    since username ip (tr ++ [o]) = since username ip tr := by
  simp [since, h]

lemma since_append {tr : List Entry} {o : Entry} (h : o.request.of username ip = true) :
    since username ip (tr ++ [o]) =
      if o.passed then [] else if o.failed then since username ip tr ++ [o]
      else since username ip tr := by
  simp [since, h]

/-- Requests in order. -/
def Ordered (tr : List Entry) : Prop :=
  tr.Pairwise fun o o' => o.request.record ≤ o'.request.acquire

/-- Of the failures in an interval that has no success in it, none is before the last success. -/
lemma filter_since {tr : List Entry} {a b : ℤ} (hord : Ordered tr)
    (hb : ∀ o ∈ tr, o.request.record ≤ b)
    (hpass : ∀ o ∈ tr, o.request.of username ip = true → o.within a b = true → o.passed = false) :
    tr.filter (Entry.counts username ip a b) =
      (since username ip tr).filter (Entry.counts username ip a b) := by
  induction tr using List.reverseRecOn with
  | nil => rfl
  | append_singleton tr o ih =>
    obtain ⟨hord', -, hlast⟩ := List.pairwise_append.mp hord
    have ih' := ih hord' (fun x hx => hb x (by simp [hx])) fun x hx => hpass x (by simp [hx])
    rw [List.filter_append, ih']
    by_cases hof : o.request.of username ip = false
    · rw [since_append_of_other hof]
      simp [Entry.counts, hof]
    · rw [Bool.not_eq_false] at hof
      rw [since_append hof]
      cases hp : o.passed with
      | true =>
        -- a success of the pair is outside the interval, so everything before it is too
        have hout : o.within a b = false := by
          by_contra hin
          rw [Bool.not_eq_false] at hin
          simp [hpass o (by simp) hof hin] at hp
        have hnone : ∀ x ∈ tr, x.within a b = false := by
          intro x hx
          have hxo := hlast x hx o (by simp)
          have hob := hb o (by simp)
          have hx' := x.request.acquire_le
          simp only [Entry.within, Bool.and_eq_false_iff, decide_eq_false_iff_not] at hout ⊢
          omega
        rw [if_pos rfl, ← ih', List.filter_nil, List.append_eq_nil_iff]
        constructor
        · rw [List.filter_eq_nil_iff]
          intro x hx
          simp [Entry.counts, hnone x hx]
        · simp [Entry.counts, hout]
      | false =>
        rw [if_neg (by simp)]
        cases hf : o.failed with
        | true => rw [if_pos rfl, List.filter_append]
        | false => simp [Entry.counts, hf]

/-! ### What a counter accounts for -/

/-- The failures the counter has counted, after those that began a window before it was made. -/
structure Tally (lim : Limits) (l : List Entry) (c : Counter) : Prop where
  split : ∃ old new, l = old ++ new ∧ new.length = c.count ∧
    ∀ o ∈ old, o.request.acquire + lim.window ≤ c.created
  le_max : c.count ≤ lim.maxAttempts.toNat

/-- There is no counter without failures, and no failures without a counter. -/
def Accounts (lim : Limits) (l : List Entry) : Option Counter → Prop
  | none => l = []
  | some c => Tally lim l c

lemma tally_new {lim : Limits} {l : List Entry} {t : ℤ}
    (h : ∀ o ∈ l, o.request.acquire + lim.window ≤ t) : Tally lim l ⟨t, 0⟩ :=
  ⟨⟨l, [], by simp, rfl, h⟩, Nat.zero_le _⟩

lemma Accounts.look {lim : Limits} {l : List Entry} {held : Option Counter} {t : ℤ}
    (h : Accounts lim l held)
    (hsettled : ∀ c ∈ held, c.created + lim.window ≤ t →
      ∀ o ∈ l, o.request.acquire + lim.window ≤ t) :
    Tally lim l (look lim t held) := by
  cases held with
  | none =>
    obtain rfl : l = [] := h
    exact tally_new (by simp)
  | some c =>
    by_cases hlive : t < c.created + lim.window
    · rw [look_of_live hlive]
      exact h
    · rw [look_of_expired (Int.not_lt.mp hlive)]
      exact tally_new (hsettled c rfl (Int.not_lt.mp hlive))

/-- The second look of a request that fails. -/
lemma Accounts.look_again {lim : Limits} {l : List Entry} {held : Option Counter} {t t' : ℤ}
    (h : Accounts lim l held) (hle : t ≤ t')
    (hsettled : ∀ x ∈ [t, t'], ∀ c ∈ held, c.created + lim.window ≤ x →
      ∀ o ∈ l, o.request.acquire + lim.window ≤ x) :
    Tally lim l (Auth.look lim t' (some (Auth.look lim t held))) := by
  have hfirst : Accounts lim l (some (Auth.look lim t held)) := h.look (hsettled t (by simp))
  refine hfirst.look fun c hc hexp o ho => ?_
  obtain rfl : Auth.look lim t held = c := by simpa using hc
  cases held with
  | none =>
    obtain rfl : l = [] := h
    simp at ho
  | some c₀ =>
    by_cases hlive : t < c₀.created + lim.window
    · rw [look_of_live hlive] at hexp
      exact hsettled t' (by simp) c₀ rfl hexp o ho
    · have hold := hsettled t (by simp) c₀ rfl (Int.not_lt.mp hlive) o ho
      omega

lemma Tally.count {lim : Limits} {l : List Entry} {c : Counter} (h : Tally lim l c) (o : Entry)
    (hlt : (c.count : ℤ) < lim.maxAttempts) : Tally lim (l ++ [o]) ⟨c.created, c.count + 1⟩ := by
  obtain ⟨old, new, rfl, hlen, hold⟩ := h.split
  refine ⟨⟨old, new ++ [o], by simp, by simp [hlen], hold⟩, ?_⟩
  dsimp only
  omega

/-- The failures in an interval up to the present are those the counter has counted. -/
lemma Tally.filter_le {lim : Limits} {l : List Entry} {c : Counter} (h : Tally lim l c) {a b : ℤ}
    (hab : b - a < lim.window) (hc : c.created ≤ b) :
    (l.filter (Entry.counts username ip a b)).length ≤ lim.maxAttempts.toNat := by
  obtain ⟨old, new, rfl, hlen, hold⟩ := h.split
  have hnone : old.filter (Entry.counts username ip a b) = [] := by
    rw [List.filter_eq_nil_iff]
    intro o ho hcounts
    have hbefore := hold o ho
    simp only [Entry.counts, Entry.within, Bool.and_eq_true, decide_eq_true_eq] at hcounts
    omega
  rw [List.filter_append, hnone, List.nil_append]
  calc (new.filter (Entry.counts username ip a b)).length
      ≤ new.length := List.length_filter_le _ _
    _ = c.count := hlen
    _ ≤ lim.maxAttempts.toNat := h.le_max

/-! ### The invariant -/

structure Inv (lim : Limits) (username ip : String) (s : AuthState) (tr : List Entry) : Prop where
  ordered : Ordered tr
  accounts : Accounts lim (since username ip tr) (s.counters (key (some username) (some ip)))
  made : ∀ c ∈ s.counters (key (some username) (some ip)), ∀ t,
    (∀ o ∈ tr, o.request.record ≤ t) → c.created ≤ t
  limit : RollingLimit lim username ip tr

lemma look_created_le {lim : Limits} {t t' : ℤ} {held : Option Counter} (hle : t ≤ t')
    (h : ∀ c ∈ held, c.created ≤ t') : (look lim t held).created ≤ t' := by
  cases held with
  | none => exact hle
  | some c =>
    by_cases hlive : t < c.created + lim.window
    · rw [look_of_live hlive]
      exact h c rfl
    · rw [look_of_expired (Int.not_lt.mp hlive)]
      exact hle

lemma ordered_append {tr : List Entry} (h : Ordered tr) {o : Entry} (ho : InOrder tr o.request) :
    Ordered (tr ++ [o]) := by
  refine List.pairwise_append.mpr ⟨h, List.pairwise_singleton _ _, fun x hx y hy => ?_⟩
  rw [List.mem_singleton.mp hy]
  exact ho x hx

/-- The limit after one more request: only a failure of the pair matters. -/
lemma limit_append {lim : Limits} {tr : List Entry} {o : Entry} (h : RollingLimit lim username ip tr)
    (hfail : o.request.of username ip = true → o.failed = true → ∀ a b, b - a < lim.window →
      o.within a b = true →
      (∀ x ∈ tr, x.request.of username ip = true → x.within a b = true → x.passed = false) →
      ((tr ++ [o]).filter (Entry.counts username ip a b)).length ≤ lim.maxAttempts.toNat) :
    RollingLimit lim username ip (tr ++ [o]) := by
  intro a b hab hpass
  have hpass' : ∀ x ∈ tr, x.request.of username ip = true → x.within a b = true →
      x.passed = false := fun x hx => hpass x (by simp [hx])
  by_cases hcounts : Entry.counts username ip a b o = true
  · have hparts := hcounts
    simp only [Entry.counts, Bool.and_eq_true] at hparts
    exact hfail hparts.1.1 hparts.2 a b hab hparts.1.2 hpass'
  · rw [List.filter_append, List.filter_cons_of_neg hcounts, List.filter_nil, List.append_nil]
    exact h a b hab hpass'

lemma Did.counters_of_ne {s : AuthState} {r : Request} {response : Response} {counters : Counters}
    (h : Did cfg enc s r response counters) {k : String} (hk : k ≠ r.key) :
    counters k = s.counters k := by
  cases h with
  | blank => rfl
  | limited hread => exact Function.update_of_ne hk _ _
  | failed hread hc hlt hc' => exact Function.update_of_ne hk _ _
  | passed pair => exact Function.update_of_ne hk _ _

lemma inv_other {s s' : AuthState} {tr : List Entry} {r : Request} {response : Response}
    (h : Inv cfg.limits username ip s tr) (hip : '@' ∉ ip.toList)
    (hof : r.of username ip = false) (hdid : Did cfg enc s r response s'.counters)
    (hord : InOrder tr r) : Inv cfg.limits username ip s' (tr ++ [⟨r, response⟩]) := by
  have hk : key (some username) (some ip) ≠ r.key := by
    intro hk
    obtain ⟨hu, hi⟩ := key_inj hip r.ip_plain hk
    simp [Request.of, ← hu, ← hi] at hof
  have hsame := hdid.counters_of_ne hk
  refine ⟨ordered_append h.ordered hord, ?_, ?_, limit_append h.limit fun hof' => ?_⟩
  · rw [hsame, since_append_of_other hof]
    exact h.accounts
  · rw [hsame]
    intro c hc t ht
    exact h.made c hc t fun o ho => ht o (by simp [ho])
  · simp [hof] at hof'

/-- What the counter of the pair accounts for after a request of the pair. -/
lemma Did.accounts {s : AuthState} {r : Request} {response : Response} {counters : Counters}
    {tr : List Entry} (hdid : Did cfg enc s r response counters) (hset : Settled cfg enc s tr r)
    (h : Accounts cfg.limits (since r.req.username r.ip tr) (s.counters r.key)) :
    Accounts cfg.limits (since r.req.username r.ip (tr ++ [⟨r, response⟩])) (counters r.key) := by
  have hof : r.of r.req.username r.ip = true := by simp [Request.of]
  have hsince : ∀ o : Entry, o.request = r → since r.req.username r.ip (tr ++ [o]) = _ :=
    fun o ho => since_append (by rw [ho, hof])
  rw [hsince _ rfl]
  cases hdid with
  | blank => exact h
  | limited hread =>
    rw [Function.update_self]
    exact h.look (hset _ hread)
  | @failed c c' hread hc hlt hc' =>
    have htally : Tally cfg.limits (since r.req.username r.ip tr) c' := by
      rw [hc', hc]
      exact h.look_again r.acquire_le fun t ht => hset t (hread t ht)
    have hlt' : (c'.count : ℤ) < cfg.limits.maxAttempts := by
      by_cases hlive : r.record < c.created + cfg.limits.window
      · rw [hc', look_of_live hlive]
        exact hlt
      · rw [hc', look_of_expired (Int.not_lt.mp hlive)]
        dsimp only
        omega
    rw [Function.update_self]
    exact htally.count _ hlt'
  | passed pair =>
    rw [Function.update_self]
    rfl

lemma Did.made {s : AuthState} {r : Request} {response : Response} {counters : Counters}
    (hdid : Did cfg enc s r response counters)
    (h : ∀ c ∈ s.counters r.key, c.created ≤ r.acquire) :
    ∀ c ∈ counters r.key, c.created ≤ r.record := by
  have hle := r.acquire_le
  have hfirst : (look cfg.limits r.acquire (s.counters r.key)).created ≤ r.acquire :=
    look_created_le (Int.le_refl _) h
  cases hdid with
  | blank =>
    intro c hc
    exact Int.le_trans (h c hc) hle
  | limited hread =>
    rw [Function.update_self]
    rintro c ⟨⟩
    exact Int.le_trans hfirst hle
  | failed hread hc hlt hc' =>
    rw [Function.update_self]
    rintro c ⟨⟩
    rw [hc', hc]
    refine look_created_le (Int.le_refl _) fun c hc => ?_
    cases hc
    exact Int.le_trans hfirst hle
  | passed pair => simp

lemma inv_own {s s' : AuthState} {tr : List Entry} {r : Request} {response : Response}
    (h : Inv cfg.limits r.req.username r.ip s tr) (hdid : Did cfg enc s r response s'.counters)
    (hord : InOrder tr r) (hset : Settled cfg enc s tr r) :
    Inv cfg.limits r.req.username r.ip s' (tr ++ [⟨r, response⟩]) := by
  have haccounts := hdid.accounts hset h.accounts
  have hmade := hdid.made fun c hc => h.made c hc _ hord
  have hordered : Ordered (tr ++ [⟨r, response⟩]) := ordered_append h.ordered hord
  refine ⟨hordered, haccounts, fun c hc t ht => ?_, limit_append h.limit ?_⟩
  · exact Int.le_trans (hmade c hc) (ht ⟨r, response⟩ (by simp))
  · intro hof hfail a b hab hin hpass
    have hb : r.record ≤ b := by
      simp only [Entry.within, Bool.and_eq_true, decide_eq_true_eq] at hin
      exact hin.2
    have hnot : Entry.passed ⟨r, response⟩ = false := by
      cases response <;> simp_all [Entry.failed, Entry.passed]
    rw [filter_since hordered]
    · cases hc : s'.counters r.key with
      | none =>
        -- the failure itself would have to be missing
        rw [hc] at haccounts
        simp [Accounts, since_append hof, hnot, hfail] at haccounts
      | some c =>
        rw [hc] at haccounts
        exact Tally.filter_le haccounts hab (Int.le_trans (hmade c hc) hb)
    · intro o ho
      rcases List.mem_append.mp ho with ho | ho
      · have hbefore := hord o ho
        have hle := r.acquire_le
        omega
      · rw [List.mem_singleton.mp ho]
        exact hb
    · intro o ho hof' hin'
      rcases List.mem_append.mp ho with ho | ho
      · exact hpass o ho hof' hin'
      · rw [List.mem_singleton.mp ho]
        exact hnot

lemma inv_step {s : AuthState} {tr : List Entry} {r : Request} (hip : '@' ∉ ip.toList)
    (hord : InOrder tr r) (hset : Settled cfg enc s tr r) (h : Inv cfg.limits username ip s tr) :
    Inv cfg.limits username ip (step cfg enc jwt s r).1 (tr ++ (step cfg enc jwt s r).2) := by
  obtain ⟨response, heq, hdid⟩ := did cfg enc jwt s r
  rw [heq]
  cases hof : r.of username ip with
  | false => exact inv_other h hip hof hdid hord
  | true =>
    obtain ⟨rfl, rfl⟩ : r.req.username = username ∧ r.ip = ip := by simpa [Request.of] using hof
    exact inv_own h hdid hord hset

lemma inv_init (users : Users) (lim : Limits) :
    Inv lim username ip ⟨users, fun _ => none⟩ [] where
  ordered := List.Pairwise.nil
  accounts := rfl
  made := by simp
  limit a b hab hpass := by simp

/-- **The limit on failed logins.** Where no counter is replaced too early, a pair has at most
the configured number of failures in every interval that is shorter than the window. -/
theorem rolling_limit (users : Users) (es : List Request)
    (hes : Run.Guarded (step cfg enc jwt) (fun s tr r => InOrder tr r ∧ Settled cfg enc s tr r)
      ⟨users, fun _ => none⟩ [] es) (username ip : String) :
    RollingLimit cfg.limits username ip
      (Run.outs (step cfg enc jwt) ⟨users, fun _ => none⟩ es) := by
  by_cases hip : '@' ∉ ip.toList
  · exact (Run.exec_outs_inv_of_guarded (fun s tr r hok hinv => inv_step hip hok.1 hok.2 hinv)
      (inv_init users cfg.limits) hes).limit
  · -- no request comes from such an address
    intro a b hab hpass
    have hnone : ∀ o : Entry, Entry.counts username ip a b o = false := by
      intro o
      have hne : o.request.ip ≠ ip := fun heq => hip (heq ▸ o.request.ip_plain)
      simp [Entry.counts, Request.of, hne]
    rw [List.filter_eq_nil_iff.mpr fun o _ => by simp [hnone o]]
    exact Nat.zero_le _

/-! Five attempts in a window of sixty seconds. -/

def sampleSettings : Settings := ⟨⟨5, 60⟩, fun _ => 1000⟩

def sampleEncoder : Encoder := ⟨fun password stored => decide (stored = password), fun _ s => s⟩

def sampleJwt : Jwt := ⟨Claims.subject, fun _ => none⟩

def sampleUsers : Users := fun u => if u = "al" then some "$2a$pw" else none

def guess (t : ℤ) : Request where
  acquire := t
  record := t
  times _ := t
  salt := 0
  ip := "10.0.0.1"
  req := ⟨"al", "guess", "pc"⟩
  acquire_le := Int.le_refl t
  ip_plain := by decide +kernel

theorem rolling_limit_pause :
    RollingLimit sampleSettings.limits "al" "10.0.0.1"
      (Run.outs (step sampleSettings sampleEncoder sampleJwt) ⟨sampleUsers, fun _ => none⟩
        [guess 0, guess 5, guess 65, guess 66]) :=
  rolling_limit sampleUsers [guess 0, guess 5, guess 65, guess 66] (by decide +kernel) _ _

def burst : List Request := guess 0 :: List.replicate 4 (guess 59) ++ List.replicate 5 (guess 60)

/-- The first guess makes the counter; the last five meet a new one a second after four others. -/
theorem burst_not_limited :
    Run.Guarded (step sampleSettings sampleEncoder sampleJwt) (fun _ tr r => InOrder tr r)
      ⟨sampleUsers, fun _ => none⟩ [] burst ∧
    ¬ RollingLimit sampleSettings.limits "al" "10.0.0.1"
      (Run.outs (step sampleSettings sampleEncoder sampleJwt) ⟨sampleUsers, fun _ => none⟩
        burst) := by
  refine ⟨by decide +kernel, fun h => ?_⟩
  have hnine := h 59 60 (by decide) (by decide +kernel)
  exact absurd hnine (by decide +kernel)

end SyncClipboard.LoginLimit
