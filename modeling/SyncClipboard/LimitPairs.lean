import SyncClipboard.Auth
import SyncClipboard.Run
import Mathlib.Data.Finset.Card
import Mathlib.Data.Finset.Dedup

/-!
The counters of the login limit, one for each user name and address.

All of them are in one cache under keys that are glued together from the two, and the cache drops entries
of its choice when there are more than 10000. An address has no `@` in it, so that the last `@` of a key
tells the two parts. As long as there are not too many pairs, a pair is treated as if the calls for the
others had not been made (`tryAcquire_restricted`).
-/

namespace SyncClipboard.LimitPairs

open Auth

inductive Op
  | tryAcquire
  | recordFailure
  | recordSuccess
  deriving DecidableEq

/-- A call of the limiter, with what the cache would drop after it. -/
structure Call where
  now : ℤ
  username : String
  ip : String
  op : Op
  victims : List String
  ip_plain : '@' ∉ ip.toList

def Call.pair (c : Call) : String × String := (c.username, c.ip)

def Call.key (c : Call) : String := Auth.key (some c.username) (some c.ip)

def maximumSize : ℕ := 10000

structure Cache where
  counters : Counters
  keys : Finset String

def start : Cache := ⟨fun _ => none, ∅⟩

/-- What a call returns, and what it makes of the counters. -/
def Call.run (lim : Limits) (c : Call) (counters : Counters) : Option Bool × Counters :=
  match c.op with
  | .tryAcquire =>
    let r := Auth.tryAcquire lim c.now (some c.username) (some c.ip) counters
    (some r.1, r.2)
  | .recordFailure => (none, Auth.recordFailure lim c.now (some c.username) (some c.ip) counters)
  | .recordSuccess => (none, Auth.recordSuccess (some c.username) (some c.ip) counters)

def evict (cache : Cache) (k : String) : Cache :=
  if maximumSize < cache.keys.card then
    ⟨Function.update cache.counters k none, cache.keys.erase k⟩
  else cache

def step (lim : Limits) (cache : Cache) (c : Call) : Cache × List Bool :=
  let r := c.run lim cache.counters
  let keys := if (r.2 c.key).isSome then insert c.key cache.keys else cache.keys.erase c.key
  (c.victims.foldl evict ⟨r.2, keys⟩, r.1.toList)

def restrict (u ip : String) (calls : List Call) : List Call :=
  calls.filter fun c => decide (c.pair = (u, ip))

/-! ### One key -/

/-- What a call returns, and what it makes of the counter with its own key. -/
def Call.own (lim : Limits) (c : Call) (counter : Option Counter) : Option Bool × Option Counter :=
  match c.op with
  | .tryAcquire =>
    (some (decide (((look lim c.now counter).count : ℤ) < lim.maxAttempts)),
      some (look lim c.now counter))
  | .recordFailure =>
    (none, some ⟨(look lim c.now counter).created, (look lim c.now counter).count + 1⟩)
  | .recordSuccess => (none, none)

lemma Call.run_eq (lim : Limits) (c : Call) (counters : Counters) :
    c.run lim counters = ((c.own lim (counters c.key)).1,
      Function.update counters c.key (c.own lim (counters c.key)).2) := by
  unfold Call.run Call.own
  cases c.op with
  | tryAcquire =>
    simp only [Auth.tryAcquire, lookup_eq, Call.key]
    rfl
  | recordFailure =>
    simp only [Auth.recordFailure, lookup_eq, Call.key, Function.update_idem]
  | recordSuccess => rfl

lemma Call.key_eq_iff {c d : Call} : c.key = d.key ↔ c.pair = d.pair := by
  constructor
  · intro h
    obtain ⟨hname, hip⟩ := key_inj c.ip_plain d.ip_plain h
    exact Prod.ext hname hip
  · intro h
    obtain ⟨hname, hip⟩ := Prod.mk.inj h
    rw [Call.key, Call.key, hname, hip]

/-! ### Nothing is dropped -/

lemma foldl_evict {cache : Cache} (h : cache.keys.card ≤ maximumSize) (victims : List String) :
    victims.foldl evict cache = cache := by
  induction victims with
  | nil => rfl
  | cons k victims ih =>
    have hkeep : evict cache k = cache := if_neg (Nat.not_lt.mpr h)
    rw [List.foldl_cons, hkeep, ih]

def pairs (calls : List Call) : Finset (String × String) := (calls.map Call.pair).toFinset

lemma card_keys_le (calls : List Call) : (calls.map Call.key).toFinset.card ≤ (pairs calls).card := by
  have himage : (calls.map Call.key).toFinset =
      (pairs calls).image fun p => Auth.key (some p.1) (some p.2) := by
    ext k
    simp [pairs, Call.key, Call.pair]
  rw [himage]
  exact Finset.card_image_le

lemma pairs_mono {calls calls' : List Call} (h : calls ⊆ calls') :
    (pairs calls).card ≤ (pairs calls').card := by
  refine Finset.card_le_card fun p hp => ?_
  obtain ⟨c, hc, rfl⟩ := List.mem_map.mp (List.mem_toFinset.mp hp)
  exact List.mem_toFinset.mpr (List.mem_map_of_mem (h hc))

def kept (lim : Limits) (calls : List Call) : Counters :=
  calls.foldl (fun counters c => (c.run lim counters).2) fun _ => none

lemma kept_concat (lim : Limits) (calls : List Call) (c : Call) :
    kept lim (calls ++ [c]) =
      Function.update (kept lim calls) c.key (c.own lim (kept lim calls c.key)).2 := by
  rw [kept, List.foldl_append, List.foldl_cons, List.foldl_nil, Call.run_eq]
  rfl

/-- The cache has keys of the calls only, and has dropped nothing. -/
structure Kept (lim : Limits) (past : List Call) (cache : Cache) : Prop where
  keys : cache.keys ⊆ (past.map Call.key).toFinset
  counters : cache.counters = kept lim past

lemma Kept.step {lim : Limits} {past : List Call} {cache : Cache} {c : Call}
    (h : Kept lim past cache) (hfew : (pairs (past ++ [c])).card ≤ maximumSize) :
    Kept lim (past ++ [c]) (step lim cache c).1 := by
  have hkeys : (if ((c.run lim cache.counters).2 c.key).isSome then insert c.key cache.keys
      else cache.keys.erase c.key) ⊆ ((past ++ [c]).map Call.key).toFinset := by
    intro k hk
    have hor : k = c.key ∨ k ∈ cache.keys := by
      split_ifs at hk
      · exact Finset.mem_insert.mp hk
      · exact .inr (Finset.mem_of_mem_erase hk)
    rw [List.mem_toFinset, List.map_append, List.mem_append]
    rcases hor with rfl | hk
    · exact .inr (by simp)
    · exact .inl (List.mem_toFinset.mp (h.keys hk))
  have hsmall := (Finset.card_le_card hkeys).trans ((card_keys_le _).trans hfew)
  unfold LimitPairs.step
  dsimp only
  rw [foldl_evict hsmall]
  refine ⟨hkeys, ?_⟩
  dsimp only
  rw [kept_concat, ← h.counters, Call.run_eq]

lemma exec_kept (lim : Limits) {calls : List Call} (hfew : (pairs calls).card ≤ maximumSize) :
    Kept lim calls (Run.exec (step lim) start calls) := by
  refine @Run.exec_inv_of_past _ _ _ (step lim)
    (fun past cache => (pairs past).card ≤ maximumSize → Kept lim past cache) ?_ [] start
    (fun _ => ⟨Finset.empty_subset _, rfl⟩) calls hfew
  intro past cache c h hle
  exact (h ((pairs_mono (List.subset_append_left past [c])).trans hle)).step hle

/-! ### The other pairs -/

/-- The counter of a pair depends on the calls of the pair alone. -/
lemma kept_restrict (lim : Limits) (calls : List Call) (c : Call) :
    kept lim calls c.key = kept lim (restrict c.username c.ip calls) c.key := by
  induction calls using List.reverseRecOn with
  | nil => rfl
  | append_singleton calls d ih =>
    rw [restrict, List.filter_append, kept_concat]
    by_cases hd : d.pair = c.pair
    · have hof : d.pair = (c.username, c.ip) := hd
      rw [List.filter_cons_of_pos (by simpa using hof), List.filter_nil, kept_concat,
        Call.key_eq_iff.mpr hd, Function.update_self, Function.update_self, ih]
      rfl
    · have hkey : c.key ≠ d.key := fun h => hd (Call.key_eq_iff.mp h.symm)
      have hof : d.pair ≠ (c.username, c.ip) := hd
      rw [List.filter_cons_of_neg (by simpa using hof), List.filter_nil, List.append_nil,
        Function.update_of_ne hkey, ih]
      rfl

/-- **Pairs do not interfere.** In every sequence of calls for fewer than 10000 user names and addresses, a
call, `tryAcquire` above all, returns what it returns after the earlier calls for its own user name and
address alone. -/
theorem tryAcquire_restricted (lim : Limits) (calls : List Call)
    (hfew : (pairs calls).card < maximumSize) (pre post : List Call) (c : Call)
    (hcalls : calls = pre ++ c :: post) :
    (step lim (Run.exec (step lim) start pre) c).2 =
      (step lim (Run.exec (step lim) start (restrict c.username c.ip pre)) c).2 := by
  have hpre : (pairs pre).card ≤ maximumSize := by
    refine (pairs_mono ?_).trans hfew.le
    rw [hcalls]
    exact List.subset_append_left _ _
  have hown : (pairs (restrict c.username c.ip pre)).card ≤ maximumSize :=
    (pairs_mono (List.filter_sublist.subset)).trans hpre
  change (c.run lim _).1.toList = (c.run lim _).1.toList
  rw [(exec_kept lim hpre).counters, (exec_kept lim hown).counters, Call.run_eq, Call.run_eq,
    kept_restrict]

def sampleCall (username ip : String) (op : Op) (h : '@' ∉ ip.toList) : Call :=
  ⟨0, username, ip, op, [], h⟩

/-- The name `a@1` at the address `2` has a failure, which says nothing about `a` at `1`. -/
theorem tryAcquire_restricted_two :
    (step ⟨1, 60⟩ (Run.exec (step ⟨1, 60⟩) start
        [sampleCall "a@1" "2" .recordFailure (by decide)])
      (sampleCall "a" "1" .tryAcquire (by decide))).2 =
    (step ⟨1, 60⟩ start (sampleCall "a" "1" .tryAcquire (by decide))).2 :=
  tryAcquire_restricted ⟨1, 60⟩
    [sampleCall "a@1" "2" .recordFailure (by decide), sampleCall "a" "1" .tryAcquire (by decide)]
    (by decide) [sampleCall "a@1" "2" .recordFailure (by decide)] []
    (sampleCall "a" "1" .tryAcquire (by decide)) rfl

end SyncClipboard.LimitPairs
