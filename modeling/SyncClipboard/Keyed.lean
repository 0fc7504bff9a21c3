import Mathlib.Data.List.Basic
import Mathlib.Data.List.Nodup

/-!
A map kept as the list of its values, each value carrying its own key.

This is what a concurrent hash map looks like to code that only looks up, replaces, removes
and walks over the values. The order of the list has no meaning: where a walk comes to one value
before another, the order is not the one of the list.
-/

namespace SyncClipboard.Keyed

variable {κ α : Type*} [DecidableEq κ] (key : α → κ)

def get (k : κ) (l : List α) : Option α := l.find? fun a => decide (key a = k)

def remove (k : κ) (l : List α) : List α := l.filter fun a => decide (key a ≠ k)

def put (a : α) (l : List α) : List α := remove key (key a) l ++ [a]

/-- No two values share a key. -/
def Distinct (l : List α) : Prop := (l.map key).Nodup

variable {key}

lemma mem_remove {k : κ} {l : List α} {a : α} : a ∈ remove key k l ↔ a ∈ l ∧ key a ≠ k := by
  simp [remove]

lemma mem_put {a b : α} {l : List α} : b ∈ put key a l ↔ (b ∈ l ∧ key b ≠ key a) ∨ b = a := by
  simp [put, mem_remove]

lemma mem_of_get {k : κ} {l : List α} {a : α} (h : get key k l = some a) :
    a ∈ l ∧ key a = k := by
  refine ⟨List.mem_of_find?_eq_some h, ?_⟩
  simpa using List.find?_some h

lemma distinct_remove {l : List α} (hd : Distinct key l) (k : κ) :
    Distinct key (remove key k l) :=
  (List.filter_sublist.map key).nodup hd

lemma distinct_put {l : List α} (hd : Distinct key l) (a : α) : Distinct key (put key a l) := by
  unfold Distinct put
  rw [List.map_append, List.map_singleton, List.nodup_append]
  refine ⟨distinct_remove hd _, by simp, ?_⟩
  rintro k hk k' hk' rfl
  obtain ⟨b, hb, rfl⟩ := List.mem_map.mp hk
  exact (mem_remove.mp hb).2 (by simpa using hk')

/-- Looking a key up only reads the values of the part it belongs to. -/
lemma get_filter {k : κ} {l : List α} {p : α → Bool} (h : ∀ a ∈ l, key a = k → p a = true) :
    get key k (l.filter p) = get key k l := by
  induction l with
  | nil => rfl
  | cons a l ih =>
    have ih' := ih fun b hb => h b (by simp [hb])
    unfold get at ih' ⊢
    cases hp : p a with
    | true => rw [List.filter_cons_of_pos hp, List.find?_cons, List.find?_cons, ih']
    | false =>
      have hne : key a ≠ k := fun hk => by simp [h a (by simp) hk] at hp
      rw [List.filter_cons_of_neg (by simp [hp]), List.find?_cons, ih']
      simp [hne]

lemma filter_remove (k : κ) (l : List α) (p : α → Bool) :
    (remove key k l).filter p = remove key k (l.filter p) := by
  simp [remove, List.filter_filter, Bool.and_comm]

/-- Removing a key outside a part leaves the part alone. -/
lemma filter_remove_of_neg {k : κ} {l : List α} {p : α → Bool}
    (h : ∀ a ∈ l, key a = k → p a = false) : (remove key k l).filter p = l.filter p := by
  rw [remove, List.filter_filter]
  refine List.filter_congr fun a ha => ?_
  by_cases hk : key a = k
  · simp [h a ha hk]
  · simp [hk]

end SyncClipboard.Keyed
