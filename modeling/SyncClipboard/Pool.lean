import Mathlib.Data.List.Perm.Basic

/-!
Calls in flight, kept as a list in which any call may take the next step.

The call at an index is the head of the list up to the order, so what is counted over the list
changes by that one call when it moves on or ends.
-/

namespace SyncClipboard.Pool

variable {α : Type*} {l : List α} {i : ℕ} {a : α}

lemma perm_of_getElem? (h : l[i]? = some a) : l.Perm (a :: l.eraseIdx i) := by
  obtain ⟨hi, rfl⟩ := List.getElem?_eq_some_iff.mp h
  exact (List.getElem_cons_eraseIdx_perm hi).symm

lemma set_perm (h : l[i]? = some a) (b : α) : (l.set i b).Perm (b :: l.eraseIdx i) := by
  obtain ⟨hi, -⟩ := List.getElem?_eq_some_iff.mp h
  exact List.set_perm_cons_eraseIdx hi b

lemma mem_of_mem_set (h : l[i]? = some a) {b x : α} (hx : x ∈ l.set i b) : x = b ∨ x ∈ l := by
  rcases List.mem_cons.mp ((set_perm h b).mem_iff.mp hx) with hx | hx
  · exact .inl hx
  · exact .inr (List.mem_of_mem_eraseIdx hx)

lemma length_eraseIdx (h : l[i]? = some a) : (l.eraseIdx i).length + 1 = l.length :=
  (perm_of_getElem? h).length_eq.symm

lemma countP_eraseIdx (h : l[i]? = some a) (p : α → Bool) :
    (l.eraseIdx i).countP p + (if p a then 1 else 0) = l.countP p := by
  rw [(perm_of_getElem? h).countP_eq, List.countP_cons]

lemma countP_set (h : l[i]? = some a) (b : α) (p : α → Bool) :
    (l.set i b).countP p + (if p a then 1 else 0) = l.countP p + (if p b then 1 else 0) := by
  rw [(set_perm h b).countP_eq, List.countP_cons, ← countP_eraseIdx h p]
  omega

end SyncClipboard.Pool
