import Mathlib.Data.List.Basic

/-!
Paths as moves in a tree of directories.

A directory is the list of the names that lead to it, the innermost first. A path stays where it is, goes
up or goes down for each of its components. What it does from any directory is told by how often it goes
up and the names it then goes down.
-/

namespace SyncClipboard.Lexical

inductive Move (ν : Type*)
  | stay
  | up
  | down (name : ν)
  deriving DecidableEq

section Moves

variable {ν : Type*}

/-- The root is above itself. -/
def act (dir : List ν) : Move ν → List ν
  | .stay => dir
  | .up => dir.tail
  | .down name => name :: dir

def go (dir : List ν) (ms : List (Move ν)) : List ν := ms.foldl act dir

/-- A way up and the names down, after one more move. -/
def reduce : ℕ × List ν → Move ν → ℕ × List ν
  | r, .stay => r
  | (k, []), .up => (k + 1, [])
  | (k, _ :: names), .up => (k, names)
  | (k, names), .down name => (k, name :: names)

def relative (ms : List (Move ν)) : ℕ × List ν := ms.foldl reduce (0, [])

lemma go_append (dir : List ν) (ms ms' : List (Move ν)) : go dir (ms ++ ms') = go (go dir ms) ms' :=
  List.foldl_append

lemma act_reduce (dir : List ν) (r : ℕ × List ν) (m : Move ν) :
    act (r.2 ++ dir.drop r.1) m = (reduce r m).2 ++ dir.drop (reduce r m).1 := by
  obtain ⟨k, names⟩ := r
  cases m with
  | stay => rfl
  | up =>
    cases names with
    | nil => simp [act, reduce]
    | cons name names => rfl
  | down name => rfl

/-- **A path up and down.** -/
theorem go_eq (dir : List ν) (ms : List (Move ν)) :
    go dir ms = (relative ms).2 ++ dir.drop (relative ms).1 := by
  have hrun : ∀ (ms : List (Move ν)) (r : ℕ × List ν),
      ms.foldl act (r.2 ++ dir.drop r.1) = (ms.foldl reduce r).2 ++ dir.drop (ms.foldl reduce r).1 := by
    intro ms
    induction ms with
    | nil => intro r; rfl
    | cons m ms ih =>
      intro r
      rw [List.foldl_cons, List.foldl_cons, act_reduce]
      exact ih (reduce r m)
  exact hrun ms (0, [])

/-- **From a child to a child.** A path leads from a child of a directory to a child of it if it leads
nowhere, or up through the directory and back into it. -/
theorem go_child_iff {dir : List ν} {name child : ν} {ms : List (Move ν)} :
    go (name :: dir) ms = child :: dir ↔
      relative ms = (0, []) ∧ child = name ∨
        0 < (relative ms).1 ∧ (relative ms).2 = child :: dir.take ((relative ms).1 - 1) := by
  rw [go_eq]
  obtain ⟨k, names⟩ := relative ms
  cases k with
  | zero =>
    have hlen : names ++ name :: dir = child :: dir → names = [] := by
      intro h
      have hsum := congrArg List.length h
      rw [List.length_append, List.length_cons, List.length_cons] at hsum
      exact List.length_eq_zero_iff.mp (by omega)
    constructor
    · intro h
      obtain rfl := hlen h
      exact Or.inl ⟨rfl, (List.cons.inj h).1.symm⟩
    · rintro (⟨h, rfl⟩ | ⟨h, -⟩)
      · obtain rfl : names = [] := congrArg Prod.snd h
        rfl
      · exact absurd h (Nat.lt_irrefl 0)
  | succ k =>
    have hdir : child :: dir = (child :: dir.take k) ++ dir.drop k := by
      rw [List.cons_append, List.take_append_drop]
    rw [List.drop_succ_cons, hdir, List.append_cancel_right_eq]
    simp

end Moves

/-! ### Components -/

section Components

variable {α : Type*} {p : α → Bool}

/-- What has no separator in it goes before the first component. -/
lemma splitOnP_append {a : List α} (h : ∀ x ∈ a, p x = false) (l : List α) :
    (a ++ l).splitOnP p = (l.splitOnP p).modifyHead (a ++ ·) := by
  induction a with
  | nil => cases hl : l.splitOnP p <;> simp [hl]
  | cons x a ih =>
    have hx : p x = false := h x (by simp)
    have ih := ih fun y hy => h y (by simp [hy])
    rw [List.cons_append, List.splitOnP_cons_eq_if_modifyHead, hx, ih]
    simp [List.modifyHead_modifyHead, Function.comp_def]

end Components

end SyncClipboard.Lexical
