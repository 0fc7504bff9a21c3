import Mathlib.Data.List.Basic
import Mathlib.Data.List.Nodup
import Mathlib.Logic.Function.Basic

/-!
A queue of linked nodes with a pointer to the first and one to the last.

Nodes live in a memory from which others may be taken and to which others may be given back. The queue
stands for a list of nodes, each with its place: putting a node behind the last one adds to that list
and taking the first one takes from it, whatever happens to the rest of the memory.
-/

namespace SyncClipboard.LinkedQueue

variable {A α : Type*}

structure Node (A α : Type*) where
  value : α
  next : Option A

/-- What stands at each place of the memory. -/
abbrev Heap (A α : Type*) := A → Option (Node A α)

/-- The pointers to the first and to the last node. -/
structure Queue (A : Type*) where
  head : Option A
  tail : Option A

def empty : Queue A := ⟨none, none⟩

/-- Following the pointers from `p` on, these nodes are met. -/
inductive Path (heap : Heap A α) : Option A → List (A × α) → Prop
  | nil : Path heap none []
  | cons {a : A} {x : α} {next : Option A} {cells : List (A × α)} (here : heap a = some ⟨x, next⟩)
      (rest : Path heap next cells) : Path heap (some a) ((a, x) :: cells)

/-- The queue stands for a list of nodes. -/
structure Linked (heap : Heap A α) (q : Queue A) (cells : List (A × α)) : Prop where
  path : Path heap q.head cells
  last : q.tail = (cells.map Prod.fst).getLast?
  distinct : (cells.map Prod.fst).Nodup

variable {heap heap' : Heap A α} {q : Queue A} {cells : List (A × α)} {a : A} {x : α}

lemma linked_empty (heap : Heap A α) : Linked heap empty [] := ⟨.nil, rfl, List.nodup_nil⟩

lemma Path.frame {p : Option A} (h : Path heap p cells) (hsame : ∀ b ∈ cells.map Prod.fst, heap' b = heap b) :
    Path heap' p cells := by
  induction h with
  | nil => exact .nil
  | cons here rest ih =>
    refine .cons ?_ (ih fun b hb => hsame b (by simp [hb]))
    rw [hsame _ (by simp), here]

lemma Linked.frame (h : Linked heap q cells) (hsame : ∀ b ∈ cells.map Prod.fst, heap' b = heap b) :
    Linked heap' q cells :=
  ⟨h.path.frame hsame, h.last, h.distinct⟩

lemma Linked.mem (h : Linked heap q cells) {b : A} (hb : b ∈ cells.map Prod.fst) : heap b ≠ none := by
  obtain ⟨path, -, -⟩ := h
  generalize q.head = p at path
  induction path with
  | nil => cases hb
  | cons here rest ih =>
    rcases List.mem_cons.mp hb with rfl | hb
    · simp [here]
    · exact ih hb

lemma Linked.head_eq_none_iff (h : Linked heap q cells) : q.head = none ↔ q.tail = none := by
  obtain ⟨path, last, -⟩ := h
  rw [last]
  generalize q.head = p at path
  cases path with
  | nil => simp
  | cons here rest => simp

lemma Linked.eq_nil_iff (h : Linked heap q cells) : cells = [] ↔ q.head = none := by
  obtain ⟨path, -, -⟩ := h
  generalize q.head = p at path
  cases path with
  | nil => simp
  | cons here rest => simp

/-! ### The two operations -/

section Operations

variable [DecidableEq A]

/-- `p->next = a`. -/
def setNext (heap : Heap A α) (p a : A) : Heap A α :=
  Function.update heap p ((heap p).map fun n => ⟨n.value, some a⟩)

/-- The node at `a` is put behind the last one. -/
def link (heap : Heap A α) (q : Queue A) (a : A) : Heap A α × Queue A :=
  match q.tail with
  | some p => (setNext heap p a, ⟨q.head, some a⟩)
  | none => (heap, ⟨some a, some a⟩)

lemma link_heap_of_notMem (h : Linked heap q cells) {b : A} (hb : b ∉ cells.map Prod.fst) :
    (link heap q a).1 b = heap b := by
  unfold link
  cases htail : q.tail with
  | none => rfl
  | some p =>
    have hp : p ∈ cells.map Prod.fst := by
      rw [h.last] at htail
      exact List.mem_of_getLast? htail
    have hne : b ≠ p := fun hbp => hb (hbp ▸ hp)
    exact Function.update_of_ne hne _ _

lemma Path.snoc {head : Option A} {p : A} (h : Path heap head cells)
    (hlast : (cells.map Prod.fst).getLast? = some p) (hdistinct : (cells.map Prod.fst).Nodup)
    (hnode : heap a = some ⟨x, none⟩) (ha : a ∉ cells.map Prod.fst) :
    Path (setNext heap p a) head (cells ++ [(a, x)]) := by
  induction h with
  | nil => simp at hlast
  | @cons b y next cells here rest ih =>
    have hab : a ≠ b := fun hab => ha (by simp [hab])
    obtain ⟨hb, hrest⟩ := List.nodup_cons.mp hdistinct
    cases hcells : cells with
    | nil =>
      -- the only node is the one whose pointer is set
      subst hcells
      obtain rfl : b = p := by simpa using hlast
      cases rest
      refine @Path.cons A α _ b y (some a) _ ?_ (@Path.cons A α _ a x none _ ?_ .nil)
      · rw [setNext, Function.update_self, here]
        rfl
      · rw [setNext, Function.update_of_ne hab, hnode]
    | cons c cells' =>
      rw [← hcells]
      have hlast' : (cells.map Prod.fst).getLast? = some p := by
        rw [hcells] at hlast ⊢
        simpa using hlast
      have hpb : b ≠ p := by
        rintro rfl
        exact hb (List.mem_of_getLast? hlast')
      have hpath := ih hlast' hrest fun hmem => ha (by simp [hmem])
      refine .cons ?_ hpath
      rw [setNext, Function.update_of_ne hpb, here]

/-- **A node is put behind the last one.** -/
theorem Linked.link (h : Linked heap q cells) (hnode : heap a = some ⟨x, none⟩)
    (ha : a ∉ cells.map Prod.fst) :
    Linked (link heap q a).1 (link heap q a).2 (cells ++ [(a, x)]) := by
  have hdistinct : ((cells ++ [(a, x)]).map Prod.fst).Nodup := by
    rw [List.map_append, List.map_singleton]
    exact List.nodup_append.mpr ⟨h.distinct, by simp, by
      intro b hb c hc hbc
      obtain rfl : c = a := by simpa using hc
      exact ha (hbc ▸ hb)⟩
  have hlast : some a = ((cells ++ [(a, x)]).map Prod.fst).getLast? := by simp
  unfold LinkedQueue.link
  cases htail : q.tail with
  | none =>
    have hempty := h.eq_nil_iff.mpr (h.head_eq_none_iff.mpr htail)
    subst hempty
    exact ⟨.cons hnode .nil, hlast, hdistinct⟩
  | some p =>
    refine ⟨?_, hlast, hdistinct⟩
    exact h.path.snoc (by rw [← h.last, htail]) h.distinct hnode ha

end Operations

/-- The pointers once the first node is taken. -/
def unlink (heap : Heap A α) (q : Queue A) : Queue A :=
  match q.head with
  | some a =>
    match (heap a).bind Node.next with
    | some b => ⟨some b, q.tail⟩
    | none => ⟨none, none⟩
  | none => q

/-- **The first node is taken.** -/
theorem Linked.unlink (h : Linked heap q ((a, x) :: cells)) :
    q.head = some a ∧ (∃ next, heap a = some ⟨x, next⟩) ∧ a ∉ cells.map Prod.fst ∧
      Linked heap (unlink heap q) cells := by
  obtain ⟨path, last, distinct⟩ := h
  obtain ⟨ha, hdistinct⟩ := List.nodup_cons.mp distinct
  generalize hhead : q.head = p at path
  cases path with
  | @cons _ _ next _ here rest =>
    refine ⟨rfl, ⟨next, here⟩, ha, ?_⟩
    unfold LinkedQueue.unlink
    rw [hhead]
    dsimp only
    rw [here]
    cases rest with
    | nil => exact ⟨.nil, rfl, hdistinct⟩
    | @cons b y next' cells' here' rest' =>
      refine ⟨.cons here' rest', ?_, hdistinct⟩
      rw [last]
      simp

end SyncClipboard.LinkedQueue
