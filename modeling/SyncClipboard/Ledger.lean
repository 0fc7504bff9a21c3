import Mathlib.Data.Finset.Basic
import Mathlib.Data.Finset.Dedup
import Mathlib.Data.List.Count
import Mathlib.Data.List.Induction

/-!
Accounts of handles that are opened, used and closed.

A handle may be opened while it is not open, and used or closed while it is. An account in order says
which handles are open in the end, and then every opening but theirs has its one closing.
-/

namespace SyncClipboard.Ledger

variable {α : Type*} [DecidableEq α]

inductive Move (α : Type*)
  | opened (a : α)
  | used (a : α)
  | closed (a : α)
  deriving DecidableEq

/-- The open handles after a move; `none` where it is out of order. -/
def step (s : Finset α) : Move α → Option (Finset α)
  | .opened a => if a ∈ s then none else some (insert a s)
  | .used a => if a ∈ s then some s else none
  | .closed a => if a ∈ s then some (s.erase a) else none

/-- The open handles after an account that begins with none. -/
def replay (log : List (Move α)) : Option (Finset α) := log.foldlM step ∅

lemma replay_append (log log' : List (Move α)) :
    replay (log ++ log') = (replay log).bind fun s => log'.foldlM step s := by
  simp [replay, List.foldlM_append]

lemma replay_concat (log : List (Move α)) (m : Move α) :
    replay (log ++ [m]) = (replay log).bind fun s => step s m := by
  simp [replay_append]

lemma mem_of_replay_closed {cs : List α} {log log' : List (Move α)} {s : Finset α}
    (hlog : replay log = some s) (h : (replay (log ++ cs.map .closed ++ log')).isSome) {a : α}
    (ha : a ∈ cs) : a ∈ s := by
  induction cs generalizing log s with
  | nil => cases ha
  | cons b cs ih =>
    have hb : b ∈ s := by
      by_contra hb
      simp [replay_append, hlog, step, hb] at h
    rcases List.mem_cons.mp ha with rfl | ha
    · exact hb
    · have hnext : replay (log ++ [.closed b]) = some (s.erase b) := by
        simp [replay_concat, hlog, step, hb]
      refine Finset.mem_of_mem_erase (ih hnext ?_ ha)
      simpa using h

/-- Every opening has its closing, unless the handle is still open. -/
theorem count_opened {log : List (Move α)} {s : Finset α} (h : replay log = some s) (a : α) :
    log.count (.opened a) = log.count (.closed a) + if a ∈ s then 1 else 0 := by
  induction log using List.reverseRecOn generalizing s with
  | nil =>
    cases h
    simp
  | append_singleton log m ih =>
    rw [replay_concat, Option.bind_eq_some_iff] at h
    obtain ⟨s', hlog, hstep⟩ := h
    have hcount := ih hlog
    rw [List.count_append, List.count_append, hcount]
    cases m with
    | opened b =>
      simp only [step] at hstep
      split_ifs at hstep with hb
      cases hstep
      by_cases hab : a = b
      · subst hab
        simp [hb]
      · simp [hab, Ne.symm hab]
    | used b =>
      simp only [step] at hstep
      split_ifs at hstep
      cases hstep
      simp
    | closed b =>
      simp only [step] at hstep
      split_ifs at hstep with hb
      cases hstep
      by_cases hab : a = b
      · subst hab
        simp [hb]
      · simp [hab, Ne.symm hab]

/-- The account is in order, and the open handles are those of a list without repetitions. -/
structure Holds (log : List (Move α)) (l : List α) : Prop where
  replay : replay log = some l.toFinset
  nodup : l.Nodup

variable {log : List (Move α)} {l l' : List α} {a : α}

lemma holds_nil : Holds ([] : List (Move α)) [] := ⟨rfl, List.nodup_nil⟩

lemma Holds.perm (h : Holds log l) (hl : l.Perm l') : Holds log l' :=
  ⟨by rw [h.replay, List.toFinset_eq_of_perm _ _ hl], hl.nodup_iff.mp h.nodup⟩

lemma Holds.opened (h : Holds log l) (ha : a ∉ l) : Holds (log ++ [.opened a]) (a :: l) := by
  refine ⟨?_, List.nodup_cons.mpr ⟨ha, h.nodup⟩⟩
  rw [replay_concat, h.replay, Option.bind_some, step, if_neg (by simpa using ha),
    List.toFinset_cons]

lemma Holds.used (h : Holds log l) (ha : a ∈ l) : Holds (log ++ [.used a]) l := by
  refine ⟨?_, h.nodup⟩
  rw [replay_concat, h.replay, Option.bind_some, step, if_pos (by simpa using ha)]

lemma Holds.closed (h : Holds log (a :: l)) : Holds (log ++ [.closed a]) l := by
  obtain ⟨ha, hl⟩ := List.nodup_cons.mp h.nodup
  refine ⟨?_, hl⟩
  rw [replay_concat, h.replay, Option.bind_some, step, if_pos (by simp), List.toFinset_cons,
    Finset.erase_insert (by simpa using ha)]

lemma Holds.closed_all {cs : List α} (h : Holds log (cs ++ l)) :
    Holds (log ++ cs.map .closed) l := by
  induction cs generalizing log with
  | nil => simpa using h
  | cons a cs ih => simpa using ih h.closed

lemma Holds.opened_all {os : List α} (h : Holds log l) (hos : (os ++ l).Nodup) :
    Holds (log ++ os.map .opened) (os ++ l) := by
  induction os generalizing log l with
  | nil => simpa using h
  | cons a os ih =>
    have ha := (List.nodup_cons.mp hos).1
    have hperm : (os ++ a :: l).Perm (a :: (os ++ l)) := List.perm_middle
    have hrest := ih (h.opened fun hl => ha (List.mem_append_right _ hl)) (hperm.nodup_iff.mpr hos)
    simpa using hrest.perm hperm

end SyncClipboard.Ledger
