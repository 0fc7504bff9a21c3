import SyncClipboard.Connection

/-!
How many connections the Android client has at a time.

`openSocket` takes the socket out of `socketRef`, creates another one and puts that in. As long as
nobody puts a socket there over one that is still alive, every socket that is alive is the one in
`socketRef`, or the one that a running `openSocket` has just created (`unique_connection`). A loop
that was cancelled in the middle of `openSocket` and the loop of the next `start` can do just that.
-/

namespace SyncClipboard.OneSocket

open Connection

/-- Created, and neither cancelled nor failed nor closed. -/
def Live (m : Manager) (ws : ℕ) : Prop :=
  ws < m.created ∧ (m.sockets ws).cancelled = false ∧ (m.sockets ws).ended = false

instance (m : Manager) (ws : ℕ) : Decidable (Live m ws) := inferInstanceAs (Decidable (_ ∧ _))

/-- Inside `openSocket`. -/
def inBody : Pc → Bool
  | .create | .set _ | .register _ => true
  | _ => false

/-- There is at most one connection, and it is the one in `socketRef`. -/
structure Unique (m : Manager) : Prop where
  one : ∀ ws ws', Live m ws → Live m ws' → ws = ws'
  held : ∀ ws, Live m ws → m.socketRef = some ws

/-- The next statement is `socketRef.set`. -/
def isSet : Pc → Bool
  | .set _ => true
  | _ => false

/-- `socketRef.set` finds no socket that is alive. -/
def SetsOverDead (m : Manager) : Event → Prop
  | .loop i _ => isSet (m.loops i).pc = true → ∀ old ∈ m.socketRef, ¬ Live m old
  | _ => True

instance : ∀ m e, Decidable (SetsOverDead m e)
  | m, .loop i _ =>
    inferInstanceAs (Decidable (isSet (m.loops i).pc = true → ∀ old ∈ m.socketRef, ¬ Live m old))
  | _, .start => isTrue trivial
  | _, .stop => isTrue trivial
  | _, .onOpen _ => isTrue trivial
  | _, .onFailure _ _ => isTrue trivial
  | _, .onClosed _ => isTrue trivial

/-- A socket that is alive is in `socketRef`, or it is about to be put there. -/
def Held (m : Manager) : Prop :=
  ∀ ws, Live m ws → m.socketRef = some ws ∨ ∃ i, (m.loops i).pc = .set ws

variable {m : Manager}

/-! ### What the steps are made of -/

lemma held_init : Held init := by
  rintro ws ⟨hws, -⟩
  exact absurd hws (Nat.not_lt_zero ws)

/-- A cancelled socket is not alive, and the others are as before. -/
lemma live_of_cancel {ws ws' : ℕ} (h : Live (m.cancel ws) ws') : Live m ws' ∧ ws' ≠ ws := by
  obtain ⟨hlt, hc, he⟩ := h
  simp only [Manager.cancel, Manager.setSocket, Function.update_apply] at hc he
  split_ifs at hc he with heq
  exact ⟨⟨hlt, hc, he⟩, heq⟩

lemma Held.cancel (h : Held m) (ws : ℕ) : Held (m.cancel ws) :=
  fun ws' hlive => h ws' (live_of_cancel hlive).1

lemma Held.takeSocket (h : Held m) : Held m.takeSocket := by
  unfold Manager.takeSocket
  cases href : m.socketRef with
  | none => exact h
  | some ws =>
    intro ws' hlive
    obtain ⟨hlive, hne⟩ := live_of_cancel (m := m) hlive
    rcases h ws' hlive with hin | hset
    · rw [href] at hin
      exact absurd (Option.some.inj hin).symm hne
    · exact .inr hset

/-- A loop that was about to put its socket into `socketRef` still is. -/
lemma Held.setLoop (h : Held m) {i : ℕ} {l : Loop}
    (hl : ∀ ws, (m.loops i).pc = .set ws → l.pc = .set ws) : Held (m.setLoop i l) := by
  intro ws hlive
  rcases h ws hlive with hin | ⟨j, hj⟩
  · exact .inl hin
  · refine .inr ⟨j, ?_⟩
    simp only [Manager.setLoop, Function.update_apply]
    split_ifs with heq
    · subst heq
      exact hl ws hj
    · exact hj

lemma Held.goto (h : Held m) {i : ℕ} (hi : ∀ ws, (m.loops i).pc ≠ .set ws) (pc : Pc) :
    Held (m.goto i pc) :=
  h.setLoop fun ws hset => absurd hset (hi ws)

lemma Held.onCancellation (h : Held m) (i : ℕ) : Held (m.onCancellation i) := by
  unfold Manager.onCancellation
  split
  · split_ifs
    · exact h.cancel _
    · exact h
  · exact h

lemma Held.cancelJob (h : Held m) : Held m.cancelJob := by
  unfold Manager.cancelJob
  split
  · exact h
  · next i hjob =>
    refine (h.onCancellation i).setLoop fun ws hset => ?_
    rw [(onCancellation_same i).1] at hset
    -- a loop at this statement is not suspended
    simp [Manager.suspended, hset]

/-! ### One step -/

lemma Held.create (h : Held m) {i : ℕ} (hi : (m.loops i).pc = .create) :
    Held ({ m.setSocket m.created ⟨false, false, false, none⟩ with created := m.created + 1 }.goto i
      (.set m.created)) := by
  intro ws hlive
  obtain ⟨hlt, hc, he⟩ := hlive
  simp only [Manager.goto, Manager.setLoop, Manager.setSocket, Function.update_apply] at hlt hc he ⊢
  by_cases hnew : ws = m.created
  · exact .inr ⟨i, by simp [hnew]⟩
  · simp only [hnew, if_false] at hc he
    rcases h ws ⟨by omega, hc, he⟩ with hin | ⟨j, hj⟩
    · exact .inl hin
    · have hji : j ≠ i := by
        rintro rfl
        rw [hi] at hj
        cases hj
      exact .inr ⟨j, by simp [hji, hj]⟩

lemma Held.set (h : Held m) {i ws : ℕ} (hi : (m.loops i).pc = .set ws)
    (hok : ∀ old, m.socketRef = some old → ¬ Live m old) :
    Held ({ m with socketRef := some ws }.goto i (.register ws)) := by
  intro ws' hlive
  rcases h ws' hlive with hin | ⟨j, hj⟩
  · exact absurd hlive (hok ws' hin)
  · by_cases hji : j = i
    · subst hji
      rw [hi] at hj
      exact .inl (congrArg some (Pc.set.inj hj))
    · refine .inr ⟨j, ?_⟩
      simp [Manager.goto, Manager.setLoop, hji, hj]

lemma Held.advance (h : Held m) (i : ℕ) (a : Answer) (hok : SetsOverDead m (.loop i a)) :
    Held (advance i a m) := by
  unfold Connection.advance
  split
  case h_8 hpc =>
    refine h.takeSocket.goto (fun ws hset => ?_) _
    rw [takeSocket_loops, hpc] at hset
    cases hset
  case h_9 hpc => exact h.create hpc
  case h_10 ws hpc => exact h.set hpc fun old hold => hok (by rw [hpc]; rfl) old hold
  all_goals
    next hpc =>
      have hi : ∀ ws, (m.loops i).pc ≠ .set ws := by simp [hpc]
      repeat' split
      all_goals first
        | exact h
        | exact h.goto hi _
        | exact (h.cancel _).goto hi _

lemma Held.onEnd (h : Held m) (ws : ℕ) (x : State) : Held (onEnd ws x m) := by
  intro ws' hlive
  obtain ⟨hlt, hc, he⟩ := hlive
  simp only [Connection.onEnd, Manager.setSocket, Manager.publish, Manager.forget,
    Function.update_apply] at hlt hc he ⊢
  split_ifs at he with heq
  simp only [heq, if_false] at hc
  rcases h ws' ⟨hlt, hc, he⟩ with hin | hset
  · have hne : some ws' ≠ some ws := fun hs => heq (Option.some.inj hs)
    exact .inl (by rw [hin, if_neg hne])
  · exact .inr hset

lemma Held.onOpen (h : Held m) (ws : ℕ) : Held (onOpen ws m) := by
  intro ws' hlive
  obtain ⟨hlt, hc, he⟩ := hlive
  simp only [Connection.onOpen, Manager.setSocket, Manager.publish, Function.update_apply] at hlt hc he
  -- opening a socket changes nothing about whether it is alive
  have hsame : (m.sockets ws').cancelled = false ∧ (m.sockets ws').ended = false := by
    split_ifs at hc he with heq
    · subst heq
      exact ⟨hc, he⟩
    · exact ⟨hc, he⟩
  exact h ws' ⟨hlt, hsame⟩

lemma Held.start (h : Held m) (hjobs : Jobs m) : Held (start m) := by
  unfold Connection.start
  split_ifs
  · exact h
  · have hheld : Held ({ m with shouldReconnect := true } : Manager) := h
    have hfresh : Jobs ({ m with shouldReconnect := true } : Manager) := hjobs
    -- the new loop takes a place where there was none
    have hdone := hfresh.cancelJob.1 _ (Nat.le_refl _)
    refine hheld.cancelJob.setLoop fun ws hset => ?_
    rw [hdone] at hset
    cases hset

lemma Held.step (h : Held m) (hjobs : Jobs m) {e : Event} (hok : SetsOverDead m e) :
    Held (step m e).1 := by
  cases e with
  | start => exact h.start hjobs
  | stop =>
    have hheld : Held ({ m with shouldReconnect := false } : Manager) := h
    exact hheld.cancelJob.takeSocket
  | loop i a => exact h.advance i a hok
  | onOpen ws =>
    simp only [Connection.step, react]
    split_ifs
    · exact h.onOpen ws
    · exact h
  | onFailure ws unauthorized =>
    simp only [Connection.step, react]
    split_ifs
    · exact h.onEnd ws _
    · exact h
  | onClosed ws =>
    simp only [Connection.step, react]
    split_ifs
    · exact h.onEnd ws _
    · exact h

/-! ### Whole runs -/

lemma Held.unique (h : Held m) (hbody : ∀ i, inBody (m.loops i).pc = false) : Unique m := by
  have hin : ∀ ws, Live m ws → m.socketRef = some ws := by
    intro ws hlive
    refine (h ws hlive).resolve_right ?_
    rintro ⟨i, hi⟩
    have hbody := hbody i
    rw [hi] at hbody
    cases hbody
  refine ⟨fun ws ws' hlive hlive' => ?_, hin⟩
  have heq := (hin ws hlive).symm.trans (hin ws' hlive')
  exact Option.some.inj heq

/-- **One connection at a time.** In every run of calls, loops and callbacks in which no `openSocket`
puts its socket over one that is still alive, in every state reached while no `openSocket` is running
there is at most one connection, and it is the one in `socketRef`. -/
theorem unique_connection {es : List Event} (hok : Run.Steps step SetsOverDead init es) :
    ∀ pre post, es = pre ++ post →
      (∀ i, inBody ((Run.exec step init pre).loops i).pc = false) →
        Unique (Run.exec step init pre) := by
  rintro pre post rfl hbody
  have hpre := (Run.steps_append.mp hok).1
  have hinv : Jobs (Run.exec step init pre) ∧ Held (Run.exec step init pre) :=
    Run.exec_inv_of_steps (I := fun m => Jobs m ∧ Held m)
      (fun m e h hok => ⟨h.1.step e, h.2.step h.1 hok⟩) ⟨jobs_init, held_init⟩ hpre
  exact hinv.2.unique hbody

/-- A loop from its launch to the end of `openSocket`'s first statement. -/
def upToCreate (i : ℕ) : List Event := List.replicate 6 (.loop i ⟨true, true⟩)

/-- The rest of `openSocket`. -/
def create (i : ℕ) : List Event := List.replicate 3 (.loop i ⟨true, true⟩)

/-- One connection after another. -/
def again : List Event :=
  [.start] ++ upToCreate 0 ++ create 0 ++ [.onOpen 0, .stop, .start] ++ upToCreate 1 ++ create 1

theorem unique_connection_again : Unique (Run.exec step init again) := by
  have hok : Run.Steps step SetsOverDead init again := by decide
  refine unique_connection hok again [] (List.append_nil _).symm fun i => ?_
  rcases i with _ | _ | i <;> rfl

/-- A loop is stopped in the middle of `openSocket`, and the next one is done with it before. -/
def overlapping : List Event :=
  [.start] ++ upToCreate 0 ++ [.stop, .start] ++ upToCreate 1 ++ create 1 ++ create 0

/-- The first loop puts its socket, which it cancels, over the one of the second, which stays. -/
theorem overlapping_not_unique :
    (∀ i, inBody ((Run.exec step init overlapping).loops i).pc = false) ∧
      Live (Run.exec step init overlapping) 0 ∧
      (Run.exec step init overlapping).socketRef = some 1 ∧
      ¬ ∀ es, (∀ i, inBody ((Run.exec step init es).loops i).pc = false) →
        Unique (Run.exec step init es) := by
  have hbody : ∀ i, inBody ((Run.exec step init overlapping).loops i).pc = false := by
    intro i
    rcases i with _ | _ | i <;> rfl
  have hlive : Live (Run.exec step init overlapping) 0 := by decide
  have href : (Run.exec step init overlapping).socketRef = some 1 := rfl
  refine ⟨hbody, hlive, href, fun h => ?_⟩
  have hheld := (h overlapping hbody).held 0 hlive
  rw [href] at hheld
  cases hheld

end SyncClipboard.OneSocket
