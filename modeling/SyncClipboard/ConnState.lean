import SyncClipboard.OneSocket

/-!
What the published state of the Android connection tells about the current socket.

The listener looks at `socketRef` before it clears it, and at nothing before it publishes a state. So a
socket that was cancelled, or that another one has replaced, still has its last callback to publish; and
a loop that was cancelled goes on publishing until it would suspend. The state is true to the calls and
to the current socket exactly where nothing of this kind is left (`state_current_iff`).
-/

namespace SyncClipboard.ConnState

open Connection OneSocket

/-- The statements after which a loop, cancelled or not, may publish another state than `IDLE` or
create a socket before it suspends. -/
def mayPublish : Pc → Bool
  | .isConfigured | .connecting | .ensureValidToken | .authFailed | .replace | .create | .failed => true
  | _ => false

/-- Every socket has had its last callback, and no loop is about to publish a state. -/
def Spent (m : Manager) : Prop :=
  (∀ ws < m.created, (m.sockets ws).ended = true) ∧ ∀ i, mayPublish (m.loops i).pc = false

/-- The socket has been opened, and neither cancelled nor failed nor closed. -/
def IsOpen (m : Manager) (ws : ℕ) : Prop := Live m ws ∧ (m.sockets ws).opened = true

/-- A callback of another socket. -/
def OfOther (ws : ℕ) : Event → Prop
  | .onOpen ws' => ws' ≠ ws
  | .onFailure ws' _ => ws' ≠ ws
  | .onClosed ws' => ws' ≠ ws
  | _ => False

variable {m : Manager}

/-! ### What `stop` leaves -/

lemma ended_cancel (ws ws' : ℕ) : ((m.cancel ws).sockets ws').ended = (m.sockets ws').ended := by
  simp only [Manager.cancel, Manager.setSocket, Function.update_apply]
  split_ifs with heq
  · rw [heq]
  · rfl

lemma ended_takeSocket (ws : ℕ) :
    m.takeSocket.created = m.created ∧ (m.takeSocket.sockets ws).ended = (m.sockets ws).ended := by
  unfold Manager.takeSocket
  split
  · exact ⟨rfl, rfl⟩
  · exact ⟨rfl, ended_cancel _ ws⟩

lemma ended_onCancellation (i ws : ℕ) : (m.onCancellation i).created = m.created ∧
    ((m.onCancellation i).sockets ws).ended = (m.sockets ws).ended := by
  unfold Manager.onCancellation
  split
  · split_ifs
    · exact ⟨rfl, ended_cancel _ ws⟩
    · exact ⟨rfl, rfl⟩
  · exact ⟨rfl, rfl⟩

lemma ended_cancelJob (ws : ℕ) :
    m.cancelJob.created = m.created ∧ (m.cancelJob.sockets ws).ended = (m.sockets ws).ended := by
  unfold Manager.cancelJob
  split
  · exact ⟨rfl, rfl⟩
  · exact ended_onCancellation _ ws

lemma mayPublish_of_suspended {i : ℕ} (h : m.suspended i = true) :
    mayPublish (m.loops i).pc = false := by
  unfold Manager.suspended at h
  split at h
  · next hpc => rw [hpc]; rfl
  · next hpc => rw [hpc]; rfl
  · cases h

lemma mayPublish_cancelJob (j : ℕ) :
    mayPublish (m.cancelJob.loops j).pc = mayPublish (m.loops j).pc := by
  unfold Manager.cancelJob
  split
  · rfl
  · next i hjob =>
    simp only [Manager.setLoop, (onCancellation_same i).1, Function.update_apply]
    by_cases hji : j = i
    · subst hji
      rw [if_pos rfl]
      cases hs : m.suspended j with
      | false => rfl
      | true => exact (mayPublish_of_suspended hs).symm
    · rw [if_neg hji]

lemma spent_stop_iff : Spent (stop m) ↔ Spent m := by
  have hsocket : ∀ ws, (stop m).created = m.created ∧
      ((stop m).sockets ws).ended = (m.sockets ws).ended := by
    intro ws
    have htake := ended_takeSocket (m := ({ m with shouldReconnect := false } : Manager).cancelJob) ws
    have hjob := ended_cancelJob (m := { m with shouldReconnect := false }) ws
    exact ⟨htake.1.trans hjob.1, htake.2.trans hjob.2⟩
  have hloop : ∀ i, mayPublish ((stop m).loops i).pc = mayPublish (m.loops i).pc := by
    intro i
    have hloops : (stop m).loops = ({ m with shouldReconnect := false } : Manager).cancelJob.loops :=
      takeSocket_loops
    rw [hloops]
    exact mayPublish_cancelJob (m := { m with shouldReconnect := false }) i
  unfold Spent
  simp only [(hsocket 0).1, hloop]
  constructor
  · rintro ⟨hended, hpc⟩
    exact ⟨fun ws hws => (hsocket ws).2 ▸ hended ws hws, hpc⟩
  · rintro ⟨hended, hpc⟩
    exact ⟨fun ws hws => (hsocket ws).2.trans (hended ws hws), hpc⟩

/-! ### Nothing is left -/

/-- After `stop`, with nothing left. -/
def Still (m : Manager) : Prop :=
  m.shouldReconnect = false ∧ m.state = .idle ∧ (∀ i, (m.loops i).cancelled = true) ∧ Spent m

lemma still_stop (hjobs : Jobs m) (h : Spent m) : Still (stop m) := by
  have hjob : Jobs ({ m with shouldReconnect := false } : Manager) := hjobs
  have hsame : (stop m).shouldReconnect = false ∧
      (stop m).loops = ({ m with shouldReconnect := false } : Manager).cancelJob.loops := by
    refine ⟨?_, takeSocket_loops⟩
    simp only [stop, Manager.publish, Manager.takeSocket, Manager.cancelJob, Manager.onCancellation,
      Manager.cancel, Manager.setSocket, Manager.setLoop]
    repeat' split
    all_goals rfl
  refine ⟨hsame.1, rfl, fun i => ?_, spent_stop_iff.mpr h⟩
  rw [hsame.2]
  exact hjob.cancelled i

lemma Still.goto (h : Still m) (i : ℕ) {pc : Pc} (hpc : mayPublish pc = false) :
    Still (m.goto i pc) := by
  obtain ⟨hrec, hidle, hcancelled, hended, hloops⟩ := h
  refine ⟨hrec, hidle, fun j => ?_, hended, fun j => ?_⟩
  · simp only [Manager.goto, Manager.setLoop, Function.update_apply]
    split_ifs with hji
    · exact hcancelled i
    · exact hcancelled j
  · simp only [Manager.goto, Manager.setLoop, Function.update_apply]
    split_ifs with hji
    · exact hpc
    · exact hloops j

lemma Still.cancel (h : Still m) (ws : ℕ) : Still (m.cancel ws) := by
  obtain ⟨hrec, hidle, hcancelled, hended, hloops⟩ := h
  exact ⟨hrec, hidle, hcancelled, fun ws' hws' => (ended_cancel ws ws').trans (hended ws' hws'), hloops⟩

lemma Still.advance (h : Still m) (i : ℕ) (a : Answer) : Still (advance i a m) := by
  have hcancelled := h.2.2.1 i
  have hpc := h.2.2.2.2 i
  unfold Connection.advance
  cases hat : (m.loops i).pc with
  | launched => exact h.goto i (by simp [hcancelled, mayPublish])
  | loop => exact h.goto i (by simp [h.1, mayPublish])
  | idle =>
    have hpublish : Still (m.publish .idle) := ⟨h.1, rfl, h.2.2⟩
    exact hpublish.goto i (by simp [Manager.publish, hcancelled, mayPublish])
  | set ws =>
    have hset : Still { m with socketRef := some ws } := h
    exact hset.goto i rfl
  | register ws =>
    simp only [hcancelled, if_true]
    exact (h.cancel ws).goto i rfl
  | waiting ws =>
    dsimp only
    split
    · exact h
    · simp only [hcancelled, if_true]
      exact (h.cancel ws).goto i rfl
  | opened =>
    simp only [h.1, Bool.false_eq_true, false_and, if_false]
    exact h.goto i rfl
  | delay inner => exact h.goto i (by cases inner <;> rfl)
  | done => exact h
  | _ =>
    rw [hat] at hpc
    cases hpc

lemma Still.step (hjobs : Jobs m) (h : Still m) {e : Event} (he : e ≠ .start) :
    Still (step m e).1 := by
  have hended : ∀ ws, ¬ (ws < m.created ∧ (m.sockets ws).ended = false) := by
    rintro ws ⟨hws, hnot⟩
    rw [h.2.2.2.1 ws hws] at hnot
    cases hnot
  cases e with
  | start => exact absurd rfl he
  | stop => exact still_stop hjobs h.2.2.2
  | loop i a => exact h.advance i a
  | onOpen ws =>
    simp only [Connection.step, react]
    rw [if_neg fun hon => hended ws ⟨hon.1, hon.2.2⟩]
    exact h
  | onFailure ws unauthorized =>
    simp only [Connection.step, react]
    rw [if_neg (hended ws)]
    exact h
  | onClosed ws =>
    simp only [Connection.step, react]
    rw [if_neg fun hon => hended ws ⟨hon.1, hon.2.2⟩]
    exact h

/-- Until the next `start` the state stays as `stop` has published it. -/
lemma idle_of_spent (hjobs : Jobs m) (h : Spent m) {fs : List Event} (hfs : ∀ e ∈ fs, e ≠ .start) :
    (Run.exec step (stop m) fs).state = .idle := by
  have hstop : Jobs (stop m) := hjobs.step .stop
  have hsteps : Run.Steps step (fun _ e => True ∧ e ≠ .start) (stop m) fs :=
    Run.steps_and (Run.steps_true _ _) hfs
  have hinv := Run.exec_inv_of_steps (I := fun m => Jobs m ∧ Still m)
    (fun m e h he => ⟨h.1.step e, h.2.step h.1 he.2⟩) ⟨hstop, still_stop hjobs h⟩ hsteps
  exact hinv.2.2.1

/-! ### Something is left -/

lemma published_of_socket {ws : ℕ} (hws : ws < m.created) (hended : (m.sockets ws).ended = false) :
    (Run.exec step m [.onFailure ws false]).state = .disconnected := by
  simp [Connection.step, react, hws, hended, onFailure, onEnd]

lemma published_of_loop {i : ℕ} (h : mayPublish (m.loops i).pc = true) :
    ∃ fs, (∀ e ∈ fs, e ≠ .start) ∧ (Run.exec step m fs).state ≠ .idle := by
  have hnew : ∀ m' : Manager, (m'.loops i).pc = .create →
      (Run.exec step m' [.loop i ⟨true, true⟩, .onFailure m'.created false]).state =
        .disconnected := by
    intro m' hat
    simp [Connection.step, react, Connection.advance, hat, Manager.goto, Manager.setLoop,
      Manager.setSocket, onFailure, onEnd, Manager.publish]
  cases hat : (m.loops i).pc with
  | isConfigured =>
    refine ⟨[.loop i ⟨true, true⟩, .loop i ⟨true, true⟩], by simp, ?_⟩
    simp [Connection.step, react, Connection.advance, hat]
  | connecting =>
    refine ⟨[.loop i ⟨true, true⟩], by simp, ?_⟩
    simp [Connection.step, react, Connection.advance, hat]
  | ensureValidToken =>
    refine ⟨[.loop i ⟨true, false⟩, .loop i ⟨true, true⟩], by simp, ?_⟩
    simp [Connection.step, react, Connection.advance, hat]
  | authFailed =>
    refine ⟨[.loop i ⟨true, true⟩], by simp, ?_⟩
    simp [Connection.step, react, Connection.advance, hat]
  | failed =>
    refine ⟨[.loop i ⟨true, true⟩], by simp, ?_⟩
    simp [Connection.step, react, Connection.advance, hat]
  | create =>
    refine ⟨[.loop i ⟨true, true⟩, .onFailure m.created false], by simp, ?_⟩
    rw [hnew m hat]
    decide
  | replace =>
    have hcreate : ((Connection.step m (.loop i ⟨true, true⟩)).1.loops i).pc = .create := by
      simp [Connection.step, react, Connection.advance, hat]
    refine ⟨[.loop i ⟨true, true⟩, .loop i ⟨true, true⟩,
      .onFailure (Connection.step m (.loop i ⟨true, true⟩)).1.created false], by simp, ?_⟩
    rw [Run.exec_cons, hnew _ hcreate]
    decide
  | _ =>
    rw [hat] at h
    cases h

lemma stays_idle_iff (hjobs : Jobs m) :
    (∀ fs, (∀ e ∈ fs, e ≠ .start) → (Run.exec step (stop m) fs).state = .idle) ↔ Spent m := by
  constructor
  · intro hidle
    rw [← spent_stop_iff]
    refine ⟨fun ws hws => ?_, fun i => ?_⟩
    · by_contra hended
      have hpub := published_of_socket hws (Bool.eq_false_iff.mpr hended)
      rw [hidle _ (by simp)] at hpub
      cases hpub
    · by_contra hmay
      have hmay' : mayPublish ((stop m).loops i).pc = true := by simpa using hmay
      obtain ⟨fs, hfs, hne⟩ := published_of_loop hmay'
      exact hne (hidle fs hfs)
  · exact fun h fs hfs => idle_of_spent hjobs h hfs

/-! ### Callbacks of other sockets -/

lemma react_ofOther (ws : ℕ) (hall : ∀ ws' < m.created, ws' ≠ ws → (m.sockets ws').ended = true)
    {e : Event} (he : OfOther ws e) : react m e = m := by
  have hended : ∀ ws', ws' ≠ ws → ¬ (ws' < m.created ∧ (m.sockets ws').ended = false) := by
    rintro ws' hne ⟨hws, hnot⟩
    rw [hall ws' hws hne] at hnot
    cases hnot
  cases e with
  | onOpen ws' => exact if_neg fun hon => hended ws' he ⟨hon.1, hon.2.2⟩
  | onFailure ws' unauthorized => exact if_neg (hended ws' he)
  | onClosed ws' => exact if_neg fun hon => hended ws' he ⟨hon.1, hon.2.2⟩
  | start => exact he.elim
  | stop => exact he.elim
  | loop i a => exact he.elim

/-- One of the two results of a failed socket is another state than the present one. -/
lemma state_changed_of_pending {ws' : ℕ} (hws : ws' < m.created)
    (hended : (m.sockets ws').ended = false) :
    ∃ unauthorized, (step m (.onFailure ws' unauthorized)).1.state ≠ m.state := by
  have hstate : ∀ b, (step m (.onFailure ws' b)).1.state =
      if b then .authFailed else .disconnected := by
    intro b
    simp [Connection.step, react, hws, hended, onFailure, onEnd]
  by_cases hdis : m.state = .disconnected
  · refine ⟨true, ?_⟩
    rw [hstate, hdis]
    decide
  · refine ⟨false, ?_⟩
    rw [hstate]
    exact Ne.symm hdis

lemma others_silent_iff (ws : ℕ) :
    (∀ e, OfOther ws e → (step m e).1.state = m.state) ↔
      ∀ ws' < m.created, ws' ≠ ws → (m.sockets ws').ended = true := by
  constructor
  · intro hsame ws' hws hne
    by_contra hended
    obtain ⟨unauthorized, hchanged⟩ := state_changed_of_pending hws (Bool.eq_false_iff.mpr hended)
    exact hchanged (hsame _ hne)
  · intro hall e he
    have hreact : (step m e).1 = m := react_ofOther ws hall he
    rw [hreact]

/-! ### The published state -/

/-- **The published state is that of the current socket.** After `stop` returns the state stays `IDLE`
until the next `start`, whatever comes, if and only if `stop` found every socket past its last callback
and no loop on its way to publish a state. And while the socket that is held is open, no callback of
another socket changes the state, if and only if every other socket has had its last callback. -/
theorem state_current_iff (es : List Event) :
    ((∀ fs, (∀ e ∈ fs, e ≠ .start) →
        (Run.exec step init (es ++ .stop :: fs)).state = .idle) ↔
      Spent (Run.exec step init es)) ∧
    ∀ ws, (Run.exec step init es).socketRef = some ws → IsOpen (Run.exec step init es) ws →
      ((∀ e, OfOther ws e →
          (Run.exec step init (es ++ [e])).state = (Run.exec step init es).state) ↔
        ∀ ws' < (Run.exec step init es).created, ws' ≠ ws →
          ((Run.exec step init es).sockets ws').ended = true) := by
  constructor
  · rw [← stays_idle_iff (jobs_exec es)]
    simp only [Run.exec_append, Run.exec_cons]
    rfl
  · intro ws _ _
    rw [← others_silent_iff ws]
    simp only [Run.exec_append, Run.exec_cons, Run.exec_nil]

/-- What a loop does until its socket is there. -/
def connects (i : ℕ) : List Event := List.replicate 9 (.loop i ⟨true, true⟩)

/-- The first socket opens. -/
def firstOpen : List Event := .start :: connects 0 ++ [.onOpen 0]

/-- The first socket is alone. -/
theorem state_current_first :
    (Run.exec step init firstOpen).socketRef = some 0 ∧ IsOpen (Run.exec step init firstOpen) 0 ∧
      ∀ e, OfOther 0 e →
        (Run.exec step init (firstOpen ++ [e])).state = (Run.exec step init firstOpen).state := by
  have hheld : (Run.exec step init firstOpen).socketRef = some 0 := by decide
  have hopen : IsOpen (Run.exec step init firstOpen) 0 := ⟨by decide, by decide⟩
  have hcreated : (Run.exec step init firstOpen).created = 1 := by decide
  refine ⟨hheld, hopen, ((state_current_iff firstOpen).2 0 hheld hopen).mpr ?_⟩
  intro ws' hws hne
  omega

/-- A socket that `stop` has cancelled fails only later: after `stop` has returned, and even after the
next `start`, when another socket is open. -/
theorem late_failure_published :
    (¬ ∀ es fs, (∀ e ∈ fs, e ≠ .start) →
      (Run.exec step init (es ++ .stop :: fs)).state = .idle) ∧
    ¬ ∀ es ws, (Run.exec step init es).socketRef = some ws → IsOpen (Run.exec step init es) ws →
      ∀ e, OfOther ws e →
        (Run.exec step init (es ++ [e])).state = (Run.exec step init es).state := by
  constructor
  · intro hall
    have hidle := hall firstOpen [.onFailure 0 false] (by simp)
    revert hidle
    decide
  · intro hall
    have hsame := hall
      (firstOpen ++ .stop :: .start :: connects 1 ++ [.onOpen 1]) 1
      (by decide) ⟨by decide, by decide⟩ (.onFailure 0 false) (by simp [OfOther])
    revert hsame
    decide

end SyncClipboard.ConnState
