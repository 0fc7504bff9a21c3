import SyncClipboard.Pool
import SyncClipboard.Run
import SyncClipboard.ServerModel

/-!
The cap on the sessions of a user, under concurrent connects.

`addAuthenticated` counts the sessions of the user and then puts the new one into the map. Between
the two steps the call is in flight, and nothing in the map tells of it: two calls may both count
nine. Sessions may be removed at any time, by a close, a transport error or a failed broadcast.
-/

namespace SyncClipboard.SessionCap

open ServerModel

/-- A call of `addAuthenticated` that has counted and is about to put. -/
structure Call where
  session : SessionId
  username : String
  deviceId : String

structure Sys where
  sessions : Registry
  calls : List Call

def start : Sys := ⟨[], []⟩

inductive Label
  | count (session : SessionId) (username deviceId : String)
  | insert (i : ℕ)
  | remove (session : SessionId)

inductive Obs
  | refused (session : SessionId) (username : String)
  | added (session : SessionId) (username : String)
  deriving DecidableEq

/-- One step of one call. -/
def step (y : Sys) : Label → Sys × List Obs
  | .count session username deviceId =>
    if maxSessionsPerUser ≤ sessionCount username y.sessions then
      (y, [.refused session username])
    else ({ y with calls := y.calls ++ [⟨session, username, deviceId⟩] }, [])
  | .insert i =>
    match y.calls[i]? with
    | none => (y, [])
    | some c =>
      (⟨Keyed.put ClientSession.session ⟨c.session, true, true, c.username, c.deviceId⟩ y.sessions,
        y.calls.eraseIdx i⟩, [.added c.session c.username])
  | .remove session => ({ y with sessions := removeSession session y.sessions }, [])

/-- A call that runs alone does what `addAuthenticated` does. -/
lemma step_alone (reg : Registry) (session : SessionId) (username deviceId : String) :
    Run.exec step ⟨reg, []⟩ [.count session username deviceId, .insert 0] =
      ⟨(addAuthenticated session username deviceId reg).getD reg, []⟩ := by
  simp only [Run.exec_cons, Run.exec_nil]
  unfold addAuthenticated
  by_cases hfull : maxSessionsPerUser ≤ sessionCount username reg
  · simp [step, hfull]
  · simp [step, hfull]

/-- The calls of a user that have counted and not put yet. -/
def inFlight (username : String) (y : Sys) : ℕ :=
  y.calls.countP fun c => decide (username = c.username)

/-- A call that finds fewer sessions than the cap would still do so if the calls in flight had
put theirs. -/
def Room (y : Sys) : Label → Prop
  | .count _ username _ => sessionCount username y.sessions < maxSessionsPerUser →
      sessionCount username y.sessions + inFlight username y < maxSessionsPerUser
  | _ => True

instance (y : Sys) : ∀ e, Decidable (Room y e)
  | .count _ _ _ => inferInstanceAs (Decidable (_ → _))
  | .insert _ => inferInstanceAs (Decidable True)
  | .remove _ => inferInstanceAs (Decidable True)

/-- The sessions and the calls in flight stay within the cap. -/
def Inv (y : Sys) : Prop :=
  ∀ username, sessionCount username y.sessions + inFlight username y ≤ maxSessionsPerUser

/-! ### One step -/

lemma sessionCount_remove_le (username : String) (session : SessionId) (reg : Registry) :
    sessionCount username (removeSession session reg) ≤ sessionCount username reg :=
  (List.filter_sublist.filter _).length_le

lemma sessionCount_put_le (username : String) (cs : ClientSession) (reg : Registry) :
    sessionCount username (Keyed.put ClientSession.session cs reg) ≤
      sessionCount username reg + if username = cs.username then 1 else 0 := by
  have hremove := sessionCount_remove_le username cs.session reg
  unfold sessionCount removeSession at hremove
  unfold sessionCount Keyed.put
  rw [List.filter_append, List.length_append]
  have hone : ([cs].filter fun s => s.loggedIn && decide (username = s.username)).length ≤
      if username = cs.username then 1 else 0 := by
    by_cases hu : username = cs.username
    · rw [if_pos hu]
      exact List.length_filter_le _ _
    · simp [hu]
  omega

lemma inv_step {y : Sys} {e : Label} (h : Inv y) (hroom : Room y e) : Inv (step y e).1 := by
  intro username
  have hbefore := h username
  cases e with
  | count session username' deviceId =>
    simp only [step]
    split_ifs with hfull
    · exact hbefore
    · have hlt := hroom (Nat.not_le.mp hfull)
      by_cases hu : username = username'
      · subst hu
        simp only [inFlight, List.countP_append] at hlt ⊢
        simp
        omega
      · simpa [inFlight, hu] using hbefore
  | insert i =>
    unfold step
    dsimp only
    split
    · exact hbefore
    · next c hi =>
      have hcount := Pool.countP_eraseIdx hi fun c => decide (username = c.username)
      have hput := sessionCount_put_le username ⟨c.session, true, true, c.username, c.deviceId⟩
        y.sessions
      unfold inFlight at hbefore ⊢
      simp only [decide_eq_true_eq] at hcount hput ⊢
      omega
  | remove session =>
    have hremove := sessionCount_remove_le username session y.sessions
    unfold step
    dsimp only [inFlight] at hbefore ⊢
    omega

lemma refused_step {y : Sys} {e : Label} {session : SessionId} {username : String}
    (h : .refused session username ∈ (step y e).2) :
    maxSessionsPerUser ≤ sessionCount username y.sessions := by
  cases e with
  | count session' username' deviceId =>
    simp only [step] at h
    split_ifs at h with hfull
    · obtain ⟨rfl, rfl⟩ : session = session' ∧ username = username' := by simpa using h
      exact hfull
    · simp at h
  | insert i =>
    unfold step at h
    dsimp only at h
    split at h <;> simp at h
  | remove session => simp [step] at h

/-! ### Every run -/

/-- **The cap on sessions.** Where every count leaves room for the calls in flight, no user ever
has more sessions than the cap, and a refused connect met a user who had that many. -/
theorem session_cap (es : List Label) (hroom : Run.Steps step Room start es) :
    (∀ username, sessionCount username (Run.exec step start es).sessions ≤ maxSessionsPerUser) ∧
    ∀ pre e post session username, es = pre ++ e :: post →
      .refused session username ∈ (step (Run.exec step start pre) e).2 →
      sessionCount username (Run.exec step start pre).sessions = maxSessionsPerUser := by
  have hinv : ∀ es, Run.Steps step Room start es → Inv (Run.exec step start es) := fun es hes =>
    Run.exec_inv_of_steps (fun y e hI hok => inv_step hI hok)
      (fun username => by simp [start, sessionCount, inFlight]) hes
  refine ⟨fun username => ?_, fun pre e post session username hes href => ?_⟩
  · have hle := hinv es hroom username
    omega
  · subst hes
    have hle := hinv pre (Run.steps_append.mp hroom).1 username
    have hfull := refused_step href
    omega

def connect (session : SessionId) : List Label := [.count session "al" "pc", .insert 0]

def nine : List Label := ["1", "2", "3", "4", "5", "6", "7", "8", "9"].flatMap connect

theorem session_cap_eleven :
    (∀ username, sessionCount username (Run.exec step start (nine ++ connect "10" ++
      connect "11")).sessions ≤ maxSessionsPerUser) ∧
    sessionCount "al" (Run.exec step start (nine ++ connect "10" ++ connect "11")).sessions = 10 :=
  ⟨(session_cap (nine ++ connect "10" ++ connect "11") (by decide +kernel)).1, by decide +kernel⟩

/-- Two connects count nine sessions each before either puts its own. -/
theorem overlapping_connects :
    ¬ sessionCount "al" (Run.exec step start (nine ++
      [.count "10" "al" "pc", .count "11" "al" "pc", .insert 0, .insert 0])).sessions ≤
        maxSessionsPerUser := by
  decide +kernel

end SyncClipboard.SessionCap
