import SyncClipboard.Run

/-!
The loop of the Linux and Windows clients that connects to the server, and how long it waits between two
attempts.

An attempt that gets no token and one that gets no socket both wait and double the delay; only the second
brings it back to sixty seconds. An attempt that gets a socket does not wait, also if the connection then
fails. So the delays are as they should be in every run in which no connection fails that way and no
token is refused while the delay is thirty-two (`backedOff`).
-/

namespace SyncClipboard.BackOff

/-- `g_reconnect_delay`, `g_connected`, and whether there is a `g_wsi`. -/
structure Loop where
  delay : ℕ
  connected : Bool
  wsi : Bool
  deriving DecidableEq

def start : Loop := ⟨1, false, false⟩

/-- How an attempt goes until the callbacks take over. -/
inductive Attempt
  /-- `ws_acquire_tokens` fails -/
  | noToken
  /-- `lws_client_connect_via_info` returns `NULL` -/
  | noSocket
  | begun
  deriving DecidableEq

inductive Callback
  | established
  | connectionError
  | closed
  deriving DecidableEq

inductive Out
  | attempt
  /-- so many seconds -/
  | slept (delay : ℕ)
  | established
  deriving DecidableEq

/-- One turn of the loop: how an attempt goes, if there is one, and what `lws_service` calls back. -/
structure Turn where
  attempt : Attempt
  callbacks : List Callback
  deriving DecidableEq

/-- A connection is established or fails, and one that is established is closed. -/
def due (s : Loop) : Callback → Bool
  | .established => s.wsi && !s.connected
  | .connectionError => s.wsi && !s.connected
  | .closed => s.wsi && s.connected

def wsCallback (s : Loop) : Callback → Loop × List Out
  | .established => (⟨1, true, s.wsi⟩, [.established])
  | .connectionError => (⟨s.delay, false, false⟩, [])
  | .closed => (⟨s.delay, false, false⟩, [])

def serviceOne (s : Loop) (cb : Callback) : Loop × List Out :=
  if due s cb then wsCallback s cb else (s, [])

def lwsService (s : Loop) (cbs : List Callback) : Loop × List Out :=
  (Run.exec serviceOne s cbs, Run.outs serviceOne s cbs)

def step (s : Loop) (turn : Turn) : Loop × List Out :=
  if !s.connected && !s.wsi then
    match turn.attempt with
    | .noToken =>
      ({ s with delay := if s.delay < 60 then s.delay * 2 else s.delay }, [.attempt, .slept s.delay])
    | .noSocket =>
      let delay := if s.delay < 60 then s.delay * 2 else s.delay
      ({ s with delay := if delay > 60 then 60 else delay }, [.attempt, .slept s.delay])
    | .begun =>
      let r := lwsService { s with wsi := true } turn.callbacks
      (r.1, .attempt :: r.2)
  else lwsService s turn.callbacks

abbrev outs (turns : List Turn) : List Out := Run.outs step start turns

/-! ### What is expected -/

/-- Every attempt was followed by an established connection or by a sleep. -/
def Answered (tr : List Out) : Prop :=
  ∀ pre mid, tr = pre ++ .attempt :: mid → .established ∈ mid ∨ ∃ d, .slept d ∈ mid

/-- No sleep since the last established connection was longer. -/
def Below (tr : List Out) (d : ℕ) : Prop :=
  ∀ pre d' mid, tr = pre ++ .slept d' :: mid → .established ∉ mid → d' ≤ d

/-- After an established connection the first sleep is of one second. -/
def Reset (tr : List Out) (d : ℕ) : Prop :=
  ∀ pre mid, tr = pre ++ .established :: mid → (∀ d', .slept d' ∉ mid) → d = 1

/-- What may come after a history. -/
def Expected (tr : List Out) : Out → Prop
  | .attempt => Answered tr
  | .slept d => d ≤ 60 ∧ Below tr d ∧ Reset tr d
  | .established => True

/-- Between two attempts there is an established connection or a sleep; no sleep is longer than sixty
seconds or shorter than the one before it, and after an established connection it is one second. -/
def BackedOff (tr : List Out) : Prop := Run.Legal Expected tr

/-- No connection fails by a callback, and no token is refused where doubling the delay passes sixty. -/
def Calm (s : Loop) (turn : Turn) : Prop :=
  .connectionError ∉ turn.callbacks ∧
    (s.connected = false → s.wsi = false → turn.attempt = .noToken → ¬ (30 < s.delay ∧ s.delay < 60))

instance (s : Loop) (turn : Turn) : Decidable (Calm s turn) := inferInstanceAs (Decidable (_ ∧ _))

/-! ### Histories that grow by one -/

lemma snoc_cases {tr pre mid : List Out} {o x : Out} (h : tr ++ [o] = pre ++ x :: mid) :
    (x = o ∧ mid = [] ∧ pre = tr) ∨ ∃ mid', mid = mid' ++ [o] ∧ tr = pre ++ x :: mid' := by
  rcases List.eq_nil_or_concat mid with rfl | ⟨mid', o', rfl⟩
  · obtain ⟨hpre, hx⟩ := List.append_inj' h rfl
    exact .inl ⟨(List.cons.inj hx).1.symm, rfl, hpre.symm⟩
  · refine .inr ⟨mid', ?_⟩
    rw [List.concat_eq_append, ← List.cons_append, ← List.append_assoc] at h
    obtain ⟨htr, ho⟩ := List.append_inj' h rfl
    exact ⟨by rw [List.concat_eq_append, (List.cons.inj ho).1], htr⟩

variable {tr : List Out} {d : ℕ}

lemma answered_slept (tr : List Out) (d : ℕ) : Answered (tr ++ [.slept d]) := by
  intro pre mid heq
  rcases snoc_cases heq with ⟨hx, -, -⟩ | ⟨mid', rfl, -⟩
  · cases hx
  · exact .inr ⟨d, by simp⟩

lemma answered_established (tr : List Out) : Answered (tr ++ [.established]) := by
  intro pre mid heq
  rcases snoc_cases heq with ⟨hx, -, -⟩ | ⟨mid', rfl, -⟩
  · cases hx
  · exact .inl (by simp)

lemma Below.mono (h : Below tr d) {d' : ℕ} (hle : d ≤ d') : Below tr d' :=
  fun pre x mid heq hmid => Nat.le_trans (h pre x mid heq hmid) hle

lemma Below.attempt (h : Below tr d) : Below (tr ++ [.attempt]) d := by
  intro pre d' mid heq hmid
  rcases snoc_cases heq with ⟨hx, -, -⟩ | ⟨mid', rfl, htr⟩
  · cases hx
  · exact h pre d' mid' htr fun hin => hmid (List.mem_append_left _ hin)

lemma Below.slept (h : Below tr d) : Below (tr ++ [.slept d]) d := by
  intro pre d' mid heq hmid
  rcases snoc_cases heq with ⟨hx, -, -⟩ | ⟨mid', rfl, htr⟩
  · obtain rfl := Out.slept.inj hx
    exact Nat.le_refl _
  · exact h pre d' mid' htr fun hin => hmid (List.mem_append_left _ hin)

lemma below_established (tr : List Out) (d : ℕ) : Below (tr ++ [.established]) d := by
  intro pre d' mid heq hmid
  rcases snoc_cases heq with ⟨hx, -, -⟩ | ⟨mid', rfl, -⟩
  · cases hx
  · exact absurd (by simp) hmid

lemma Reset.attempt (h : Reset tr d) : Reset (tr ++ [.attempt]) d := by
  intro pre mid heq hmid
  rcases snoc_cases heq with ⟨hx, -, -⟩ | ⟨mid', rfl, htr⟩
  · cases hx
  · exact h pre mid' htr fun d' hin => hmid d' (List.mem_append_left _ hin)

lemma reset_slept (tr : List Out) (d d' : ℕ) : Reset (tr ++ [.slept d]) d' := by
  intro pre mid heq hmid
  rcases snoc_cases heq with ⟨hx, -, -⟩ | ⟨mid', rfl, -⟩
  · cases hx
  · exact absurd (by simp) (hmid d)

/-! ### Every run -/

/-- Unless a connection is being made, the last attempt is answered; and what comes next may be slept. -/
structure Inv (s : Loop) (tr : List Out) : Prop where
  legal : BackedOff tr
  answered : s.wsi = false ∨ s.connected = true → Answered tr
  below : Below tr s.delay
  reset : Reset tr s.delay
  cap : s.delay ≤ 60
  socket : s.connected = true → s.wsi = true

lemma inv_start : Inv start [] := by
  have hnil : ∀ {pre mid : List Out} {o : Out}, [] ≠ pre ++ o :: mid := by simp
  exact ⟨fun _ _ _ h => absurd h hnil, fun _ _ _ h => absurd h hnil, fun _ _ _ h => absurd h hnil,
    fun _ _ h => absurd h hnil, by decide, by decide⟩

variable {s : Loop}

lemma Inv.serviceOne (h : Inv s tr) {cb : Callback} (hcb : cb ≠ .connectionError) :
    Inv (serviceOne s cb).1 (tr ++ (serviceOne s cb).2) := by
  unfold BackOff.serviceOne
  split_ifs with hdue
  · cases cb with
    | established =>
      refine ⟨Run.legal_snoc h.legal trivial, fun _ => answered_established tr, below_established tr 1, ?_,
        ?_, fun _ => ?_⟩
      · exact fun _ _ _ _ => rfl
      · exact Nat.le_of_ble_eq_true rfl
      · simp only [due, Bool.and_eq_true] at hdue
        exact hdue.1
    | connectionError => exact absurd rfl hcb
    | closed =>
      simp only [due, Bool.and_eq_true] at hdue
      rw [wsCallback, List.append_nil]
      exact ⟨h.legal, fun _ => h.answered (.inr hdue.2), h.below, h.reset, h.cap, by simp⟩
  · rwa [List.append_nil]

lemma Inv.lwsService (h : Inv s tr) {cbs : List Callback} (hcbs : .connectionError ∉ cbs) :
    Inv (lwsService s cbs).1 (tr ++ (lwsService s cbs).2) := by
  refine @Run.exec_outs_inv _ _ _ BackOff.serviceOne Inv (fun cb => cb ≠ .connectionError) ?_ s tr h cbs ?_
  · exact fun s tr cb hcb h => h.serviceOne hcb
  · intro cb hin hcb
    exact hcbs (hcb ▸ hin)

/-- An attempt that fails at once, with a delay that does not shrink or grow too much. -/
lemma Inv.slept (h : Inv s tr) (hwsi : s.wsi = false) {delay : ℕ} (hle : s.delay ≤ delay) (hcap : delay ≤ 60) :
    Inv { s with delay := delay } (tr ++ [.attempt, .slept s.delay]) := by
  have hsplit : tr ++ [.attempt, .slept s.delay] = tr ++ [.attempt] ++ [.slept s.delay] := by simp
  rw [hsplit]
  have hattempt : BackedOff (tr ++ [.attempt]) := Run.legal_snoc h.legal (h.answered (.inl hwsi))
  refine ⟨Run.legal_snoc hattempt ⟨h.cap, h.below.attempt, h.reset.attempt⟩, fun _ => answered_slept _ _,
    h.below.attempt.slept.mono hle, reset_slept _ _ _, hcap, h.socket⟩

lemma Inv.step (h : Inv s tr) {turn : Turn} (hcalm : Calm s turn) :
    Inv (step s turn).1 (tr ++ (step s turn).2) := by
  obtain ⟨hcbs, htoken⟩ := hcalm
  have hcap := h.cap
  unfold BackOff.step
  by_cases hdue : (!s.connected && !s.wsi) = true
  · rw [if_pos hdue]
    obtain ⟨hconnected, hwsi⟩ : s.connected = false ∧ s.wsi = false := by simpa using hdue
    cases hattempt : turn.attempt with
    | noToken =>
      have hfits := htoken hconnected hwsi hattempt
      refine h.slept hwsi ?_ ?_
      · split_ifs <;> omega
      · split_ifs <;> omega
    | noSocket =>
      refine h.slept hwsi ?_ ?_
      · split_ifs <;> omega
      · split_ifs <;> omega
    | begun =>
      have hlegal : BackedOff (tr ++ [.attempt]) := Run.legal_snoc h.legal (h.answered (.inl hwsi))
      have hbegun : Inv { s with wsi := true } (tr ++ [.attempt]) := by
        refine ⟨hlegal, ?_, h.below.attempt, h.reset.attempt, hcap, fun _ => rfl⟩
        rintro (hno | hno)
        · cases hno
        · exact absurd hno (by simp [hconnected])
      have hservice := hbegun.lwsService hcbs
      rwa [List.append_assoc] at hservice
  · rw [if_neg hdue]
    exact h.lwsService hcbs

/-- **The loop backs off**, in every run in which no connection fails by a callback and no token is
refused where doubling the delay passes sixty. -/
theorem backedOff {turns : List Turn} (h : Run.Steps step Calm start turns) : BackedOff (outs turns) := by
  have hinv := Run.exec_outs_inv_of_steps (I := Inv) (fun s tr turn hcalm h => h.step hcalm) inv_start h
  rw [List.nil_append] at hinv
  exact hinv.legal

/-- Seven attempts without a socket, a connection that is closed again, and an attempt without a token. -/
def outage : List Turn :=
  List.replicate 7 ⟨.noSocket, []⟩ ++ [⟨.begun, [.established, .closed]⟩, ⟨.noToken, []⟩]

theorem backedOff_outage :
    outs outage = ([1, 2, 4, 8, 16, 32, 60].flatMap fun d => [.attempt, .slept d]) ++
        [.attempt, .established, .attempt, .slept 1] ∧
      BackedOff (outs outage) :=
  ⟨by decide, backedOff (by decide)⟩

/-- Two connections that fail by a callback. -/
def refused : List Turn := List.replicate 2 ⟨.begun, [.connectionError]⟩

/-- Seven attempts without a token. -/
def unauthorized : List Turn := List.replicate 7 ⟨.noToken, []⟩

/-- The first are made without a sleep in between, and the last of the others sleeps sixty-four
seconds. -/
theorem refused_not_backedOff : ¬ BackedOff (outs refused) ∧ ¬ BackedOff (outs unauthorized) := by
  constructor
  · intro h
    have hsecond : Answered [.attempt] := h [.attempt] .attempt [] (by decide)
    rcases hsecond [] [] rfl with hno | ⟨d, hno⟩
    · cases hno
    · cases hno
  · intro h
    have hlast := h ((outs unauthorized).take 13) (.slept 64) [] (by decide)
    exact absurd hlast.1 (by decide)

end SyncClipboard.BackOff
