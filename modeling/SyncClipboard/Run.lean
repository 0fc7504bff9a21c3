import Mathlib.Data.List.Basic

/-!
Runs of a machine that reads events and emits outputs, and two rules about them.

An invariant that every step keeps holds after every run. The unwinding rule is about two
runs at once: if the events that are left out neither move the state out of a relation nor
emit anything observable, and the events that are kept do the same on both sides, then the
run and the run without those events look alike. The simulation rule compares a machine with an
abstract one that reads the outputs and either follows or refuses them.
-/

namespace SyncClipboard.Run

variable {S E O : Type*} (step : S → E → S × List O)

/-- The state after a run. -/
def exec (s : S) : List E → S
  | [] => s
  | e :: es => exec (step s e).1 es

/-- Everything a run emits, in order. -/
def outs (s : S) : List E → List O
  | [] => []
  | e :: es => (step s e).2 ++ outs (step s e).1 es

/-- Every step of the run meets the condition `Ok` in the state it starts from. -/
def Steps (Ok : S → E → Prop) (s : S) : List E → Prop
  | [] => True
  | e :: es => Ok s e ∧ Steps Ok (step s e).1 es

instance decidableSteps (Ok : S → E → Prop) [∀ s e, Decidable (Ok s e)] :
    ∀ s es, Decidable (Steps step Ok s es)
  | _, [] => isTrue trivial
  | s, e :: es =>
    have := decidableSteps Ok (step s e).1 es
    inferInstanceAs (Decidable (Ok s e ∧ Steps step Ok (step s e).1 es))

@[simp] lemma exec_nil (s : S) : exec step s [] = s := rfl
@[simp] lemma exec_cons (s : S) (e : E) (es : List E) :
    exec step s (e :: es) = exec step (step s e).1 es := rfl
@[simp] lemma outs_nil (s : S) : outs step s [] = [] := rfl
@[simp] lemma outs_cons (s : S) (e : E) (es : List E) :
    outs step s (e :: es) = (step s e).2 ++ outs step (step s e).1 es := rfl

lemma exec_append (s : S) (es fs : List E) :
    exec step s (es ++ fs) = exec step (exec step s es) fs := by
  induction es generalizing s with
  | nil => rfl
  | cons e es ih => exact ih _

lemma outs_append (s : S) (es fs : List E) :
    outs step s (es ++ fs) = outs step s es ++ outs step (exec step s es) fs := by
  induction es generalizing s with
  | nil => rfl
  | cons e es ih => rw [List.cons_append, outs_cons, outs_cons, ih, List.append_assoc, exec_cons]

variable {step}

/-- **Invariants of runs.** -/
theorem exec_inv {I : S → Prop} (hstep : ∀ s e, I s → I (step s e).1) {s : S} (h : I s)
    (es : List E) : I (exec step s es) := by
  induction es generalizing s with
  | nil => exact h
  | cons e es ih => exact ih (hstep s e h)

/-- An invariant of the state together with the events so far. -/
theorem exec_inv_of_past {I : List E → S → Prop}
    (hstep : ∀ past s e, I past s → I (past ++ [e]) (step s e).1) {past : List E} {s : S}
    (h : I past s) (es : List E) : I (past ++ es) (exec step s es) := by
  induction es generalizing past s with
  | nil => simpa using h
  | cons e es ih =>
    have hrest := ih (hstep past s e h)
    rwa [List.append_assoc] at hrest

/-- A run all of whose steps meet a condition keeps what such steps keep. -/
theorem exec_inv_of_steps {I : S → Prop} {Ok : S → E → Prop}
    (hstep : ∀ s e, I s → Ok s e → I (step s e).1) {s : S} (h : I s) {es : List E}
    (hok : Steps step Ok s es) : I (exec step s es) := by
  induction es generalizing s with
  | nil => exact h
  | cons e es ih => exact ih (hstep s e h hok.1) hok.2

/-- Everything such a run emits has a property that its steps emit. -/
theorem outs_inv_of_steps {I : S → Prop} {Ok : S → E → Prop} {P : O → Prop}
    (hstep : ∀ s e, I s → Ok s e → I (step s e).1 ∧ ∀ o ∈ (step s e).2, P o) {s : S} (h : I s)
    {es : List E} (hok : Steps step Ok s es) : ∀ o ∈ outs step s es, P o := by
  induction es generalizing s with
  | nil => simp
  | cons e es ih =>
    obtain ⟨hnext, hout⟩ := hstep s e h hok.1
    intro o ho
    rcases List.mem_append.mp ho with ho | ho
    · exact hout o ho
    · exact ih hnext hok.2 o ho

lemma steps_at {Ok : S → E → Prop} {s : S} {pre post : List E} {e : E}
    (h : Steps step Ok s (pre ++ e :: post)) : Ok (exec step s pre) e := by
  induction pre generalizing s with
  | nil => exact h.1
  | cons e' pre ih => exact ih h.2

lemma steps_append {Ok : S → E → Prop} {s : S} {es fs : List E} :
    Steps step Ok s (es ++ fs) ↔ Steps step Ok s es ∧ Steps step Ok (exec step s es) fs := by
  induction es generalizing s with
  | nil => simp [Steps]
  | cons e es ih => simp [Steps, ih, and_assoc]

lemma steps_and {Ok : S → E → Prop} {Q : E → Prop} {s : S} {es : List E}
    (h : Steps step Ok s es) (hQ : ∀ e ∈ es, Q e) : Steps step (fun s e => Ok s e ∧ Q e) s es := by
  induction es generalizing s with
  | nil => trivial
  | cons e es ih =>
    exact ⟨⟨h.1, hQ e (by simp)⟩, ih h.2 fun e' he' => hQ e' (by simp [he'])⟩

lemma steps_true (s : S) (es : List E) : Steps step (fun _ _ => True) s es := by
  induction es generalizing s with
  | nil => trivial
  | cons e es ih => exact ⟨trivial, ih _⟩

/-- **Budgets.** Steps that take one from a budget of `M` find something left each time if and
only if the run as a whole takes at most `M`. -/
theorem steps_iff_le_budget {I : S → Prop} {Q : E → Prop} {Takes : S → E → Prop} {A : S → ℕ} {M : ℕ}
    (hstep : ∀ s e, I s → Q e → I (step s e).1 ∧
      (Takes s e → A (step s e).1 = A s + 1) ∧ (¬ Takes s e → A (step s e).1 = A s))
    {s : S} (h : I s) (hM : A s ≤ M) {es : List E} (hQ : ∀ e ∈ es, Q e) :
    Steps step (fun s e => Takes s e → A s < M) s es ↔ A (exec step s es) ≤ M := by
  -- what has been taken is never given back
  have hmono : ∀ (es : List E) {s : S}, I s → (∀ e ∈ es, Q e) → A s ≤ A (exec step s es) := by
    intro es
    induction es with
    | nil => exact fun _ _ => Nat.le_refl _
    | cons e es ih =>
      intro s h hQ
      obtain ⟨hnext, htake, hkeep⟩ := hstep s e h (hQ e (by simp))
      have hrest := ih hnext fun e' he' => hQ e' (by simp [he'])
      by_cases ht : Takes s e
      · rw [htake ht] at hrest
        exact Nat.le_of_succ_le hrest
      · rwa [hkeep ht] at hrest
  induction es generalizing s with
  | nil => simpa [Steps] using hM
  | cons e es ih =>
    obtain ⟨hnext, htake, hkeep⟩ := hstep s e h (hQ e (by simp))
    have hQ' : ∀ e' ∈ es, Q e' := fun e' he' => hQ e' (by simp [he'])
    have hrest := hmono es hnext hQ'
    by_cases ht : Takes s e
    · rw [htake ht] at hrest
      constructor
      · rintro ⟨hok, hsteps⟩
        exact (ih hnext (by rw [htake ht]; exact hok ht) hQ').mp hsteps
      · intro hle
        rw [exec_cons] at hle
        have hlt : A s < M := by omega
        exact ⟨fun _ => hlt, (ih hnext (by rw [htake ht]; exact hlt) hQ').mpr hle⟩
    · have hM' : A (step s e).1 ≤ M := by rwa [hkeep ht]
      constructor
      · rintro ⟨-, hsteps⟩
        exact (ih hnext hM' hQ').mp hsteps
      · intro hle
        exact ⟨fun ht' => absurd ht' ht, (ih hnext hM' hQ').mpr hle⟩

lemma mem_outs {s : S} {es : List E} {o : O} :
    o ∈ outs step s es ↔
      ∃ pre e post, es = pre ++ e :: post ∧ o ∈ (step (exec step s pre) e).2 := by
  induction es generalizing s with
  | nil => simp
  | cons e es ih =>
    rw [outs_cons, List.mem_append, ih]
    constructor
    · rintro (ho | ⟨pre, e', post, rfl, ho⟩)
      · exact ⟨[], e, es, rfl, ho⟩
      · exact ⟨e :: pre, e', post, rfl, ho⟩
    · rintro ⟨pre, e', post, heq, ho⟩
      cases pre with
      | nil =>
        obtain ⟨rfl, rfl⟩ := List.cons.inj heq
        exact .inl ho
      | cons e'' pre =>
        obtain ⟨rfl, rfl⟩ := List.cons.inj heq
        exact .inr ⟨pre, e', post, rfl, ho⟩

/-- What moves with the events alone can be read off them. -/
lemma view_exec {V : Type*} {view : S → V} {f : V → E → V}
    (hstep : ∀ s e, view (step s e).1 = f (view s) e) (s : S) (es : List E) :
    view (exec step s es) = es.foldl f (view s) := by
  induction es generalizing s with
  | nil => rfl
  | cons e es ih => rw [exec_cons, ih, hstep, List.foldl_cons]

/-- If the outputs of a step have a property exactly when it meets a condition, and such steps keep an
invariant, the outputs of a run have the property exactly when all its steps meet the condition. -/
theorem outs_iff_steps {I : S → Prop} {Q : E → Prop} {Ok : S → E → Prop} {P : O → Prop}
    (hstep : ∀ s e, I s → Q e →
      ((∀ o ∈ (step s e).2, P o) ↔ Ok s e) ∧ (Ok s e → I (step s e).1))
    {s : S} (h : I s) {es : List E} (hQ : ∀ e ∈ es, Q e) :
    (∀ o ∈ outs step s es, P o) ↔ Steps step Ok s es := by
  induction es generalizing s with
  | nil => simp [Steps]
  | cons e es ih =>
    obtain ⟨hiff, hnext⟩ := hstep s e h (hQ e (by simp))
    have hrest := fun hok => ih (hnext hok) fun e' he' => hQ e' (by simp [he'])
    rw [outs_cons, List.forall_mem_append]
    constructor
    · rintro ⟨hfirst, hmore⟩
      have hok := hiff.mp hfirst
      exact ⟨hok, (hrest hok).mp hmore⟩
    · rintro ⟨hok, hmore⟩
      exact ⟨hiff.mpr hok, (hrest hok).mpr hmore⟩

/-- If a step keeps a property exactly when it meets a condition, a run has the property in every
state exactly when all its steps meet the condition. -/
theorem always_iff_steps {I P : S → Prop} {Ok : S → E → Prop} (hinv : ∀ s e, I s → I (step s e).1)
    (hstep : ∀ s e, I s → P s → (P (step s e).1 ↔ Ok s e)) {s : S} (hI : I s) (hP : P s)
    (es : List E) :
    (∀ pre post, es = pre ++ post → P (exec step s pre)) ↔ Steps step Ok s es := by
  induction es generalizing s with
  | nil =>
    refine ⟨fun _ => trivial, fun _ pre post heq => ?_⟩
    rw [(List.append_eq_nil_iff.mp heq.symm).1]
    exact hP
  | cons e es ih =>
    constructor
    · intro hall
      have hnext : P (step s e).1 := hall [e] es rfl
      refine ⟨(hstep s e hI hP).mp hnext, (ih (hinv s e hI) hnext).mp ?_⟩
      intro pre post heq
      exact hall (e :: pre) post (by rw [heq, List.cons_append])
    · rintro ⟨hok, hsteps⟩ pre post heq
      cases pre with
      | nil => exact hP
      | cons e' pre =>
        obtain ⟨rfl, rfl⟩ := List.cons.inj heq
        exact (ih (hinv s e hI) ((hstep s e hI hP).mpr hok)).mpr hsteps pre post rfl

/-- Everything a run emits has a property that every step emits. -/
theorem outs_inv {I : S → Prop} {P : O → Prop}
    (hstep : ∀ s e, I s → I (step s e).1 ∧ ∀ o ∈ (step s e).2, P o) {s : S} (h : I s)
    (es : List E) : ∀ o ∈ outs step s es, P o :=
  outs_inv_of_steps (fun s e hI _ => hstep s e hI) h (steps_true s es)

variable (step) in
/-- **Unwinding.** Leaving out the events outside `keep` changes neither the relation `R`
between the two states nor what the observer `obs` sees of the outputs. -/
theorem unwind {P : Type*} (keep : E → Bool) (obs : List O → List P) {R : S → S → Prop}
    {Ok : S → E → Prop} (hobs : ∀ a b, obs (a ++ b) = obs a ++ obs b)
    (hhide : ∀ s t e, R s t → Ok s e → keep e = false →
      R (step s e).1 t ∧ obs (step s e).2 = [])
    (hkeep : ∀ s t e, R s t → Ok s e → keep e = true →
      R (step s e).1 (step t e).1 ∧ obs (step s e).2 = obs (step t e).2)
    {s t : S} (h : R s t) {es : List E} (hok : Steps step Ok s es) :
    R (exec step s es) (exec step t (es.filter keep)) ∧
      obs (outs step s es) = obs (outs step t (es.filter keep)) := by
  induction es generalizing s t with
  | nil => exact ⟨h, rfl⟩
  | cons e es ih =>
    cases hk : keep e with
    | false =>
      obtain ⟨hR, hnil⟩ := hhide s t e h hok.1 hk
      obtain ⟨hR', ho⟩ := ih hR hok.2
      rw [List.filter_cons_of_neg (by simp [hk])]
      exact ⟨hR', by rw [outs_cons, hobs, hnil, ho, List.nil_append]⟩
    | true =>
      obtain ⟨hR, heq⟩ := hkeep s t e h hok.1 hk
      obtain ⟨hR', ho⟩ := ih hR hok.2
      rw [List.filter_cons_of_pos hk]
      exact ⟨hR', by rw [outs_cons, outs_cons, hobs, hobs, heq, ho]⟩

/-! ### One step before another -/

variable (step) in
/-- A step with the property `Q` comes before every event with the property `B`. -/
def Before (Q : S → E → Prop) (B : E → Prop) (s : S) : List E → Prop
  | [] => False
  | e :: es => Q s e ∨ (¬ B e ∧ Before Q B (step s e).1 es)

lemma before_of_step {Q : S → E → Prop} {B : E → Prop} {s : S} {pre post : List E} {e : E}
    (hB : ∀ x ∈ pre, ¬ B x) (hQ : Q (exec step s pre) e) : Before step Q B s (pre ++ e :: post) := by
  induction pre generalizing s with
  | nil => exact .inl hQ
  | cons x pre ih =>
    exact .inr ⟨hB x (by simp), ih (fun y hy => hB y (by simp [hy])) hQ⟩

lemma Before.imp {Q Q' : S → E → Prop} {B K : E → Prop} {I : S → Prop}
    (hQ : ∀ s e, I s → Q s e → Q' s e) (hI : ∀ s e, I s → K e → ¬ B e → I (step s e).1) {s : S}
    (h : I s) {es : List E} (hK : ∀ e ∈ es, K e) (hes : Before step Q B s es) :
    Before step Q' B s es := by
  induction es generalizing s with
  | nil => exact hes
  | cons e es ih =>
    rcases hes with hq | ⟨hb, hrest⟩
    · exact .inl (hQ s e h hq)
    · exact .inr ⟨hb, ih (hI s e h (hK e (by simp)) hb) (fun e' he' => hK e' (by simp [he'])) hrest⟩

lemma Before.const {C : Prop} {B : E → Prop} {s : S} {es : List E}
    (h : Before step (fun _ _ => C) B s es) : C := by
  induction es generalizing s with
  | nil => exact h.elim
  | cons e es ih => exact h.elim id fun hrest => ih hrest.2

/-- **Something is emitted in time.** As long as `I` holds an output with the property `G` comes from
the steps with the property `Q` and no others; an event with the property `B` ends this, and then no
such output comes any more. -/
theorem exists_out_iff_before {I J : S → Prop} {Q : S → E → Prop} {B K : E → Prop} {G : O → Prop}
    (hQ : ∀ s e, I s → Q s e → ∃ o ∈ (step s e).2, G o)
    (hI : ∀ s e, I s → K e → ¬ Q s e → (∀ o ∈ (step s e).2, ¬ G o) ∧
      (B e → J (step s e).1) ∧ (¬ B e → I (step s e).1))
    (hJ : ∀ s e, J s → K e → (∀ o ∈ (step s e).2, ¬ G o) ∧ J (step s e).1)
    {s : S} (h : I s) {es : List E} (hK : ∀ e ∈ es, K e) :
    (∃ o ∈ outs step s es, G o) ↔ Before step Q B s es := by
  have hnever : ∀ {es : List E} {s : S}, J s → (∀ e ∈ es, K e) → ∀ o ∈ outs step s es, ¬ G o := by
    intro es
    induction es with
    | nil => simp
    | cons e es ih =>
      intro s hs hK o ho
      obtain ⟨hout, hnext⟩ := hJ s e hs (hK e (by simp))
      rcases List.mem_append.mp ho with ho | ho
      · exact hout o ho
      · exact ih hnext (fun e' he' => hK e' (by simp [he'])) o ho
  induction es generalizing s with
  | nil => simp [Before]
  | cons e es ih =>
    have hrest : ∀ e' ∈ es, K e' := fun e' he' => hK e' (by simp [he'])
    by_cases hq : Q s e
    · obtain ⟨o, ho, hG⟩ := hQ s e h hq
      exact ⟨fun _ => .inl hq, fun _ => ⟨o, List.mem_append_left _ ho, hG⟩⟩
    · obtain ⟨hout, hend, hgo⟩ := hI s e h (hK e (by simp)) hq
      constructor
      · rintro ⟨o, ho, hG⟩
        rcases List.mem_append.mp ho with ho | ho
        · exact absurd hG (hout o ho)
        · by_cases hb : B e
          · exact absurd hG (hnever (hend hb) hrest o ho)
          · exact .inr ⟨hb, (ih (hgo hb) hrest).mp ⟨o, ho, hG⟩⟩
      · rintro (hq' | ⟨hb, hbefore⟩)
        · exact absurd hq' hq
        · obtain ⟨o, ho, hG⟩ := (ih (hgo hb) hrest).mpr hbefore
          exact ⟨o, List.mem_append_right _ ho, hG⟩

/-! ### Histories -/

variable (step) in
/-- Every step of the run meets the condition `Ok` in the state it starts from and after what was
emitted before it. -/
def Guarded (Ok : S → List O → E → Prop) (s : S) (tr : List O) : List E → Prop
  | [] => True
  | e :: es => Ok s tr e ∧ Guarded Ok (step s e).1 (tr ++ (step s e).2) es

instance decidableGuarded (Ok : S → List O → E → Prop) [∀ s tr e, Decidable (Ok s tr e)] :
    ∀ s tr es, Decidable (Guarded step Ok s tr es)
  | _, _, [] => isTrue trivial
  | s, tr, e :: es =>
    have := decidableGuarded Ok (step s e).1 (tr ++ (step s e).2) es
    inferInstanceAs (Decidable (Ok s tr e ∧ Guarded step Ok (step s e).1 (tr ++ (step s e).2) es))

/-- An invariant of the state together with everything emitted so far. -/
theorem exec_outs_inv_of_guarded {I : S → List O → Prop} {Ok : S → List O → E → Prop}
    (hstep : ∀ s tr e, Ok s tr e → I s tr → I (step s e).1 (tr ++ (step s e).2)) {s : S}
    {tr : List O} (h : I s tr) {es : List E} (hok : Guarded step Ok s tr es) :
    I (exec step s es) (tr ++ outs step s es) := by
  induction es generalizing s tr with
  | nil => simpa using h
  | cons e es ih =>
    have hnext := hstep s tr e hok.1 h
    have hrest := ih hnext hok.2
    rwa [List.append_assoc] at hrest

lemma guarded_of_steps {Ok : S → E → Prop} {s : S} {es : List E} (h : Steps step Ok s es)
    (tr : List O) : Guarded step (fun s _ e => Ok s e) s tr es := by
  induction es generalizing s tr with
  | nil => trivial
  | cons e es ih => exact ⟨h.1, ih h.2 _⟩

/-- A condition on the steps and one that also reads what was emitted before are the same along every
run, if an invariant of both makes them the same at every step. -/
theorem steps_iff_guarded {I : S → List O → Prop} {P : S → E → Prop} {Ok : S → List O → E → Prop}
    (hstep : ∀ s tr e, I s tr → I (step s e).1 (tr ++ (step s e).2))
    (hiff : ∀ s tr e, I s tr → (P s e ↔ Ok s tr e)) {s : S} {tr : List O} (h : I s tr)
    (es : List E) : Steps step P s es ↔ Guarded step Ok s tr es := by
  induction es generalizing s tr with
  | nil => exact Iff.rfl
  | cons e es ih => exact and_congr (hiff s tr e h) (ih (hstep s tr e h))

theorem exec_outs_inv_of_steps {I : S → List O → Prop} {Ok : S → E → Prop}
    (hstep : ∀ s tr e, Ok s e → I s tr → I (step s e).1 (tr ++ (step s e).2)) {s : S} {tr : List O}
    (h : I s tr) {es : List E} (hok : Steps step Ok s es) :
    I (exec step s es) (tr ++ outs step s es) :=
  exec_outs_inv_of_guarded hstep h (guarded_of_steps hok tr)

theorem exec_outs_inv {I : S → List O → Prop} {Q : E → Prop}
    (hstep : ∀ s tr e, Q e → I s tr → I (step s e).1 (tr ++ (step s e).2)) {s : S} {tr : List O}
    (h : I s tr) {es : List E} (hQ : ∀ e ∈ es, Q e) : I (exec step s es) (tr ++ outs step s es) :=
  exec_outs_inv_of_steps (fun s tr e hq => hstep s tr e hq.2) h (steps_and (steps_true s es) hQ)

/-- Every output of a history meets `P` given the outputs before it. -/
def Legal (P : List O → O → Prop) (tr : List O) : Prop :=
  ∀ pre o post, tr = pre ++ o :: post → P pre o

lemma legal_append {P : List O → O → Prop} {tr os : List O} (h : Legal P tr)
    (hos : ∀ pre o post, os = pre ++ o :: post → P (tr ++ pre) o) : Legal P (tr ++ os) := by
  intro pre o post heq
  rcases List.append_eq_append_iff.mp heq with ⟨mid, rfl, hmid⟩ | ⟨mid, htr, hmid⟩
  · exact hos mid o post hmid
  · cases mid with
    | nil =>
      have hpre : pre = tr := by simpa using htr.symm
      subst hpre
      simpa using hos [] o post (by simpa using hmid.symm)
    | cons x mid =>
      obtain ⟨rfl, -⟩ := List.cons.inj hmid
      exact h pre o mid htr

lemma legal_snoc {P : List O → O → Prop} {tr : List O} (h : Legal P tr) {o : O} (ho : P tr o) :
    Legal P (tr ++ [o]) := by
  refine legal_append h fun pre o' post heq => ?_
  rcases List.singleton_eq_append_iff.mp heq with ⟨rfl, hcons⟩ | ⟨-, hnil⟩
  · obtain ⟨rfl, -⟩ := List.cons.inj hcons
    simpa using ho
  · cases hnil

lemma legal_of_mem {P : List O → O → Prop} {tr : List O} (h : Legal P tr) {o : O} (ho : o ∈ tr) :
    ∃ pre post, tr = pre ++ o :: post ∧ P pre o := by
  obtain ⟨pre, post, htr⟩ := List.append_of_mem ho
  exact ⟨pre, post, htr, h pre o post htr⟩

lemma exists_last {G : O → Prop} {tr : List O} (h : ∃ o ∈ tr, G o) :
    ∃ pre o post, tr = pre ++ o :: post ∧ G o ∧ ∀ x ∈ post, ¬ G x := by
  induction tr with
  | nil => simp at h
  | cons o tr ih =>
    by_cases hrest : ∃ x ∈ tr, G x
    · obtain ⟨pre, x, post, rfl, hx, hpost⟩ := ih hrest
      exact ⟨o :: pre, x, post, rfl, hx, hpost⟩
    · push Not at hrest
      obtain ⟨x, hx, hG⟩ := h
      rcases List.mem_cons.mp hx with rfl | hx
      · exact ⟨[], x, tr, rfl, hG, hrest⟩
      · exact absurd hG (hrest x hx)

lemma pair_sublist {a b : O} {pre post : List O} (ha : a ∈ pre) :
    [a, b].Sublist (pre ++ b :: post) :=
  List.Sublist.append (List.singleton_sublist.mpr ha)
    (List.singleton_sublist.mpr (List.mem_cons_self ..))

/-- What follows the only occurrence of `a`. -/
lemma mem_of_sublist_pair {a b : O} {pre post : List O} (ha : a ∉ pre)
    (h : [a, b].Sublist (pre ++ a :: post)) : b ∈ post := by
  induction pre with
  | nil =>
    rw [List.nil_append, List.cons_sublist_cons, List.singleton_sublist] at h
    exact h
  | cons x pre ih =>
    have hx : a ≠ x := fun hax => ha (by simp [hax])
    refine ih (fun hpre => ha (by simp [hpre])) ?_
    rw [List.cons_append, List.sublist_cons_iff] at h
    rcases h with h | ⟨r, hr, -⟩
    · exact h
    · exact absurd (List.cons.inj hr).1 hx

/-! ### Refinement -/

section Follow

variable {A : Type*} (accept : A → O → Option A)

/-- The abstract machine follows a list of outputs, as long as it refuses none. -/
def follow (a : A) : List O → Option A
  | [] => some a
  | o :: os => (accept a o).bind fun a' => follow a' os

@[simp] lemma follow_nil (a : A) : follow accept a [] = some a := rfl
@[simp] lemma follow_cons (a : A) (o : O) (os : List O) :
    follow accept a (o :: os) = (accept a o).bind fun a' => follow accept a' os := rfl

lemma follow_append (a : A) (os os' : List O) :
    follow accept a (os ++ os') = (follow accept a os).bind fun a' => follow accept a' os' := by
  induction os generalizing a with
  | nil => rfl
  | cons o os ih =>
    rw [List.cons_append, follow_cons, follow_cons, Option.bind_assoc]
    exact Option.bind_congr fun a' _ => ih a'

variable {accept}

/-- **Simulation.** If the abstract machine can follow what every step emits, back into the
relation `R`, it can follow what every run emits. -/
theorem simulates {R : S → A → Prop}
    (hstep : ∀ s a e, R s a → ∃ a', follow accept a (step s e).2 = some a' ∧ R (step s e).1 a')
    {s : S} {a : A} (h : R s a) (es : List E) :
    ∃ a', follow accept a (outs step s es) = some a' ∧ R (exec step s es) a' := by
  induction es generalizing s a with
  | nil => exact ⟨a, rfl, h⟩
  | cons e es ih =>
    obtain ⟨a₁, ha₁, h₁⟩ := hstep s a e h
    obtain ⟨a₂, ha₂, h₂⟩ := ih h₁
    refine ⟨a₂, ?_, h₂⟩
    rw [outs_cons, follow_append, ha₁]
    exact ha₂

end Follow

end SyncClipboard.Run
