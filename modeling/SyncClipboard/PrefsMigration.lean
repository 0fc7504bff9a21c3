import Mathlib.Data.Int.Notation
import Mathlib.Data.List.Nodup
import Mathlib.Logic.Function.Basic
import SyncClipboard.Run

/-!
How the Android client moves its old settings into the encrypted store.

`apply` changes the memory at once and the file some time later; `deleteSharedPreferences` deletes the
file at once. So the old file may be gone before the new one is written, and a process that is killed
then has lost the settings. In every other run they arrive, and the user's changes are never written
over (`migration_survives`).
-/

namespace SyncClipboard.PrefsMigration

inductive Value
  | string (s : String)
  | int (n : ℤ)
  | long (n : ℤ)
  | boolean (b : Bool)
  | float (bits : UInt32)
  | stringSet (s : List String)
  deriving DecidableEq

/-- `KEY_MIGRATED`. -/
def keyMigrated : String := "_migrated_v2"

/-- The keys of the typed accessors. -/
def accessorKeys : List String :=
  ["server_host", "server_port", "server_path", "use_tls", "username", "password", "aes_key", "device_id",
    "file_transfer_level", "max_transfer_size_mb", "last_ws_status", "access_token", "refresh_token",
    "access_token_exp"]

/-- The old settings; `all` is a map. -/
structure Legacy where
  entries : List (String × Value)
  distinct : (entries.map Prod.fst).Nodup

abbrev Prefs := String → Option Value

/-- `prefs.getBoolean(KEY_MIGRATED, false)`. -/
def Migrated (m : Prefs) : Prop := m keyMigrated = some (.boolean true)

instance (m : Prefs) : Decidable (Migrated m) := inferInstanceAs (Decidable (_ = _))

/-- Where the process is in `migrateLegacyPrefsIfNeeded`. -/
inductive Pc
  | down
  | readFlag
  | readLegacy
  | put (all : List (String × Value))
  | mark
  | clear
  | delete
  /-- the store can be used -/
  | ready
  deriving DecidableEq

structure St where
  encDisk : Prefs
  encMem : Prefs
  /-- what `apply` has still to write, in order -/
  encPending : List Prefs
  legacyDisk : List (String × Value)
  legacyMem : List (String × Value)
  /-- the empty file is still to be written -/
  legacyPending : Bool
  pc : Pc

def start (legacy : Legacy) : St where
  encDisk := fun _ => none
  encMem := fun _ => none
  encPending := []
  legacyDisk := legacy.entries
  legacyMem := []
  legacyPending := false
  pc := .down

inductive Event
  /-- the process starts and makes a store -/
  | boot
  /-- another store is made in the same process -/
  | construct
  | advance
  | writeEnc
  | writeLegacy
  | kill
  /-- an accessor -/
  | set (key : String) (v : Value)
  deriving DecidableEq

inductive Out
  | copied
  | changed (key : String)
  deriving DecidableEq

/-- The branches of `when (v)`. -/
def putEntry (m : Prefs) (e : String × Value) : Prefs :=
  match e.2 with
  | .stringSet _ => m
  | v => Function.update m e.1 (some v)

def putFlag (m : Prefs) : Prefs := Function.update m keyMigrated (some (.boolean true))

/-- `apply`. -/
def St.apply (s : St) (m : Prefs) : St := { s with encMem := m, encPending := s.encPending ++ [m] }

/-- The next step of `migrateLegacyPrefsIfNeeded`. -/
def advance (s : St) : St × List Out :=
  match s.pc with
  | .down => (s, [])
  | .readFlag => ({ s with pc := if Migrated s.encMem then .ready else .readLegacy }, [])
  | .readLegacy => ({ s with pc := if s.legacyMem = [] then .mark else .put s.legacyMem }, [])
  | .put all => ({ s.apply (putFlag (all.foldl putEntry s.encMem)) with pc := .clear }, [.copied])
  | .mark => ({ s.apply (putFlag s.encMem) with pc := .ready }, [])
  | .clear => ({ s with legacyMem := [], legacyPending := true, pc := .delete }, [])
  | .delete => ({ s with legacyMem := [], legacyDisk := [], pc := .ready }, [])
  | .ready => (s, [])

def step (s : St) : Event → St × List Out
  | .boot =>
    if s.pc = .down then
      ({ s with encMem := s.encDisk, legacyMem := s.legacyDisk, pc := .readFlag }, [])
    else (s, [])
  | .construct => if s.pc = .ready then ({ s with pc := .readFlag }, []) else (s, [])
  | .advance => advance s
  | .writeEnc =>
    match s.encPending with
    | m :: rest => ({ s with encDisk := m, encPending := rest }, [])
    | [] => (s, [])
  | .writeLegacy =>
    if s.legacyPending then ({ s with legacyDisk := [], legacyPending := false }, []) else (s, [])
  | .kill => ({ s with encPending := [], legacyPending := false, pc := .down }, [])
  | .set key v =>
    if s.pc = .ready ∧ key ∈ accessorKeys then (s.apply (Function.update s.encMem key (some v)), [.changed key])
    else (s, [])

abbrev exec (legacy : Legacy) (es : List Event) : St := Run.exec step (start legacy) es
abbrev outs (legacy : Legacy) (es : List Event) : List Out := Run.outs step (start legacy) es

/-- The process starts if it is down, and goes on until the settings are written. -/
def recovery : List Event := .boot :: List.replicate 5 .advance ++ [.writeEnc]

/-- The old file is gone and the new one is not written. -/
def Exposed (legacy : Legacy) (s : St) : Prop :=
  legacy.entries ≠ [] ∧ s.legacyDisk = [] ∧ ¬ Migrated s.encDisk

/-- The process is not killed while the settings are in its memory only. -/
def Spared (legacy : Legacy) (s : St) (e : Event) : Prop := e = .kill → ¬ Exposed legacy s

instance (legacy : Legacy) (s : St) (e : Event) : Decidable (Spared legacy s e) :=
  inferInstanceAs (Decidable (_ → ¬ (_ ∧ _ ∧ ¬ _)))

/-! ### The migration and its steps -/

/-- What holds in every run. -/
structure Ordered (s : St) : Prop where
  /-- nothing is written before the flag -/
  pending : ∀ m ∈ s.encPending, Migrated m
  /-- the flag stays -/
  kept : s.pc ≠ .down → Migrated s.encDisk → Migrated s.encMem
  down : s.pc = .down → s.encPending = [] ∧ s.legacyPending = false
  /-- until the flag is set nothing has changed -/
  before : s.pc ≠ .down → ¬ Migrated s.encMem →
    s.encPending = [] ∧ s.legacyMem = s.legacyDisk ∧ s.legacyPending = false ∧
      (s.pc = .readFlag ∨ s.pc = .readLegacy ∨ s.pc = .mark ∧ s.legacyMem = [] ∨
        s.pc = .put s.legacyMem ∧ s.legacyMem ≠ [])
  /-- once it is set the old file is gone, or will be, or the flag is on the disk -/
  after : s.pc ≠ .down → Migrated s.encMem →
    (s.pc = .readFlag ∨ s.pc = .ready) ∧ (Migrated s.encDisk ∨ s.legacyDisk = [] ∧ s.legacyMem = []) ∨
      s.pc = .clear ∨ s.pc = .delete
  /-- what is not on the disk is to be written -/
  waiting : s.pc ≠ .down → Migrated s.encMem → ¬ Migrated s.encDisk → s.encPending ≠ []

lemma ordered_start (legacy : Legacy) : Ordered (start legacy) where
  pending := by simp [start]
  kept := fun h => absurd rfl h
  down := fun _ => ⟨rfl, rfl⟩
  before := fun h => absurd rfl h
  after := fun h => absurd rfl h
  waiting := fun h => absurd rfl h

lemma migrated_putFlag (m : Prefs) : Migrated (putFlag m) := Function.update_self ..

lemma migrated_update {m : Prefs} {key : String} (hkey : key ∈ accessorKeys) (v : Value) :
    Migrated (Function.update m key (some v)) ↔ Migrated m := by
  have hne : keyMigrated ≠ key := by
    rintro rfl
    revert hkey
    decide
  rw [Migrated, Function.update_of_ne hne, Migrated]

variable {s : St}

lemma Ordered.pending_apply (h : Ordered s) {m : Prefs} (hm : Migrated m) :
    ∀ m' ∈ (s.apply m).encPending, Migrated m' := by
  intro m' hm'
  rcases List.mem_append.mp hm' with hm' | hm'
  · exact h.pending m' hm'
  · rwa [List.mem_singleton.mp hm']

lemma Ordered.not_migrated (h : Ordered s) (hpc : s.pc = .readLegacy ∨ s.pc = .mark ∨ ∃ all, s.pc = .put all) :
    ¬ Migrated s.encMem := by
  intro hm
  have halive : s.pc ≠ .down := by rcases hpc with hpc | hpc | ⟨all, hpc⟩ <;> simp [hpc]
  rcases h.after halive hm with ⟨hwhere | hwhere, -⟩ | hwhere | hwhere <;>
    rcases hpc with hpc | hpc | ⟨all, hpc⟩ <;> simp [hpc] at hwhere

lemma Ordered.migrated (h : Ordered s) (hpc : s.pc = .clear ∨ s.pc = .delete ∨ s.pc = .ready) :
    Migrated s.encMem := by
  by_contra hm
  have halive : s.pc ≠ .down := by rcases hpc with hpc | hpc | hpc <;> simp [hpc]
  obtain ⟨-, -, -, hwhere | hwhere | ⟨hwhere, -⟩ | ⟨hwhere, -⟩⟩ := h.before halive hm <;>
    rcases hpc with hpc | hpc | hpc <;> simp [hpc] at hwhere

lemma Ordered.of_put (h : Ordered s) {all : List (String × Value)} (hpc : s.pc = .put all) :
    ¬ Migrated s.encMem ∧ all = s.legacyMem ∧ s.legacyMem = s.legacyDisk ∧ s.legacyMem ≠ [] := by
  have halive : s.pc ≠ .down := by simp [hpc]
  have hm := h.not_migrated (.inr (.inr ⟨all, hpc⟩))
  obtain ⟨-, hmem, -, hno | hno | ⟨hno, -⟩ | ⟨hput, hsome⟩⟩ := h.before halive hm
  · simp [hpc] at hno
  · simp [hpc] at hno
  · simp [hpc] at hno
  · rw [hpc] at hput
    exact ⟨hm, Pc.put.inj hput, hmem, hsome⟩

lemma Ordered.of_mark (h : Ordered s) (hpc : s.pc = .mark) :
    ¬ Migrated s.encMem ∧ s.legacyMem = [] ∧ s.legacyDisk = [] := by
  have halive : s.pc ≠ .down := by simp [hpc]
  have hm := h.not_migrated (.inr (.inl hpc))
  obtain ⟨-, hmem, -, hno | hno | ⟨-, hempty⟩ | ⟨hno, -⟩⟩ := h.before halive hm
  · simp [hpc] at hno
  · simp [hpc] at hno
  · exact ⟨hm, hempty, hmem.symm.trans hempty⟩
  · simp [hpc] at hno

lemma Ordered.settled (h : Ordered s) (hpc : s.pc = .readFlag ∨ s.pc = .ready) (hm : Migrated s.encMem) :
    Migrated s.encDisk ∨ s.legacyDisk = [] ∧ s.legacyMem = [] := by
  have halive : s.pc ≠ .down := by rcases hpc with hpc | hpc <;> simp [hpc]
  rcases h.after halive hm with ⟨-, hdone⟩ | hno | hno
  · exact hdone
  · rcases hpc with hpc | hpc <;> simp [hpc] at hno
  · rcases hpc with hpc | hpc <;> simp [hpc] at hno

lemma Ordered.advance (h : Ordered s) : Ordered (advance s).1 := by
  unfold PrefsMigration.advance
  cases hpc : s.pc with
  | down => exact h
  | ready => exact h
  | readFlag =>
    have halive : s.pc ≠ .down := by simp [hpc]
    dsimp only
    by_cases hm : Migrated s.encMem
    · rw [if_pos hm]
      exact ⟨h.pending, fun _ => h.kept halive, nofun, fun _ hnot => absurd hm hnot,
        fun _ _ => .inl ⟨.inr rfl, h.settled (.inl hpc) hm⟩, fun _ => h.waiting halive⟩
    · rw [if_neg hm]
      obtain ⟨hpending, hmem, hleg, -⟩ := h.before halive hm
      exact ⟨h.pending, fun _ => h.kept halive, nofun, fun _ _ => ⟨hpending, hmem, hleg, .inr (.inl rfl)⟩,
        fun _ hyes => absurd hyes hm, fun _ => h.waiting halive⟩
  | readLegacy =>
    have halive : s.pc ≠ .down := by simp [hpc]
    have hm := h.not_migrated (.inl hpc)
    obtain ⟨hpending, hmem, hleg, -⟩ := h.before halive hm
    dsimp only
    by_cases hempty : s.legacyMem = []
    · rw [if_pos hempty]
      exact ⟨h.pending, fun _ => h.kept halive, nofun,
        fun _ _ => ⟨hpending, hmem, hleg, .inr (.inr (.inl ⟨rfl, hempty⟩))⟩, fun _ hyes => absurd hyes hm,
        fun _ => h.waiting halive⟩
    · rw [if_neg hempty]
      exact ⟨h.pending, fun _ => h.kept halive, nofun,
        fun _ _ => ⟨hpending, hmem, hleg, .inr (.inr (.inr ⟨rfl, hempty⟩))⟩, fun _ hyes => absurd hyes hm,
        fun _ => h.waiting halive⟩
  | put all =>
    have hflag := migrated_putFlag (all.foldl putEntry s.encMem)
    exact ⟨h.pending_apply hflag, fun _ _ => hflag, nofun, fun _ hnot => absurd hflag hnot,
      fun _ _ => .inr (.inl rfl), fun _ _ _ => List.append_ne_nil_of_right_ne_nil _ (List.cons_ne_nil _ _)⟩
  | mark =>
    obtain ⟨-, hempty, hgone⟩ := h.of_mark hpc
    have hflag := migrated_putFlag s.encMem
    exact ⟨h.pending_apply hflag, fun _ _ => hflag, nofun, fun _ hnot => absurd hflag hnot,
      fun _ _ => .inl ⟨.inr rfl, .inr ⟨hgone, hempty⟩⟩,
      fun _ _ _ => List.append_ne_nil_of_right_ne_nil _ (List.cons_ne_nil _ _)⟩
  | clear =>
    have halive : s.pc ≠ .down := by simp [hpc]
    have hm := h.migrated (.inl hpc)
    exact ⟨h.pending, fun _ _ => hm, nofun, fun _ hnot => absurd hm hnot, fun _ _ => .inr (.inr rfl),
      fun _ => h.waiting halive⟩
  | delete =>
    have halive : s.pc ≠ .down := by simp [hpc]
    have hm := h.migrated (.inr (.inl hpc))
    exact ⟨h.pending, fun _ _ => hm, nofun, fun _ hnot => absurd hm hnot,
      fun _ _ => .inl ⟨.inr rfl, .inr ⟨rfl, rfl⟩⟩, fun _ => h.waiting halive⟩

lemma Ordered.writeEnc (h : Ordered s) {m : Prefs} {rest : List Prefs} (hpending : s.encPending = m :: rest) :
    Ordered { s with encDisk := m, encPending := rest } := by
  have hm : Migrated m := h.pending m (by simp [hpending])
  have halive : s.pc ≠ .down := by
    intro hdown
    simp [(h.down hdown).1] at hpending
  -- something is applied only once the flag is set
  have hmem : Migrated s.encMem := by
    by_contra hnot
    simp [(h.before halive hnot).1] at hpending
  refine ⟨fun m' hm' => h.pending m' (by simp [hpending, hm']), fun _ _ => hmem, fun hdown => absurd hdown halive,
    fun _ hnot => absurd hmem hnot, fun _ _ => ?_, fun _ _ hnot => absurd hm hnot⟩
  rcases h.after halive hmem with ⟨hwhere, -⟩ | hwhere
  · exact .inl ⟨hwhere, .inl hm⟩
  · exact .inr hwhere

lemma Ordered.writeLegacy (h : Ordered s) (hpending : s.legacyPending = true) :
    Ordered { s with legacyDisk := [], legacyPending := false } := by
  have halive : s.pc ≠ .down := by
    intro hdown
    simp [(h.down hdown).2] at hpending
  have hmem : Migrated s.encMem := by
    by_contra hnot
    simp [(h.before halive hnot).2.2.1] at hpending
  refine ⟨h.pending, h.kept, fun hdown => absurd hdown halive, fun _ hnot => absurd hmem hnot, fun _ _ => ?_, h.waiting⟩
  rcases h.after halive hmem with ⟨hwhere, hdisk | ⟨-, hgone⟩⟩ | hwhere
  · exact .inl ⟨hwhere, .inl hdisk⟩
  · exact .inl ⟨hwhere, .inr ⟨rfl, hgone⟩⟩
  · exact .inr hwhere

lemma Ordered.step (h : Ordered s) (e : Event) : Ordered (step s e).1 := by
  cases e with
  | boot =>
    simp only [PrefsMigration.step]
    split_ifs with hdown
    · obtain ⟨hpending, hleg⟩ := h.down hdown
      exact ⟨h.pending, fun _ hm => hm, nofun, fun _ _ => ⟨hpending, rfl, hleg, .inl rfl⟩,
        fun _ hm => .inl ⟨.inl rfl, .inl hm⟩, fun _ hm hnot => absurd hm hnot⟩
    · exact h
  | construct =>
    simp only [PrefsMigration.step]
    split_ifs with hready
    · have halive : s.pc ≠ .down := by simp [hready]
      have hm := h.migrated (.inr (.inr hready))
      exact ⟨h.pending, fun _ => h.kept halive, nofun, fun _ hnot => absurd hm hnot,
        fun _ _ => .inl ⟨.inl rfl, h.settled (.inr hready) hm⟩, fun _ => h.waiting halive⟩
    · exact h
  | advance => exact h.advance
  | writeEnc =>
    simp only [PrefsMigration.step]
    cases hpending : s.encPending with
    | nil => exact h
    | cons m rest => exact h.writeEnc hpending
  | writeLegacy =>
    simp only [PrefsMigration.step]
    split_ifs with hpending
    · exact h.writeLegacy hpending
    · exact h
  | kill =>
    exact ⟨by simp [PrefsMigration.step], fun halive => absurd rfl halive, fun _ => ⟨rfl, rfl⟩,
      fun halive => absurd rfl halive, fun halive => absurd rfl halive, fun halive => absurd rfl halive⟩
  | set key v =>
    simp only [PrefsMigration.step]
    split_ifs with hset
    · obtain ⟨hready, hkey⟩ := hset
      have halive : s.pc ≠ .down := by simp [hready]
      have hm := (migrated_update hkey v).mpr (h.migrated (.inr (.inr hready)))
      exact ⟨h.pending_apply hm, fun _ _ => hm, fun hdown => absurd hdown halive, fun _ hnot => absurd hm hnot,
        fun _ _ => h.after halive (h.migrated (.inr (.inr hready))),
        fun _ _ _ => List.append_ne_nil_of_right_ne_nil _ (List.cons_ne_nil _ _)⟩
    · exact h

/-! ### No second migration after a change -/

/-- Nothing is left to copy, or the flag is on the disk. -/
def Over (s : St) : Prop :=
  Migrated s.encDisk ∨ s.legacyDisk = [] ∧ (s.pc ≠ .down → s.legacyMem = [])

lemma Ordered.over (h : Ordered s) (hready : s.pc = .ready) : Over s := by
  rcases h.settled (.inr hready) (h.migrated (.inr (.inr hready))) with hdisk | ⟨hgone, hmem⟩
  · exact .inl hdisk
  · exact .inr ⟨hgone, fun _ => hmem⟩

lemma Over.pc_ne_put (ho : Over s) (h : Ordered s) (all : List (String × Value)) : s.pc ≠ .put all := by
  intro hpc
  have halive : s.pc ≠ .down := by simp [hpc]
  obtain ⟨hm, -, -, hsome⟩ := h.of_put hpc
  rcases ho with hdisk | ⟨-, hempty⟩
  · exact hm (h.kept halive hdisk)
  · exact hsome (hempty halive)

lemma Over.advance (ho : Over s) (h : Ordered s) : Over (advance s).1 ∧ (advance s).2 = [] := by
  unfold PrefsMigration.advance
  cases hpc : s.pc with
  | put all => exact absurd hpc (ho.pc_ne_put h all)
  | delete => exact ⟨.inr ⟨rfl, fun _ => rfl⟩, rfl⟩
  | clear =>
    rcases ho with hdisk | ⟨hgone, -⟩
    · exact ⟨.inl hdisk, rfl⟩
    · exact ⟨.inr ⟨hgone, fun _ => rfl⟩, rfl⟩
  | _ =>
    rcases ho with hdisk | ⟨hgone, hmem⟩
    · exact ⟨.inl hdisk, rfl⟩
    · exact ⟨.inr ⟨hgone, fun _ => hmem (by simp_all)⟩, rfl⟩

lemma Over.step (ho : Over s) (h : Ordered s) (e : Event) : Over (step s e).1 ∧ .copied ∉ (step s e).2 := by
  cases e with
  | boot =>
    simp only [PrefsMigration.step]
    split_ifs with hdown
    · rcases ho with hdisk | ⟨hgone, -⟩
      · exact ⟨.inl hdisk, by simp⟩
      · exact ⟨.inr ⟨hgone, fun _ => hgone⟩, by simp⟩
    · exact ⟨ho, by simp⟩
  | construct =>
    simp only [PrefsMigration.step]
    split_ifs with hready
    · rcases ho with hdisk | ⟨hgone, hmem⟩
      · exact ⟨.inl hdisk, by simp⟩
      · exact ⟨.inr ⟨hgone, fun _ => hmem (by simp [hready])⟩, by simp⟩
    · exact ⟨ho, by simp⟩
  | advance =>
    obtain ⟨hover, hnone⟩ := ho.advance h
    exact ⟨hover, by simp [PrefsMigration.step, hnone]⟩
  | writeEnc =>
    simp only [PrefsMigration.step]
    cases hpending : s.encPending with
    | nil => exact ⟨ho, by simp⟩
    | cons m rest => exact ⟨.inl (h.pending m (by simp [hpending])), by simp⟩
  | writeLegacy =>
    simp only [PrefsMigration.step]
    split_ifs with hpending
    · rcases ho with hdisk | ⟨-, hmem⟩
      · exact ⟨.inl hdisk, by simp⟩
      · exact ⟨.inr ⟨rfl, hmem⟩, by simp⟩
    · exact ⟨ho, by simp⟩
  | kill =>
    rcases ho with hdisk | ⟨hgone, -⟩
    · exact ⟨.inl hdisk, by simp [PrefsMigration.step]⟩
    · exact ⟨.inr ⟨hgone, fun halive => absurd rfl halive⟩, by simp [PrefsMigration.step]⟩
  | set key v =>
    simp only [PrefsMigration.step]
    split_ifs with hset
    · exact ⟨ho, by simp⟩
    · exact ⟨ho, by simp⟩

/-- The settings are copied only before the user has changed anything. -/
def Uncopied (tr : List Out) : Prop := Run.Legal (fun pre o => o = .copied → ∀ key, .changed key ∉ pre) tr

/-- Only an accessor, in a store that can be used, reports a change. -/
lemma changed_mem_step {e : Event} {key : String} (h : .changed key ∈ (step s e).2) :
    s.pc = .ready ∧ key ∈ accessorKeys ∧ (∃ v, e = .set key v) ∧ (step s e).2 = [.changed key] := by
  cases e with
  | set key' v =>
    simp only [step] at h ⊢
    split_ifs at h ⊢ with hset
    · obtain rfl : key = key' := by simpa using h
      exact ⟨hset.1, hset.2, ⟨v, rfl⟩, rfl⟩
    · simp at h
  | advance =>
    simp only [step, advance] at h
    split at h <;> simp at h
  | boot =>
    simp only [step] at h
    split_ifs at h <;> simp at h
  | construct =>
    simp only [step] at h
    split_ifs at h <;> simp at h
  | writeEnc =>
    simp only [step] at h
    split at h <;> simp at h
  | writeLegacy =>
    simp only [step] at h
    split_ifs at h <;> simp at h
  | kill => simp [step] at h

lemma outs_length_le (s : St) (e : Event) : (step s e).2.length ≤ 1 := by
  cases e with
  | advance =>
    simp only [step, advance]
    split <;> simp
  | writeEnc =>
    simp only [step]
    split <;> simp
  | kill => simp [step]
  | boot | construct | writeLegacy | set =>
    simp only [step]
    split_ifs <;> simp

lemma uncopied (legacy : Legacy) (es : List Event) : Uncopied (outs legacy es) := by
  have hinv := @Run.exec_outs_inv _ _ _ step
    (fun s tr => Ordered s ∧ Uncopied tr ∧ ((∃ key, .changed key ∈ tr) → Over s)) (fun _ => True) ?_ (start legacy) []
    ⟨ordered_start legacy, fun _ _ _ h => absurd h (by simp), by simp⟩ es fun _ _ => trivial
  · rw [List.nil_append] at hinv
    exact hinv.2.1
  rintro s tr e - ⟨hordered, hlegal, hover⟩
  have hstep : (∃ key, .changed key ∈ tr ++ (step s e).2) → Over (step s e).1 := by
    rintro ⟨key, hkey⟩
    have ho : Over s := by
      rcases List.mem_append.mp hkey with hkey | hkey
      · exact hover ⟨key, hkey⟩
      · exact hordered.over (changed_mem_step hkey).1
    exact (ho.step hordered e).1
  refine ⟨hordered.step e, ?_, hstep⟩
  have hlen := outs_length_le s e
  cases hos : (step s e).2 with
  | nil => rwa [List.append_nil]
  | cons o os =>
    rw [hos, List.length_cons] at hlen
    obtain rfl : os = [] := List.eq_nil_of_length_eq_zero (by omega)
    refine Run.legal_snoc hlegal ?_
    rintro rfl key hkey
    exact ((hover ⟨key, hkey⟩).step hordered e).2 (by simp [hos])

/-! ### The settings arrive -/

/-- The settings that the user has not changed are there. -/
def Carries (legacy : Legacy) (tr : List Out) (m : Prefs) : Prop :=
  ∀ k v, (k, v) ∈ legacy.entries → .changed k ∉ tr → m k = some v

lemma Carries.append {legacy : Legacy} {tr : List Out} {m : Prefs} (h : Carries legacy tr m) (os : List Out) :
    Carries legacy (tr ++ os) m :=
  fun k v hkv hno => h k v hkv fun hin => hno (List.mem_append_left _ hin)

lemma foldl_putEntry_of_notMem {l : List (String × Value)} {k : String} (hk : k ∉ l.map Prod.fst) (m : Prefs) :
    l.foldl putEntry m k = m k := by
  induction l generalizing m with
  | nil => rfl
  | cons e l ih =>
    rw [List.map_cons, List.mem_cons, not_or] at hk
    rw [List.foldl_cons, ih hk.2]
    obtain ⟨k', v⟩ := e
    cases v with
    | stringSet x => rfl
    | _ => exact Function.update_of_ne hk.1 _ _

lemma foldl_putEntry_of_mem {l : List (String × Value)} (hdistinct : (l.map Prod.fst).Nodup) {k : String} {v : Value}
    (hkv : (k, v) ∈ l) (hv : ∀ x, v ≠ .stringSet x) (m : Prefs) : l.foldl putEntry m k = some v := by
  induction l generalizing m with
  | nil => cases hkv
  | cons e l ih =>
    obtain ⟨he, hrest⟩ := List.nodup_cons.mp hdistinct
    rw [List.foldl_cons]
    rcases List.mem_cons.mp hkv with rfl | hkv
    · rw [foldl_putEntry_of_notMem he]
      cases v with
      | stringSet x => exact absurd rfl (hv x)
      | _ => exact Function.update_self ..
    · exact ih hrest hkv _

variable {legacy : Legacy} {tr : List Out}

/-- The old settings are of the five types, and none has the name of the flag. -/
def Movable (legacy : Legacy) : Prop :=
  ∀ k v, (k, v) ∈ legacy.entries → k ≠ keyMigrated ∧ ∀ x, v ≠ .stringSet x

lemma carries_put (hmove : Movable legacy) (tr : List Out) (m : Prefs) :
    Carries legacy tr (putFlag (legacy.entries.foldl putEntry m)) := by
  intro k v hkv _
  obtain ⟨hne, hv⟩ := hmove k v hkv
  rw [putFlag, Function.update_of_ne hne]
  exact foldl_putEntry_of_mem legacy.distinct hkv hv m

/-- What holds in a run in which the process is spared. -/
structure Inv (legacy : Legacy) (s : St) (tr : List Out) : Prop where
  ordered : Ordered s
  oldDisk : s.legacyDisk = legacy.entries ∨ s.legacyDisk = []
  disk : Migrated s.encDisk → Carries legacy tr s.encDisk
  mem : s.pc ≠ .down → Migrated s.encMem → Carries legacy tr s.encMem
  pending : ∀ m ∈ s.encPending, Carries legacy tr m
  down : s.pc = .down → ¬ Migrated s.encDisk → s.legacyDisk = legacy.entries
  up : s.pc ≠ .down → ¬ Migrated s.encMem → s.legacyDisk = legacy.entries

lemma inv_start (legacy : Legacy) : Inv legacy (start legacy) [] where
  ordered := ordered_start legacy
  oldDisk := .inl rfl
  disk := nofun
  mem := fun h => absurd rfl h
  pending := by simp [start]
  down := fun _ _ => rfl
  up := fun h => absurd rfl h

lemma Inv.pending_apply (h : Inv legacy s tr) {m : Prefs} {os : List Out} (hm : Carries legacy (tr ++ os) m) :
    ∀ m' ∈ (s.apply m).encPending, Carries legacy (tr ++ os) m' := by
  intro m' hm'
  rcases List.mem_append.mp hm' with hm' | hm'
  · exact (h.pending m' hm').append os
  · rwa [List.mem_singleton.mp hm']

lemma advance_pc_ne_down (halive : s.pc ≠ .down) : (advance s).1.pc ≠ .down := by
  unfold advance
  cases hpc : s.pc with
  | down => exact absurd hpc halive
  | readFlag | readLegacy =>
    dsimp only
    split_ifs <;> simp
  | ready => exact halive
  | _ => simp

lemma Inv.advance (h : Inv legacy s tr) (hmove : Movable legacy) :
    Inv legacy (advance s).1 (tr ++ (advance s).2) := by
  have hordered := h.ordered.advance
  have hdisk := h.disk
  have hstays := @advance_pc_ne_down s
  unfold PrefsMigration.advance at hordered hstays ⊢
  cases hpc : s.pc with
  | down => simpa using h
  | ready => simpa using h
  | put all =>
    rw [hpc] at hordered
    have halive : s.pc ≠ .down := by simp [hpc]
    obtain ⟨hm, hall, hmem, -⟩ := h.ordered.of_put hpc
    obtain rfl : all = legacy.entries := by rw [hall, hmem, h.up halive hm]
    have hcarries := carries_put hmove (tr ++ [.copied]) s.encMem
    exact ⟨hordered, h.oldDisk, fun hd => (hdisk hd).append _, fun _ _ => hcarries, h.pending_apply hcarries, nofun,
      fun _ hnot => absurd (migrated_putFlag _) hnot⟩
  | mark =>
    rw [hpc] at hordered
    have halive : s.pc ≠ .down := by simp [hpc]
    obtain ⟨hm, -, hgone⟩ := h.ordered.of_mark hpc
    have hnothing : legacy.entries = [] := (h.up halive hm).symm.trans hgone
    have hcarries : Carries legacy (tr ++ []) (putFlag s.encMem) := by
      intro k v hkv
      rw [hnothing] at hkv
      cases hkv
    exact ⟨hordered, h.oldDisk, fun hd => (hdisk hd).append _, fun _ _ => hcarries, h.pending_apply hcarries, nofun,
      fun _ hnot => absurd (migrated_putFlag _) hnot⟩
  | delete =>
    rw [hpc] at hordered
    have halive : s.pc ≠ .down := by simp [hpc]
    have hm := h.ordered.migrated (.inr (.inl hpc))
    rw [List.append_nil]
    exact ⟨hordered, .inr rfl, hdisk, fun _ => h.mem halive, h.pending, nofun, fun _ hnot => absurd hm hnot⟩
  | readFlag | readLegacy | clear =>
    have halive : s.pc ≠ .down := by simp [hpc]
    have hup := hstays halive
    rw [hpc] at hordered hup
    rw [List.append_nil]
    exact ⟨hordered, h.oldDisk, hdisk, fun _ => h.mem halive, h.pending, fun hdown => absurd hdown hup,
      fun _ => h.up halive⟩

lemma Inv.step (h : Inv legacy s tr) (hmove : Movable legacy) {e : Event} (hspared : Spared legacy s e) :
    Inv legacy (step s e).1 (tr ++ (step s e).2) := by
  have hordered := h.ordered.step e
  have hstay : Inv legacy s (tr ++ []) := by rwa [List.append_nil]
  cases e with
  | boot =>
    simp only [PrefsMigration.step] at hordered ⊢
    split_ifs at hordered ⊢ with hdown
    · rw [List.append_nil]
      exact ⟨hordered, h.oldDisk, h.disk, fun _ => h.disk, h.pending, nofun, fun _ => h.down hdown⟩
    · exact hstay
  | construct =>
    simp only [PrefsMigration.step] at hordered ⊢
    split_ifs at hordered ⊢ with hready
    · have halive : s.pc ≠ .down := by simp [hready]
      rw [List.append_nil]
      exact ⟨hordered, h.oldDisk, h.disk, fun _ => h.mem halive, h.pending, nofun, fun _ => h.up halive⟩
    · exact hstay
  | advance => exact h.advance hmove
  | writeEnc =>
    simp only [PrefsMigration.step] at hordered ⊢
    cases hpending : s.encPending with
    | nil => exact hstay
    | cons m rest =>
      rw [hpending] at hordered
      have hm := h.ordered.pending m (by simp [hpending])
      rw [List.append_nil]
      exact ⟨hordered, h.oldDisk, fun _ => h.pending m (by simp [hpending]), h.mem,
        fun m' hm' => h.pending m' (by simp [hpending, hm']), fun _ hnot => absurd hm hnot, h.up⟩
  | writeLegacy =>
    simp only [PrefsMigration.step] at hordered ⊢
    split_ifs at hordered ⊢ with hpending
    · rw [List.append_nil]
      refine ⟨hordered, .inr rfl, h.disk, h.mem, h.pending, fun hdown => ?_, fun halive hnot => ?_⟩
      · simp [(h.ordered.down hdown).2] at hpending
      · simp [(h.ordered.before halive hnot).2.2.1] at hpending
    · exact hstay
  | kill =>
    have hsafe := hspared rfl
    unfold Exposed at hsafe
    simp only [PrefsMigration.step, List.append_nil] at hordered ⊢
    refine ⟨hordered, h.oldDisk, h.disk, fun halive => absurd rfl halive, by simp, fun _ hnot => ?_,
      fun halive => absurd rfl halive⟩
    -- nothing is lost, because the old file is still there or had nothing in it
    rcases h.oldDisk with hold | hgone
    · exact hold
    · by_cases hempty : legacy.entries = []
      · exact hgone.trans hempty.symm
      · exact absurd ⟨hempty, hgone, hnot⟩ hsafe
  | set key v =>
    simp only [PrefsMigration.step] at hordered ⊢
    split_ifs at hordered ⊢ with hset
    · obtain ⟨hready, hkey⟩ := hset
      have halive : s.pc ≠ .down := by simp [hready]
      have hm := h.ordered.migrated (.inr (.inr hready))
      have hcarries : Carries legacy (tr ++ [.changed key]) (Function.update s.encMem key (some v)) := by
        intro k w hkw hno
        have hne : k ≠ key := by
          rintro rfl
          exact hno (by simp)
        rw [Function.update_of_ne hne]
        exact h.mem halive hm k w hkw fun hin => hno (List.mem_append_left _ hin)
      exact ⟨hordered, h.oldDisk, fun hd => (h.disk hd).append _, fun _ _ => hcarries, h.pending_apply hcarries,
        fun hdown => absurd hdown halive, fun _ hnot => absurd ((migrated_update hkey v).mpr hm) hnot⟩
    · exact hstay

lemma inv_exec (hmove : Movable legacy) {es : List Event} (hspared : Run.Steps step (Spared legacy) (start legacy) es) :
    Inv legacy (exec legacy es) (outs legacy es) := by
  have hinv := Run.exec_outs_inv_of_steps (I := Inv legacy) (fun s tr e hok h => h.step hmove hok) (inv_start legacy) hspared
  rwa [List.nil_append] at hinv

/-! ### Recovery -/

/-- How many steps of the migration are left at most. -/
def Pc.left : Pc → ℕ
  | .down => 6
  | .readFlag => 5
  | .readLegacy => 4
  | .put _ => 3
  | .clear => 2
  | .delete => 1
  | .mark => 1
  | .ready => 0

lemma left_advance (halive : s.pc ≠ .down) : (advance s).1.pc.left ≤ s.pc.left - 1 := by
  unfold advance
  cases hpc : s.pc with
  | down => exact absurd hpc halive
  | readFlag | readLegacy =>
    dsimp only
    split_ifs <;> simp [Pc.left]
  | ready => simp [Pc.left, hpc]
  | _ => simp [Pc.left]

lemma left_advances (halive : s.pc ≠ .down) (n : ℕ) :
    (Run.exec step s (List.replicate n .advance)).pc ≠ .down ∧
      (Run.exec step s (List.replicate n .advance)).pc.left ≤ s.pc.left - n := by
  induction n generalizing s with
  | zero => exact ⟨halive, Nat.le_refl _⟩
  | succ n ih =>
    obtain ⟨hup, hleft⟩ := ih (advance_pc_ne_down halive)
    have hone := left_advance halive
    rw [List.replicate_succ, Run.exec_cons]
    exact ⟨hup, by simp only [step] at hleft ⊢; omega⟩

lemma migrated_recovery (h : Ordered s) : Migrated (Run.exec step s recovery).encDisk := by
  have hboot : (step s .boot).1.pc ≠ .down ∧ (step s .boot).1.pc.left ≤ 5 := by
    simp only [step]
    split_ifs with hdown
    · simp [Pc.left]
    · refine ⟨hdown, ?_⟩
      cases hpc : s.pc with
      | down => exact absurd hpc hdown
      | _ => simp [Pc.left]
  obtain ⟨hup, hleft⟩ := left_advances hboot.1 5
  generalize hs' : Run.exec step (step s .boot).1 (List.replicate 5 .advance) = s' at hup hleft
  have hordered : Ordered s' := by
    rw [← hs']
    exact Run.exec_inv (fun s e h => h.step e) (h.step .boot) _
  have hready : s'.pc = .ready := by
    have hzero : s'.pc.left = 0 := by omega
    cases hpc : s'.pc with
    | ready => rfl
    | _ => simp [Pc.left, hpc] at hzero
  have hm := hordered.migrated (.inr (.inr hready))
  rw [recovery, List.cons_append, Run.exec_cons, Run.exec_append, hs']
  simp only [Run.exec_cons, Run.exec_nil, step]
  cases hpending : s'.encPending with
  | nil =>
    by_contra hnot
    exact hordered.waiting hup hm hnot hpending
  | cons m rest => exact hordered.pending m (by simp [hpending])

lemma recovery_quiet (legacy : Legacy) (s : St) :
    Run.Steps step (Spared legacy) s recovery ∧ ∀ key, .changed key ∉ Run.outs step s recovery := by
  have hsteps : Run.Steps step (Spared legacy) s recovery := by simp [recovery, List.replicate, Run.Steps, Spared]
  have hnoSet : Run.Steps step (fun _ e => ∀ key v, e ≠ .set key v) s recovery := by
    simp [recovery, List.replicate, Run.Steps]
  refine ⟨hsteps, fun key hin => ?_⟩
  have hout := @Run.outs_inv_of_steps _ _ _ step (fun _ => True) _ (fun o => ∀ key, o ≠ .changed key) ?_ s trivial
    recovery hnoSet
  · exact hout _ hin key rfl
  · intro s e _ hno
    refine ⟨trivial, fun o ho key hkey => ?_⟩
    obtain ⟨-, -, ⟨v, hv⟩, -⟩ := changed_mem_step (hkey ▸ ho)
    exact hno key v hv

/-- **The migration survives**, if the process is not killed while the old file is gone and the new one is not
written, and no setting has the name of the flag: once the process is left alone, every setting that the user
has not changed is in the encrypted file. And after a change by the user nothing is copied again. -/
theorem migration_survives (legacy : Legacy) (hmove : Movable legacy) {es : List Event}
    (hspared : Run.Steps step (Spared legacy) (start legacy) es) :
    (∀ k v, (k, v) ∈ legacy.entries → .changed k ∉ outs legacy es →
      (exec legacy (es ++ recovery)).encDisk k = some v) ∧ Uncopied (outs legacy es) := by
  refine ⟨fun k v hkv hno => ?_, uncopied legacy es⟩
  obtain ⟨hquiet, hsame⟩ := recovery_quiet legacy (exec legacy es)
  have hinv := inv_exec hmove (Run.steps_append.mpr ⟨hspared, hquiet⟩)
  have hdisk : Migrated (exec legacy (es ++ recovery)).encDisk := by
    rw [exec, Run.exec_append]
    exact migrated_recovery (inv_exec hmove hspared).ordered
  refine hinv.disk hdisk k v hkv ?_
  rw [outs, Run.outs_append, List.mem_append, not_or]
  exact ⟨hno, hsame k⟩

/-- One setting. -/
def oneSetting : Legacy := ⟨[("server_host", .string "box")], by decide⟩

/-- The process is killed before anything is written, once, and then after the user has changed a setting. -/
def twoKills : List Event :=
  [.boot, .advance, .advance, .advance, .kill, .boot, .advance, .advance, .advance, .writeEnc, .advance, .advance,
    .set "server_port" (.int 80), .kill]

lemma oneSetting_movable : Movable oneSetting := by
  intro k v hkv
  obtain ⟨rfl, rfl⟩ := Prod.mk.inj (List.mem_singleton.mp hkv)
  exact ⟨by decide, nofun⟩

theorem migration_survives_twoKills :
    (exec oneSetting (twoKills ++ recovery)).encDisk "server_host" = some (.string "box") :=
  (migration_survives oneSetting oneSetting_movable (by decide)).1 "server_host" (.string "box") (by decide) (by decide)

/-- The process is killed when the migration is done and nothing is written. -/
def earlyKill : List Event := .boot :: List.replicate 5 .advance ++ [.kill]

/-- Then the setting is lost. -/
theorem earlyKill_lost :
    ¬ ∀ (legacy : Legacy) (es : List Event) (k : String) (v : Value), (k, v) ∈ legacy.entries →
      (∀ x, v ≠ .stringSet x) → .changed k ∉ outs legacy es → (exec legacy (es ++ recovery)).encDisk k = some v := by
  intro h
  have hlost := h oneSetting earlyKill "server_host" (.string "box") (by decide) nofun (by decide)
  revert hlost
  decide

end SyncClipboard.PrefsMigration
