import Mathlib.Data.List.Basic

/-!
Reading and writing a stream that moves in pieces.

What a reader finds is a list of pieces, as they arrive; an empty piece, or no piece at all, ends
the stream. A writer is told how much of its data each call takes; nothing taken ends it. The
loops that read or write a given number of elements depend on the elements only, not on the cuts,
and so does reading through a buffer that is filled ahead.
-/

namespace SyncClipboard.Pieces

variable {α : Type*}

/-- Everything that can be read before the stream ends. -/
def available (pieces : List (List α)) : List α := (pieces.takeWhile fun p => !p.isEmpty).flatten

/-- Read until `len` elements are there; `none` when the stream ends before. Also what is left. -/
def readAll : ℕ → List (List α) → Option (List α × List (List α))
  | 0, pieces => some ([], pieces)
  | _ + 1, [] => none
  | len + 1, p :: pieces =>
    if p.isEmpty then none
    else if p.length ≤ len + 1 then
      (readAll (len + 1 - p.length) pieces).map fun r => (p ++ r.1, r.2)
    else some (p.take (len + 1), p.drop (len + 1) :: pieces)

/-- Write all the data, each call taking as much as it is told; `false` when a call takes nothing.
Also what was written. -/
def writeAll : List ℕ → List α → Bool × List α
  | [], data => (data.isEmpty, [])
  | n :: takes, data =>
    if data.isEmpty then (true, [])
    else if n = 0 then (false, [])
    else ((writeAll takes (data.drop n)).1, data.take n ++ (writeAll takes (data.drop n)).2)

lemma available_cons {p : List α} (h : p ≠ []) (pieces : List (List α)) :
    available (p :: pieces) = p ++ available pieces := by
  simp [available, h]

lemma available_isPrefixOf (pieces : List (List α)) : available pieces <+: pieces.flatten := by
  obtain ⟨rest, hrest⟩ := List.takeWhile_prefix (l := pieces) fun p => !p.isEmpty
  refine ⟨rest.flatten, ?_⟩
  rw [available, ← List.flatten_append, hrest]

lemma readAll_of_le {len : ℕ} {pieces : List (List α)} (h : len ≤ (available pieces).length) :
    ∃ rest, readAll len pieces = some ((available pieces).take len, rest) ∧
      available rest = (available pieces).drop len := by
  induction pieces generalizing len with
  | nil =>
    have hlen : len = 0 := by simpa [available] using h
    exact ⟨[], by simp [hlen, readAll], by simp [available]⟩
  | cons p pieces ih =>
    cases len with
    | zero => exact ⟨p :: pieces, by simp [readAll], rfl⟩
    | succ len =>
      by_cases hp : p = []
      · simp [available, hp] at h
      · rw [available_cons hp, List.length_append] at h
        rw [available_cons hp]
        by_cases hle : p.length ≤ len + 1
        · -- the piece is used up, and more is needed
          have hmore : len + 1 - p.length ≤ (available pieces).length := by omega
          obtain ⟨rest, hrest, havail⟩ := ih hmore
          refine ⟨rest, ?_, ?_⟩
          · simp [readAll, hp, hle, hrest, List.take_append, List.take_of_length_le]
          · rw [havail, List.drop_append, List.drop_of_length_le hle, List.nil_append]
        · have hlt : len + 1 ≤ p.length := by omega
          have hdrop : p.drop (len + 1) ≠ [] := by
            intro hnil
            have := List.drop_eq_nil_iff.mp hnil
            omega
          refine ⟨p.drop (len + 1) :: pieces, ?_, ?_⟩
          · simp [readAll, hp, hle, List.take_append_of_le_length hlt]
          · rw [available_cons hdrop, List.drop_append_of_le_length hlt]

lemma readAll_of_lt {len : ℕ} {pieces : List (List α)} (h : (available pieces).length < len) :
    readAll len pieces = none := by
  induction pieces generalizing len with
  | nil =>
    cases len with
    | zero => simp at h
    | succ len => rfl
  | cons p pieces ih =>
    cases len with
    | zero => simp at h
    | succ len =>
      by_cases hp : p = []
      · simp [readAll, hp]
      · rw [available_cons hp, List.length_append] at h
        have hle : p.length ≤ len + 1 := by omega
        have hrest : readAll (len + 1 - p.length) pieces = none := ih (by omega)
        simp [readAll, hp, hle, hrest]

/-- **Reading does not depend on the cuts.** -/
theorem readAll_eq_some {len : ℕ} {pieces : List (List α)} {data : List α}
    {rest : List (List α)} (h : readAll len pieces = some (data, rest)) :
    len ≤ (available pieces).length ∧ data = (available pieces).take len ∧
      available rest = (available pieces).drop len := by
  by_cases hle : len ≤ (available pieces).length
  · obtain ⟨rest', hread, havail⟩ := readAll_of_le hle
    rw [hread] at h
    obtain ⟨rfl, rfl⟩ := Prod.mk.inj (Option.some.inj h)
    exact ⟨hle, rfl, havail⟩
  · rw [readAll_of_lt (by omega)] at h
    cases h

lemma readAll_cut {len q : ℕ} {p : List α} (hq : q ≤ len) (hlt : q < p.length) (pieces : List (List α)) :
    readAll len (p :: pieces) =
      (readAll (len - q) (p.drop q :: pieces)).map fun r => (p.take q ++ r.1, r.2) := by
  have hp : p.isEmpty = false := by
    rw [List.isEmpty_eq_false_iff_exists_mem]
    exact List.exists_mem_of_length_pos (by omega)
  have hdrop : (p.drop q).isEmpty = false := by
    rw [List.isEmpty_eq_false_iff_exists_mem]
    exact List.exists_mem_of_length_pos (by rw [List.length_drop]; omega)
  cases len with
  | zero =>
    obtain rfl : q = 0 := by omega
    simp [readAll]
  | succ len =>
    rw [readAll, hp, if_neg Bool.false_ne_true]
    rcases hrest : len + 1 - q with _ | k
    · -- the first part is all that is asked for
      obtain rfl : q = len + 1 := by omega
      rw [if_neg (by omega), readAll]
      simp
    · rw [readAll, hdrop, if_neg Bool.false_ne_true, List.length_drop, ← hrest]
      by_cases hle : p.length ≤ len + 1
      · rw [if_pos hle, if_pos (by omega), Option.map_map,
          show len + 1 - q - (p.length - q) = len + 1 - p.length by omega]
        congr 1
        funext r
        simp only [Function.comp, ← List.append_assoc, List.take_append_drop]
      · rw [if_neg hle, if_neg (by omega), Option.map_some, List.drop_drop, ← List.take_add,
          Nat.add_sub_cancel' hq]

/-- What was written is the beginning of the data, and all of it on success. -/
theorem writeAll_spec (takes : List ℕ) (data : List α) :
    (writeAll takes data).2 <+: data ∧
      ((writeAll takes data).1 = true → (writeAll takes data).2 = data) := by
  induction takes generalizing data with
  | nil =>
    refine ⟨List.nil_prefix, fun h => ?_⟩
    exact (List.isEmpty_iff.mp h).symm
  | cons n takes ih =>
    obtain ⟨hpre, hall⟩ := ih (data.drop n)
    unfold writeAll
    split_ifs with hempty hn
    · have hnil : data = [] := by simpa using hempty
      exact ⟨List.nil_prefix, fun _ => hnil.symm⟩
    · exact ⟨List.nil_prefix, by simp⟩
    · refine ⟨?_, fun h => ?_⟩
      · calc data.take n ++ (writeAll takes (data.drop n)).2
            <+: data.take n ++ data.drop n := List.prefix_append_right_inj _ |>.mpr hpre
          _ = data := List.take_append_drop n data
      · dsimp only at h ⊢
        rw [hall h, List.take_append_drop]

lemma writeAll_of_room (data : List α) : (writeAll [data.length] data).1 = true := by
  cases data with
  | nil => rfl
  | cons a data => simp [writeAll]

/-- The calls that are left once the data is written. -/
def callsLeft : List ℕ → List α → List ℕ
  | [], _ => []
  | n :: takes, data =>
    if data.isEmpty then n :: takes else if n = 0 then takes else callsLeft takes (data.drop n)

/-- The next calls take something each, and there are enough of them for `len` elements. -/
def Flows (takes : List ℕ) (len : ℕ) : Prop := (∀ n ∈ takes, 0 < n) ∧ len ≤ takes.length

/-- **A writer that is never refused** writes everything, and is not refused afterwards. -/
theorem writeAll_of_flows {takes : List ℕ} {data : List α} {more : ℕ}
    (h : Flows takes (data.length + more)) :
    writeAll takes data = (true, data) ∧ Flows (callsLeft takes data) more := by
  induction takes generalizing data with
  | nil =>
    have hlen : data.length + more ≤ 0 := h.2
    have hdata : data = [] := List.length_eq_zero_iff.mp (by omega)
    subst hdata
    exact ⟨rfl, by simp [callsLeft], by simp [callsLeft]; omega⟩
  | cons n takes ih =>
    obtain ⟨hpos, hlen⟩ := h
    by_cases hdata : data = []
    · subst hdata
      refine ⟨rfl, ?_⟩
      simpa [callsLeft, Flows] using And.intro hpos hlen
    · have hn : n ≠ 0 := Nat.pos_iff_ne_zero.mp (hpos n (by simp))
      have hrest : Flows takes ((data.drop n).length + more) := by
        refine ⟨fun m hm => hpos m (by simp [hm]), ?_⟩
        have hd : 0 < data.length := List.length_pos_iff.mpr hdata
        rw [List.length_cons] at hlen
        rw [List.length_drop]
        omega
      obtain ⟨hwrite, hleft⟩ := ih hrest
      have hne : data.isEmpty = false := by simpa using hdata
      simp only [writeAll, callsLeft, hne, hn, hwrite, if_false, Bool.false_eq_true,
        List.take_append_drop]
      exact ⟨trivial, hleft⟩

/-! ### Readers -/

/-- A way to read a stream: a read of `len` elements gives the next ones, or fails when there are
not so many. -/
structure Reader (σ α : Type*) where
  read : ℕ → σ → Option (List α × σ)
  stream : σ → List α
  read_of_le : ∀ {len : ℕ} {s : σ}, len ≤ (stream s).length →
    ∃ s', read len s = some ((stream s).take len, s') ∧ stream s' = (stream s).drop len
  read_of_lt : ∀ {len : ℕ} {s : σ}, (stream s).length < len → read len s = none

/-- Reading the pieces as they come. -/
def direct : Reader (List (List α)) α := ⟨readAll, available, readAll_of_le, readAll_of_lt⟩

lemma Reader.read_append {σ : Type*} (R : Reader σ α) {s : σ} {data more : List α}
    (h : R.stream s = data ++ more) :
    ∃ s', R.read data.length s = some (data, s') ∧ R.stream s' = more := by
  have hle : data.length ≤ (R.stream s).length := by simp [h]
  obtain ⟨s', hread, hstream⟩ := R.read_of_le hle
  exact ⟨s', by rw [hread, h, List.take_left], by rw [hstream, h, List.drop_left]⟩

lemma Reader.read_eq_some {σ : Type*} (R : Reader σ α) {len : ℕ} {s s' : σ} {data : List α}
    (h : R.read len s = some (data, s')) :
    data.length = len ∧ R.stream s = data ++ R.stream s' := by
  by_cases hlen : len ≤ (R.stream s).length
  · obtain ⟨s'', hread, hstream⟩ := R.read_of_le hlen
    cases h.symm.trans hread
    exact ⟨List.length_take_of_le hlen, by rw [hstream, List.take_append_drop]⟩
  · rw [R.read_of_lt (Nat.not_le.mp hlen)] at h
    cases h

lemma take_ne_nil {len : ℕ} (hlen : 0 < len) {l : List α} (h : l ≠ []) : l.take len ≠ [] := by
  intro hnil
  rcases List.take_eq_nil_iff.mp hnil with h0 | h0
  · omega
  · exact h h0

/-- One read of at most `len` elements. -/
def readSome (len : ℕ) : List (List α) → Option (List α × List (List α))
  | [] => none
  | p :: pieces =>
    if p.isEmpty then none
    else if p.length ≤ len then some (p, pieces) else some (p.take len, p.drop len :: pieces)

lemma readSome_length_le {len : ℕ} {pieces rest : List (List α)} {data : List α}
    (h : readSome len pieces = some (data, rest)) : data.length ≤ len := by
  cases pieces with
  | nil => cases h
  | cons p pieces =>
    rw [readSome] at h
    split_ifs at h with hempty hle
    · cases h
      exact hle
    · cases h
      exact List.length_take_le _ _

lemma readSome_eq_some {len : ℕ} (hlen : 0 < len) {pieces rest : List (List α)} {data : List α}
    (h : readSome len pieces = some (data, rest)) :
    data ≠ [] ∧ data.length ≤ len ∧ available pieces = data ++ available rest := by
  cases pieces with
  | nil => cases h
  | cons p pieces =>
    rw [readSome] at h
    split_ifs at h with hempty hle
    · have hp : p ≠ [] := by simpa using hempty
      cases h
      exact ⟨hp, hle, available_cons hp _⟩
    · have hp : p ≠ [] := by simpa using hempty
      cases h
      have hdrop : p.drop len ≠ [] := by
        intro hnil
        have := List.drop_eq_nil_iff.mp hnil
        omega
      refine ⟨take_ne_nil hlen hp, List.length_take_le _ _, ?_⟩
      rw [available_cons hp, available_cons hdrop, ← List.append_assoc, List.take_append_drop]

lemma readSome_eq_none {len : ℕ} {pieces : List (List α)} (h : readSome len pieces = none) :
    available pieces = [] := by
  cases pieces with
  | nil => rfl
  | cons p pieces =>
    rw [readSome] at h
    split_ifs at h with hempty
    have hp : p = [] := by simpa using hempty
    simp [available, hp]

/-! ### Reading ahead -/

/-- A buffer that is filled from the pieces, at most `size` elements at a time. -/
structure Buffered (α : Type*) where
  buf : List α
  pieces : List (List α)

def Buffered.stream (s : Buffered α) : List α := s.buf ++ available s.pieces

/-- One read through the buffer: what is in it, or else a large read goes past it and a small one
fills it. -/
def Buffered.read1 (size len : ℕ) (s : Buffered α) : Option (List α × Buffered α) :=
  if s.buf.isEmpty then
    if size ≤ len then (readSome len s.pieces).map fun r => (r.1, ⟨[], r.2⟩)
    else (readSome size s.pieces).map fun r => (r.1.take len, ⟨r.1.drop len, r.2⟩)
  else some (s.buf.take len, ⟨s.buf.drop len, s.pieces⟩)

lemma Buffered.read1_eq_some {size len : ℕ} (hsize : 0 < size) (hlen : 0 < len)
    {s s' : Buffered α} {data : List α} (h : s.read1 size len = some (data, s')) :
    data ≠ [] ∧ data.length ≤ len ∧ s.stream = data ++ s'.stream := by
  unfold Buffered.read1 at h
  split_ifs at h with hempty hle
  · obtain ⟨⟨x, rest⟩, hx, he⟩ := Option.map_eq_some_iff.mp h
    cases he
    have hbuf : s.buf = [] := by simpa using hempty
    obtain ⟨hne, hl, hstream⟩ := readSome_eq_some hlen hx
    exact ⟨hne, hl, by simpa [Buffered.stream, hbuf] using hstream⟩
  · obtain ⟨⟨x, rest⟩, hx, he⟩ := Option.map_eq_some_iff.mp h
    cases he
    have hbuf : s.buf = [] := by simpa using hempty
    obtain ⟨hne, -, hstream⟩ := readSome_eq_some hsize hx
    refine ⟨take_ne_nil hlen hne, List.length_take_le _ _, ?_⟩
    simp only [Buffered.stream, hbuf, List.nil_append, hstream, ← List.append_assoc,
      List.take_append_drop]
  · cases h
    have hbuf : s.buf ≠ [] := by simpa using hempty
    refine ⟨take_ne_nil hlen hbuf, List.length_take_le _ _, ?_⟩
    simp only [Buffered.stream, ← List.append_assoc, List.take_append_drop]

lemma Buffered.read1_eq_none {size len : ℕ} {s : Buffered α} (h : s.read1 size len = none) :
    s.stream = [] := by
  unfold Buffered.read1 at h
  split_ifs at h with hempty hle
  all_goals
    have hbuf : s.buf = [] := by simpa using hempty
    have hpieces := readSome_eq_none (Option.map_eq_none_iff.mp h)
    simp [Buffered.stream, hbuf, hpieces]

/-- Read through the buffer until `len` elements are there. -/
def Buffered.readFully (size : ℕ) (hsize : 0 < size) (len : ℕ) (s : Buffered α) :
    Option (List α × Buffered α) :=
  if _hlen : len = 0 then some ([], s)
  else match _h : s.read1 size len with
    | none => none
    | some (data, s') =>
      (s'.readFully size hsize (len - data.length)).map fun r => (data ++ r.1, r.2)
termination_by len
decreasing_by
  have hpos := (Buffered.read1_eq_some hsize (by omega) _h).1
  have := List.length_pos_iff.mpr hpos
  omega

lemma Buffered.readFully_of_le {size : ℕ} (hsize : 0 < size) {len : ℕ} {s : Buffered α}
    (h : len ≤ s.stream.length) :
    ∃ s', s.readFully size hsize len = some (s.stream.take len, s') ∧
      s'.stream = s.stream.drop len := by
  induction len using Nat.strongRecOn generalizing s with
  | ind len ih =>
    by_cases hlen : len = 0
    · subst hlen
      exact ⟨s, by rw [Buffered.readFully]; rfl, rfl⟩
    · rw [Buffered.readFully, dif_neg hlen]
      split
      · next hnone =>
        rw [Buffered.read1_eq_none hnone] at h
        exact absurd (Nat.le_zero.mp h) hlen
      · next data s' hsome =>
        obtain ⟨hne, hle, hstream⟩ := Buffered.read1_eq_some hsize (by omega) hsome
        have hpos := List.length_pos_iff.mpr hne
        have hmore : len - data.length ≤ s'.stream.length := by
          rw [hstream, List.length_append] at h
          omega
        obtain ⟨s'', hread, hrest⟩ := ih (len - data.length) (by omega) hmore
        refine ⟨s'', ?_, ?_⟩
        · rw [hread, hstream, List.take_append, List.take_of_length_le hle]
          rfl
        · rw [hrest, hstream, List.drop_append, List.drop_of_length_le hle, List.nil_append]

lemma Buffered.readFully_of_lt {size : ℕ} (hsize : 0 < size) {len : ℕ} {s : Buffered α}
    (h : s.stream.length < len) : s.readFully size hsize len = none := by
  induction len using Nat.strongRecOn generalizing s with
  | ind len ih =>
    rw [Buffered.readFully, dif_neg (by omega)]
    split
    · rfl
    · next data s' hsome =>
      obtain ⟨hne, hle, hstream⟩ := Buffered.read1_eq_some hsize (by omega) hsome
      have hpos := List.length_pos_iff.mpr hne
      rw [hstream, List.length_append] at h
      rw [ih (len - data.length) (by omega) (by omega)]
      rfl

lemma Buffered.read1_buf_lt {size len : ℕ} (hlen : 0 < len) {s s' : Buffered α} {data : List α}
    (h : s.read1 size len = some (data, s')) (hs : s.buf.length < size) : s'.buf.length < size := by
  unfold Buffered.read1 at h
  split_ifs at h with hempty hle
  · obtain ⟨⟨x, rest⟩, -, he⟩ := Option.map_eq_some_iff.mp h
    cases he
    exact Nat.zero_lt_of_lt hs
  · obtain ⟨⟨x, rest⟩, hx, he⟩ := Option.map_eq_some_iff.mp h
    cases he
    have hfill := readSome_length_le hx
    dsimp only
    rw [List.length_drop]
    omega
  · cases h
    dsimp only
    rw [List.length_drop]
    omega

lemma readSome_single {len : ℕ} {p data : List α} {rest : List (List α)} (hp : p.length ≤ len)
    (h : readSome len [p] = some (data, rest)) : rest = [] := by
  rw [readSome, if_pos hp] at h
  split_ifs at h
  cases h
  rfl

/-- A piece that fits the buffer is read whole, and nothing is left behind it. -/
lemma Buffered.read1_single {size len : ℕ} {p : List α} (hp : p.length ≤ size) {s s' : Buffered α}
    {data : List α} (h : s.read1 size len = some (data, s')) (hs : s.pieces = [] ∨ s = ⟨[], [p]⟩) :
    s'.pieces = [] := by
  rcases hs with hs | rfl
  · unfold Buffered.read1 at h
    rw [hs] at h
    split_ifs at h
    · cases h
    · cases h
    · cases h
      rfl
  · simp only [Buffered.read1, List.isEmpty_nil, if_true] at h
    split_ifs at h with hle
    · obtain ⟨⟨x, rest⟩, hx, he⟩ := Option.map_eq_some_iff.mp h
      cases he
      exact readSome_single (Nat.le_trans hp hle) hx
    · obtain ⟨⟨x, rest⟩, hx, he⟩ := Option.map_eq_some_iff.mp h
      cases he
      exact readSome_single hp hx

lemma Buffered.readFully_keeps {size : ℕ} (hsize : 0 < size) {P : Buffered α → Prop}
    (hP : ∀ len s data s', 0 < len → s.read1 size len = some (data, s') → P s → P s') {len : ℕ}
    {s s' : Buffered α} {data : List α} (h : s.readFully size hsize len = some (data, s')) (hs : P s) :
    P s' := by
  induction len using Nat.strongRecOn generalizing s data with
  | ind len ih =>
    rw [Buffered.readFully] at h
    split_ifs at h with hlen
    · cases h
      exact hs
    · split at h
      · cases h
      · next data₁ s₁ hread =>
        obtain ⟨⟨data₂, s₂⟩, hrest, he⟩ := Option.map_eq_some_iff.mp h
        cases he
        have hpos := List.length_pos_iff.mpr (Buffered.read1_eq_some hsize (by omega) hread).1
        exact ih _ (by omega) hrest (hP _ _ _ _ (by omega) hread hs)

/-- **Reading through a buffer** is reading. -/
def buffered (size : ℕ) (hsize : 0 < size) : Reader (Buffered α) α :=
  ⟨Buffered.readFully size hsize, Buffered.stream, Buffered.readFully_of_le hsize,
    Buffered.readFully_of_lt hsize⟩

end SyncClipboard.Pieces
