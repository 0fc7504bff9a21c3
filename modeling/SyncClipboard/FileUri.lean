import SyncClipboard.UrlDecode

/-!
The file on the Linux clipboard.

`clipboard_get_file_uri` treats what it reads as C strings, but nobody puts a zero behind it. It keeps to
the data exactly if the line that it looks for ends inside it (`only_data_iff`). The other way round, only
`xclip_clipboard_set_file` writes what is read, and a path is read as it was written exactly if there is
nothing to decode in it (`round_trip_iff`).

A pointer is given by the memory from there on. A function fails where this memory ends, and says how many
bytes of it were touched.
-/

namespace SyncClipboard.FileUri

open FtAuth CString UrlDecode
open Crypto (cString cString_eq cString_append_zero)

/-! ### The C library -/

/-- Where `strchr` stops: at the character or at the end of the string. -/
def stop (c : UInt8) (s : Bytes) : Option ℕ := s.findIdx? fun b => b == c || b == 0

/-- `strchr`, and a zero where it found the character. -/
def cut (c : UInt8) (s : Bytes) : Option (Bytes × ℕ) :=
  (stop c s).map fun j => (if s.getD j 0 = c then s.set j 0 else s, j + 1)

/-- `strncmp` with as many characters as the pattern has: whether they are the same. -/
def strncmp : Bytes → Bytes → Option (Bool × ℕ)
  | [], _ => some (true, 0)
  | _ :: _, [] => none
  | c :: pat, b :: s =>
    if b = c then (strncmp pat s).map fun (same, t) => (same, t + 1) else some (false, 1)

def strdup (s : Bytes) : Option (Bytes × ℕ) := (s.findIdx? (· == 0)).map fun k => (s.take k, k + 1)

/-! ### clipboard_get_file_uri -/

def fileUri (s : Bytes) : Option (Option Bytes × ℕ) :=
  (cut 10 s).bind fun (s, t₁) =>
  (cut 13 s).bind fun (s, t₂) =>
  (strncmp (ascii "file://") s).bind fun (same, t₃) =>
    if same then (strdup (s.drop 7)).map fun (path, t₄) => (some path, max (max t₁ t₂) (max t₃ (7 + t₄)))
    else some (none, max (max t₁ t₂) t₃)

def secondLine (s : Bytes) : Option (Option Bytes × ℕ) :=
  (stop 10 s).bind fun j =>
    if s.getD j 0 = 10 then (fileUri (s.drop (j + 1))).map fun (path, t) => (path, j + 1 + t)
    else some (none, j + 1)

/-- The string in the copy of the path, after `url_decode_inplace`. -/
def decoded (path : Bytes) : Option Bytes := (urlDecodeInplace (path ++ [0])).map fun (buf, _) => cString buf

/-- The part of `clipboard_get_file_uri` that reads `x-special/gnome-copied-files`, after `t` bytes of the other
data. -/
def gnomeUri (gnome : Option Bytes) (t : ℕ) : Option (Option Bytes × ℕ × ℕ) :=
  match gnome with
  | none => some (none, t, 0)
  | some s => (secondLine s).bind fun (path, t') =>
    match path with
    | some path => (decoded path).map fun path => (some path, t, t')
    | none => some (none, t, t')

/-- `clipboard_get_file_uri`, given the memory that `read_type` returns for `text/uri-list` and for
`x-special/gnome-copied-files`: the path, and how much of both was touched. -/
def clipboardGetFileUri (uriList gnome : Option Bytes) : Option (Option Bytes × ℕ × ℕ) :=
  match uriList with
  | none => gnomeUri gnome 0
  | some s => (fileUri s).bind fun (path, t) =>
    match path with
    | some path => (decoded path).map fun path => (some path, t, 0)
    | none => gnomeUri gnome t

/-- The path is told by the data alone, and nothing behind the data is touched. -/
def OnlyData (uriList gnome : Option Bytes) : Prop :=
  ∃ path, ∀ beyond beyond' : Bytes, ∃ t t',
    clipboardGetFileUri (uriList.map (· ++ beyond)) (gnome.map (· ++ beyond')) = some (path, t, t') ∧
      t ≤ (uriList.getD []).length ∧ t' ≤ (gnome.getD []).length

def inLine (b : UInt8) : Bool := b != 10 && b != 0

/-- A line ends in the data. -/
def LineEnds (data : Bytes) : Prop := 10 ∈ data ∨ 0 ∈ data

/-- So does the second line, if there is one. -/
def SecondEnds (data : Bytes) : Prop :=
  match data.dropWhile inLine with
  | [] => False
  | e :: rest => e = 0 ∨ LineEnds rest

/-! ### xclip_clipboard_set_file, wl_clipboard_set_file -/

inductive Backend
  | xclip
  | wl
  deriving DecidableEq

def clipboardSetFile : Backend → Bytes → Bytes
  | .xclip, filepath => ascii "copy\nfile://" ++ filepath
  | .wl, filepath => ascii "copy\n" ++ filepath

/-- The path is read back, where a zero stands behind the data. -/
def RoundTrip (backend : Backend) (filepath : Bytes) : Prop :=
  ∀ beyond, ∃ t t', clipboardGetFileUri none (some (clipboardSetFile backend filepath ++ 0 :: beyond)) =
    some (some filepath, t, t')

/-- There is no number behind a `%`. -/
def NoEscape (s : Bytes) : Prop := ∀ a b r, 37 :: a :: b :: r <:+ s → ¬ Number (a :: b :: r)

/-! ### Lines -/

/-- What is read of a line. -/
def line (x : Bytes) : Bytes := x.takeWhile (· ≠ 13)

lemma stop_append {c e : UInt8} {x : Bytes} (hx : ∀ b ∈ x, b ≠ c ∧ b ≠ 0) (he : e = c ∨ e = 0) (r : Bytes) :
    stop c (x ++ e :: r) = some x.length := by
  have hfind : x.findIdx? (fun b => b == c || b == 0) = none := by
    rw [List.findIdx?_eq_none_iff]
    intro b hb
    simp [hx b hb]
  rw [stop, List.findIdx?_append, hfind]
  rcases he with rfl | rfl <;> simp [List.findIdx?_cons]

lemma getD_append_length (x : Bytes) (e : UInt8) (r : Bytes) : (x ++ e :: r).getD x.length 0 = e := by
  rw [List.getD_append_right _ _ _ _ (Nat.le_refl _), Nat.sub_self]
  rfl

lemma cut_append {c e : UInt8} {x : Bytes} (hx : ∀ b ∈ x, b ≠ c ∧ b ≠ 0) (he : e = c ∨ e = 0) (r : Bytes) :
    cut c (x ++ e :: r) = some (x ++ 0 :: r, x.length + 1) := by
  rw [cut, stop_append hx he, Option.map_some, getD_append_length]
  rcases he with rfl | rfl
  · rw [if_pos rfl, List.set_append_right _ _ (Nat.le_refl _), Nat.sub_self]
    rfl
  · split_ifs with hc
    · rw [List.set_append_right _ _ (Nat.le_refl _), Nat.sub_self]
      rfl
    · rfl

lemma cut_line {x : Bytes} (hx : 0 ∉ x) (r : Bytes) :
    ∃ r' t, cut 13 (x ++ 0 :: r) = some (line x ++ 0 :: r', t) ∧ t ≤ x.length + 1 := by
  by_cases hcr : 13 ∈ x
  · obtain ⟨y, z, rfl, hy⟩ := List.eq_append_cons_of_mem hcr
    have hline : line (y ++ 13 :: z) = y := by
      unfold line
      rw [List.takeWhile_append_of_pos fun b hb => by
        have hne : b ≠ 13 := fun h => hy (h ▸ hb)
        simpa using hne]
      simp
    refine ⟨z ++ 0 :: r, y.length + 1, ?_, ?_⟩
    · have hcut := @cut_append 13 13 y (fun b hb => ⟨fun h => hy (h ▸ hb), fun h => hx (by simp [← h, hb])⟩)
        (Or.inl rfl) (z ++ 0 :: r)
      rw [hline]
      simpa using hcut
    · simp
  · have hline : line x = x := List.takeWhile_eq_self_iff.mpr fun b hb => by
      have hne : b ≠ 13 := fun h => hcr (h ▸ hb)
      simpa using hne
    rw [hline]
    have hcut := @cut_append 13 0 x (fun b hb => ⟨fun h => hcr (h ▸ hb), fun h => hx (h ▸ hb)⟩) (Or.inr rfl) r
    exact ⟨r, x.length + 1, hcut, Nat.le_refl _⟩

lemma strncmp_line {pat : Bytes} (hpat : 0 ∉ pat) (x r : Bytes) :
    ∃ t, strncmp pat (x ++ 0 :: r) = some (decide (pat <+: x), t) ∧ t ≤ x.length + 1 := by
  induction pat generalizing x with
  | nil => exact ⟨0, by simp [strncmp], by omega⟩
  | cons c pat ih =>
    have hc : c ≠ 0 := fun h => hpat (by simp [h])
    cases x with
    | nil => exact ⟨1, by simp [strncmp, Ne.symm hc], by simp⟩
    | cons b x =>
      obtain ⟨t, hsame, ht⟩ := ih (fun h => hpat (by simp [h])) x
      rw [List.cons_append, strncmp]
      by_cases hbc : b = c
      · subst hbc
        refine ⟨t + 1, ?_, by simp; omega⟩
        rw [if_pos rfl, hsame]
        simp [List.cons_prefix_cons]
      · refine ⟨1, ?_, by simp⟩
        rw [if_neg hbc]
        simp [List.cons_prefix_cons, Ne.symm hbc]

lemma strdup_append {path : Bytes} (h : 0 ∉ path) (r : Bytes) :
    strdup (path ++ 0 :: r) = some (path, path.length + 1) := by
  have hfind : path.findIdx? (fun b => b == 0) = none := by
    rw [List.findIdx?_eq_none_iff]
    intro b hb
    have hne : b ≠ 0 := fun h0 => h (h0 ▸ hb)
    simpa using hne
  rw [strdup, List.findIdx?_append, hfind]
  simp [List.findIdx?_cons]

def pathOf (x : Bytes) : Option Bytes :=
  if ascii "file://" <+: line x then some ((line x).drop 7) else none

/-- **A line that ends**: it is read up to its end. -/
lemma fileUri_append {e : UInt8} {x : Bytes} (hx : ∀ b ∈ x, b ≠ 10 ∧ b ≠ 0) (he : e = 10 ∨ e = 0) (r : Bytes) :
    fileUri (x ++ e :: r) = some (pathOf x, x.length + 1) := by
  have hline : (line x).length ≤ x.length := (List.takeWhile_prefix _).length_le
  have hzero : 0 ∉ line x := fun h => (hx 0 ((List.takeWhile_prefix _).subset h)).2 rfl
  obtain ⟨r', t₂, hcut, ht₂⟩ := cut_line (fun h => (hx 0 h).2 rfl) r
  obtain ⟨t₃, hsame, ht₃⟩ := @strncmp_line (ascii "file://") (by decide) (line x) r'
  unfold fileUri pathOf
  rw [cut_append hx he, Option.bind_some]
  dsimp only
  rw [hcut, Option.bind_some]
  dsimp only
  rw [hsame, Option.bind_some]
  dsimp only
  by_cases hfile : ascii "file://" <+: line x
  · obtain ⟨path, hpath⟩ := hfile
    have hdrop : (line x ++ 0 :: r').drop 7 = path ++ 0 :: r' := by
      rw [← hpath, List.append_assoc]
      exact List.drop_left' rfl
    have hdup : strdup (path ++ 0 :: r') = some (path, path.length + 1) :=
      strdup_append (fun h0 => hzero (by rw [← hpath]; exact List.mem_append_right _ h0)) r'
    have hlen := congrArg List.length hpath
    rw [List.length_append, show (ascii "file://").length = 7 from rfl] at hlen
    have hpre : ascii "file://" <+: line x := ⟨path, hpath⟩
    have hrest : (line x).drop 7 = path := by
      rw [← hpath]
      exact List.drop_left' rfl
    rw [if_pos (decide_eq_true hpre), if_pos hpre, hdrop, hdup, hrest, Option.map_some]
    simp only [Option.some.injEq, Prod.mk.injEq, true_and]
    omega
  · rw [if_neg (by simpa using hfile), if_neg hfile]
    simp only [Option.some.injEq, Prod.mk.injEq, true_and]
    omega

/-! ### Data -/

lemma lineEnds_iff (data : Bytes) :
    LineEnds data ↔ ∃ e r, data = data.takeWhile inLine ++ e :: r ∧ (e = 10 ∨ e = 0) := by
  constructor
  · intro h
    cases hrest : data.dropWhile inLine with
    | nil =>
      have hall := List.dropWhile_eq_nil_iff.mp hrest
      rcases h with h | h
      · exact absurd (hall _ h) (by decide)
      · exact absurd (hall _ h) (by decide)
    | cons e r =>
      refine ⟨e, r, by rw [← hrest, List.takeWhile_append_dropWhile], ?_⟩
      have he : ¬ inLine e = true := by
        have hhead := List.head_dropWhile_not inLine (l := data) (by simp [hrest])
        simpa [hrest] using hhead
      simpa [inLine, or_iff_not_imp_left] using he
  · rintro ⟨e, r, hdata, rfl | rfl⟩
    · exact Or.inl (by rw [hdata]; simp)
    · exact Or.inr (by rw [hdata]; simp)

lemma takeWhile_inLine {data : Bytes} : ∀ b ∈ data.takeWhile inLine, b ≠ 10 ∧ b ≠ 0 := by
  intro b hb
  simpa [inLine] using List.mem_takeWhile_imp hb

lemma fileUri_data {data : Bytes} (h : LineEnds data) (beyond : Bytes) :
    fileUri (data ++ beyond) = some (pathOf (data.takeWhile inLine), (data.takeWhile inLine).length + 1) ∧
      (data.takeWhile inLine).length + 1 ≤ data.length := by
  obtain ⟨e, r, hdata, he⟩ := (lineEnds_iff data).mp h
  constructor
  · conv_lhs => rw [hdata]
    rw [List.append_assoc, List.cons_append]
    exact fileUri_append takeWhile_inLine he _
  · conv_rhs => rw [hdata]
    rw [List.length_append, List.length_cons]
    omega

/-- Where no line ends in the data, something behind it is touched. -/
lemma fileUri_beyond {data : Bytes} (h : ¬ LineEnds data) {beyond : Bytes} {path : Option Bytes} {t : ℕ}
    (hread : fileUri (data ++ beyond) = some (path, t)) : data.length < t := by
  have hnone : ∀ b ∈ data, b ≠ 10 ∧ b ≠ 0 := fun b hb =>
    ⟨fun h10 => h (Or.inl (h10 ▸ hb)), fun h0 => h (Or.inr (h0 ▸ hb))⟩
  by_cases hends : LineEnds beyond
  · obtain ⟨e, r, hbeyond, he⟩ := (lineEnds_iff beyond).mp hends
    have hall : ∀ b ∈ data ++ beyond.takeWhile inLine, b ≠ 10 ∧ b ≠ 0 := by
      intro b hb
      rcases List.mem_append.mp hb with hb | hb
      · exact hnone b hb
      · exact takeWhile_inLine b hb
    have hfound := fileUri_append hall he r
    rw [List.append_assoc, ← hbeyond, hread] at hfound
    obtain ⟨-, rfl⟩ := Prod.mk.inj (Option.some.inj hfound)
    rw [List.length_append]
    omega
  · -- nothing stops the first scan
    have hstop : stop 10 (data ++ beyond) = none := by
      rw [stop, List.findIdx?_eq_none_iff]
      intro b hb
      have hne : b ≠ 10 ∧ b ≠ 0 := by
        rcases List.mem_append.mp hb with hb | hb
        · exact hnone b hb
        · exact ⟨fun h10 => hends (Or.inl (h10 ▸ hb)), fun h0 => hends (Or.inr (h0 ▸ hb))⟩
      simp [hne]
    rw [fileUri, cut, hstop] at hread
    cases hread

lemma pathOf_zero {x path : Bytes} (hx : ∀ b ∈ x, b ≠ 10 ∧ b ≠ 0) (h : pathOf x = some path) : 0 ∉ path := by
  unfold pathOf at h
  split_ifs at h
  obtain rfl := Option.some.inj h
  intro hmem
  exact (hx 0 ((List.takeWhile_prefix _).subset (List.mem_of_mem_drop hmem))).2 rfl

lemma pathOf_isSome_iff {data : Bytes} :
    (pathOf (data.takeWhile inLine)).isSome = true ↔ ascii "file://" <+: data := by
  have hprefix : ∀ (p : UInt8 → Bool) (pat l : Bytes), (∀ b ∈ pat, p b = true) →
      (pat <+: l.takeWhile p ↔ pat <+: l) := by
    intro p pat
    induction pat with
    | nil => simp
    | cons c pat ih =>
      intro l hp
      cases l with
      | nil => simp
      | cons b l =>
        rw [List.takeWhile_cons, List.cons_prefix_cons]
        split_ifs with hb
        · rw [List.cons_prefix_cons, ih l fun d hd => hp d (by simp [hd])]
        · refine iff_of_false (by simp) fun h => hb (h.1 ▸ hp c (by simp))
  have hsome : (pathOf (data.takeWhile inLine)).isSome = true ↔
      ascii "file://" <+: line (data.takeWhile inLine) := by
    unfold pathOf
    split_ifs with h <;> simp [h]
  rw [hsome, line, hprefix _ _ _ (by decide +kernel), hprefix _ _ _ (by decide +kernel)]

lemma decoded_eq {path : Bytes} (h : 0 ∉ path) : decoded path = some (cString (urlDecode path)) := by
  rw [decoded, urlDecodeInplace_eq h, Option.map_some]
  dsimp only
  rw [cString_append_zero]

/-! ### The second line -/

lemma secondLine_append {e : UInt8} {x : Bytes} (hx : ∀ b ∈ x, b ≠ 10 ∧ b ≠ 0) (he : e = 10 ∨ e = 0) (s : Bytes) :
    secondLine (x ++ e :: s) =
      if e = 10 then (fileUri s).map fun (path, t) => (path, x.length + 1 + t) else some (none, x.length + 1) := by
  have hdrop : (x ++ e :: s).drop (x.length + 1) = s := by
    rw [← List.drop_drop, List.drop_left]
    rfl
  rw [secondLine, stop_append hx he, Option.bind_some, getD_append_length, hdrop]

lemma secondEnds_iff (data : Bytes) :
    SecondEnds data ↔
      ∃ e r, data = data.takeWhile inLine ++ e :: r ∧ (e = 0 ∨ e = 10 ∧ LineEnds r) := by
  have hsplit := List.takeWhile_append_dropWhile (p := inLine) (l := data)
  constructor
  · intro h
    unfold SecondEnds at h
    split at h
    · exact h.elim
    · rename_i e r hrest
      have hdata : data = data.takeWhile inLine ++ e :: r := by rw [← hrest, hsplit]
      have hends : LineEnds data := by
        rcases h with rfl | h
        · exact Or.inr (by rw [hdata]; simp)
        · exact h.imp (fun h10 => by rw [hdata]; simp [h10]) fun h0 => by rw [hdata]; simp [h0]
      obtain ⟨e', r', hdata', he⟩ := (lineEnds_iff data).mp hends
      obtain ⟨rfl, rfl⟩ := List.cons.inj (List.append_cancel_left (hdata.symm.trans hdata'))
      refine ⟨e, r, hdata, ?_⟩
      rcases he with rfl | rfl
      · exact Or.inr ⟨rfl, h.resolve_left (by decide)⟩
      · exact Or.inl rfl
  · rintro ⟨e, r, hdata, he⟩
    have hrest : data.dropWhile inLine = e :: r :=
      List.append_cancel_left (hsplit.trans hdata)
    unfold SecondEnds
    rw [hrest]
    exact he.imp id And.right

lemma secondLine_data {data : Bytes} (h : SecondEnds data) :
    ∃ path t, t ≤ data.length ∧ (∀ p, path = some p → 0 ∉ p) ∧
      ∀ beyond, secondLine (data ++ beyond) = some (path, t) := by
  obtain ⟨e, r, hdata, he⟩ := (secondEnds_iff data).mp h
  have hlen := congrArg List.length hdata
  rw [List.length_append, List.length_cons] at hlen
  have hread : ∀ beyond, secondLine (data ++ beyond) =
      if e = 10 then (fileUri (r ++ beyond)).map fun (path, t) =>
        (path, (data.takeWhile inLine).length + 1 + t)
      else some (none, (data.takeWhile inLine).length + 1) := by
    intro beyond
    conv_lhs => rw [hdata]
    rw [List.append_assoc, List.cons_append]
    exact secondLine_append takeWhile_inLine (he.elim Or.inr fun h => Or.inl h.1) _
  rcases he with rfl | ⟨rfl, hends⟩
  · exact ⟨none, _, by omega, by simp, fun beyond => hread beyond⟩
  · obtain ⟨-, hle⟩ := fileUri_data hends []
    refine ⟨pathOf (r.takeWhile inLine),
      (data.takeWhile inLine).length + 1 + ((r.takeWhile inLine).length + 1), by omega,
      fun p hp => pathOf_zero takeWhile_inLine hp, fun beyond => ?_⟩
    rw [hread beyond, if_pos rfl, (fileUri_data hends beyond).1]
    rfl

lemma secondLine_beyond {data : Bytes} (h : ¬ SecondEnds data) {beyond : Bytes} {path : Option Bytes} {t : ℕ}
    (hread : secondLine (data ++ beyond) = some (path, t)) : data.length < t := by
  by_cases hends : LineEnds data
  · obtain ⟨e, r, hdata, he⟩ := (lineEnds_iff data).mp hends
    have hlen := congrArg List.length hdata
    rw [List.length_append, List.length_cons] at hlen
    have hsecond : e = 10 ∧ ¬ LineEnds r := by
      rcases he with rfl | rfl
      · exact ⟨rfl, fun hr => h ((secondEnds_iff data).mpr ⟨10, r, hdata, Or.inr ⟨rfl, hr⟩⟩)⟩
      · exact absurd ((secondEnds_iff data).mpr ⟨0, r, hdata, Or.inl rfl⟩) h
    obtain ⟨rfl, hr⟩ := hsecond
    rw [hdata, List.append_assoc, List.cons_append, secondLine_append takeWhile_inLine (Or.inl rfl), if_pos rfl] at hread
    obtain ⟨⟨path', t'⟩, hfile, heq⟩ := Option.map_eq_some_iff.mp hread
    obtain ⟨-, rfl⟩ := Prod.mk.inj heq
    have hlt := fileUri_beyond hr hfile
    omega
  · -- the first scan leaves the data
    unfold secondLine at hread
    obtain ⟨j, hj, hread⟩ := Option.bind_eq_some_iff.mp hread
    have hge : data.length ≤ j := by
      by_contra hlt
      obtain ⟨hb, hstop, -⟩ := List.findIdx?_eq_some_iff_getElem.mp hj
      have hmem : (data ++ beyond)[j] ∈ data := by
        rw [List.getElem_append_left (by omega)]
        exact List.getElem_mem _
      generalize (data ++ beyond)[j] = b at hstop hmem
      have hb : b = 10 ∨ b = 0 := by simpa using hstop
      rcases hb with rfl | rfl
      · exact hends (Or.inl hmem)
      · exact hends (Or.inr hmem)
    split_ifs at hread
    · obtain ⟨⟨path', t'⟩, -, heq⟩ := Option.map_eq_some_iff.mp hread
      obtain ⟨-, rfl⟩ := Prod.mk.inj heq
      omega
    · obtain ⟨-, rfl⟩ := Prod.mk.inj (Option.some.inj hread)
      omega

/-! ### The data alone -/

lemma gnomeUri_data {data : Bytes} (h : SecondEnds data) :
    ∃ path t', t' ≤ data.length ∧ ∀ beyond t, gnomeUri (some (data ++ beyond)) t = some (path, t, t') := by
  obtain ⟨path, t', hle, hzero, hread⟩ := secondLine_data h
  cases path with
  | none =>
    refine ⟨none, t', hle, fun beyond t => ?_⟩
    rw [gnomeUri, hread, Option.bind_some]
  | some p =>
    refine ⟨some (cString (urlDecode p)), t', hle, fun beyond t => ?_⟩
    rw [gnomeUri, hread, Option.bind_some]
    dsimp only
    rw [decoded_eq (hzero p rfl), Option.map_some]

/-- What the second line gives, and that the list is left alone. -/
lemma gnomeUri_eq_some {s : Bytes} {path : Option Bytes} {t₀ t t' : ℕ}
    (h : gnomeUri (some s) t₀ = some (path, t, t')) : t = t₀ ∧ ∃ second, secondLine s = some (second, t') := by
  unfold gnomeUri at h
  obtain ⟨⟨second, t₁⟩, hsecond, h⟩ := Option.bind_eq_some_iff.mp h
  cases second with
  | none =>
    obtain ⟨-, rfl, rfl⟩ : none = path ∧ t₀ = t ∧ t₁ = t' := by simpa using h
    exact ⟨rfl, none, hsecond⟩
  | some p =>
    obtain ⟨p', -, heq⟩ := Option.map_eq_some_iff.mp h
    obtain ⟨-, rfl, rfl⟩ : some p' = path ∧ t₀ = t ∧ t₁ = t' := by simpa using heq
    exact ⟨rfl, some p, hsecond⟩

lemma gnomeUri_ends {data beyond : Bytes} {path : Option Bytes} {t₀ t t' : ℕ}
    (hread : gnomeUri (some (data ++ beyond)) t₀ = some (path, t, t')) (hle : t' ≤ data.length) :
    SecondEnds data := by
  by_contra hends
  obtain ⟨-, second, hsecond⟩ := gnomeUri_eq_some hread
  have hlt := secondLine_beyond hends hsecond
  omega

lemma uriList_ends {data beyond : Bytes} {gnome path : Option Bytes} {t t' : ℕ}
    (hread : clipboardGetFileUri (some (data ++ beyond)) gnome = some (path, t, t')) (hle : t ≤ data.length) :
    LineEnds data := by
  by_contra hends
  unfold clipboardGetFileUri at hread
  obtain ⟨⟨first, t₁⟩, hfirst, hread⟩ := Option.bind_eq_some_iff.mp hread
  have hlt := fileUri_beyond hends hfirst
  have htouched : t = t₁ := by
    cases first with
    | some p =>
      obtain ⟨p', -, heq⟩ := Option.map_eq_some_iff.mp hread
      simp only [Prod.mk.injEq] at heq
      exact heq.2.1.symm
    | none =>
      cases gnome with
      | none =>
        simp only [gnomeUri, Option.some.injEq, Prod.mk.injEq] at hread
        exact hread.2.1.symm
      | some s => exact (gnomeUri_eq_some hread).1
  omega

lemma clipboardGetFileUri_data {data : Bytes} (h : LineEnds data) (beyond : Bytes) (gnome : Option Bytes) :
    clipboardGetFileUri (some (data ++ beyond)) gnome =
      match pathOf (data.takeWhile inLine) with
      | some p => some (some (cString (urlDecode p)), (data.takeWhile inLine).length + 1, 0)
      | none => gnomeUri gnome ((data.takeWhile inLine).length + 1) := by
  rw [clipboardGetFileUri, (fileUri_data h beyond).1, Option.bind_some]
  cases hpath : pathOf (data.takeWhile inLine) with
  | none => rfl
  | some p =>
    dsimp only
    rw [decoded_eq (pathOf_zero takeWhile_inLine hpath), Option.map_some]

lemma gnomeUri_onlyData (gnome : Option Bytes) {t₀ n : ℕ} (hle : t₀ ≤ n) :
    (∃ path, ∀ beyond : Bytes, ∃ t t', gnomeUri (gnome.map (· ++ beyond)) t₀ = some (path, t, t') ∧
      t ≤ n ∧ t' ≤ (gnome.getD []).length) ↔ ∀ data, gnome = some data → SecondEnds data := by
  constructor
  · rintro ⟨path, h⟩ data rfl
    obtain ⟨t, t', hread, -, hle'⟩ := h []
    exact gnomeUri_ends hread hle'
  · intro h
    cases gnome with
    | none => exact ⟨none, fun _ => ⟨t₀, 0, rfl, hle, Nat.le_refl _⟩⟩
    | some data =>
      obtain ⟨path, t', hle', hread⟩ := gnomeUri_data (h data rfl)
      exact ⟨path, fun beyond => ⟨t₀, t', hread beyond t₀, hle, hle'⟩⟩

/-- **Only the data is looked at** exactly if the first line of the list ends in it and, unless this line is a
file, so does the second line of the other data. -/
theorem only_data_iff (uriList gnome : Option Bytes) :
    OnlyData uriList gnome ↔
      (∀ data, uriList = some data → LineEnds data) ∧
        ((∃ data, uriList = some data ∧ ascii "file://" <+: data) ∨
          ∀ data, gnome = some data → SecondEnds data) := by
  cases uriList with
  | none =>
    rw [and_iff_right (by simp), or_iff_right (by simp), ← gnomeUri_onlyData gnome (Nat.zero_le 0)]
    exact exists_congr fun path => ⟨fun h => h [], fun h _ => h⟩
  | some data =>
    have hstep : ∀ hends : LineEnds data, OnlyData (some data) gnome ↔
        ascii "file://" <+: data ∨ ∀ data, gnome = some data → SecondEnds data := by
      intro hends
      have hle := (fileUri_data hends []).2
      rw [← pathOf_isSome_iff]
      unfold OnlyData
      simp only [Option.map_some, clipboardGetFileUri_data hends, Option.getD_some]
      cases hpath : pathOf (data.takeWhile inLine) with
      | some p =>
        refine iff_of_true ⟨_, fun _ _ => ⟨_, _, rfl, hle, Nat.zero_le _⟩⟩ (Or.inl rfl)
      | none =>
        rw [or_iff_right (by simp), ← gnomeUri_onlyData gnome hle]
        exact exists_congr fun path => ⟨fun h => h [], fun h _ => h⟩
    constructor
    · rintro h
      have hends : LineEnds data := by
        obtain ⟨path, hdata⟩ := h
        obtain ⟨t, t', hread, hle, -⟩ := hdata [] []
        exact uriList_ends hread hle
      refine ⟨fun _ heq => Option.some.inj heq ▸ hends, ?_⟩
      exact ((hstep hends).mp h).imp (fun hfile => ⟨data, rfl, hfile⟩) id
    · rintro ⟨hends, h⟩
      refine (hstep (hends data rfl)).mpr (h.imp ?_ id)
      rintro ⟨_, heq, hfile⟩
      exact Option.some.inj heq ▸ hfile

lemma read_second {x : Bytes} (hx : ∀ b ∈ x, b ≠ 10 ∧ b ≠ 0) (beyond : Bytes) :
    ∃ t', clipboardGetFileUri none (some (ascii "copy\n" ++ x ++ 0 :: beyond)) =
      some ((pathOf x).map fun p => cString (urlDecode p), 0, t') := by
  have hsecond : secondLine (ascii "copy\n" ++ x ++ 0 :: beyond) = some (pathOf x, 4 + 1 + (x.length + 1)) := by
    have hline := @secondLine_append 10 (ascii "copy") (by decide +kernel) (Or.inl rfl) (x ++ 0 :: beyond)
    rw [if_pos rfl, fileUri_append hx (Or.inr rfl)] at hline
    rw [List.append_assoc]
    exact hline
  refine ⟨4 + 1 + (x.length + 1), ?_⟩
  rw [clipboardGetFileUri, gnomeUri, hsecond, Option.bind_some]
  cases hpath : pathOf x with
  | none => rfl
  | some p =>
    dsimp only
    rw [decoded_eq (pathOf_zero hx hpath), Option.map_some]
    rfl

/-- A file without an end of line: the path goes on behind the data. -/
theorem reads_beyond : ¬ OnlyData none (some (ascii "copy\nfile:///a")) := by
  rintro ⟨path, h⟩
  obtain ⟨_, _, hread, -⟩ := h [] (ascii "b\x00")
  obtain ⟨_, _, hread', -⟩ := h [] (ascii "c\x00")
  obtain ⟨_, hb⟩ := @read_second (ascii "file:///ab") (by decide +kernel) []
  obtain ⟨_, hc⟩ := @read_second (ascii "file:///ac") (by decide +kernel) []
  have hpath : path = some (ascii "/ab") := (Prod.mk.inj (Option.some.inj (hread.symm.trans hb))).1
  have hpath' : path = some (ascii "/ac") := (Prod.mk.inj (Option.some.inj (hread'.symm.trans hc))).1
  exact absurd (hpath.symm.trans hpath') (by decide)

/-! ### Setting and reading -/

lemma noEscape_cons_iff {c : UInt8} {s : Bytes} : NoEscape (c :: s) ↔ first (c :: s) = none ∧ NoEscape s := by
  constructor
  · intro h
    refine ⟨?_, fun a b r hsuffix => h a b r (hsuffix.trans (List.suffix_cons c s))⟩
    rw [Option.eq_none_iff_forall_ne_some]
    intro byte hbyte
    obtain ⟨a, b, r, rfl, rfl, hnumber⟩ := first_eq_some hbyte
    exact h a b r List.suffix_rfl ((sscanf02x_isSome_iff _).mp (by rw [hnumber]; rfl))
  · rintro ⟨hnone, htail⟩ a b r hsuffix
    rcases List.suffix_cons_iff.mp hsuffix with heq | hsuffix
    · intro hnumber
      have hsome := (sscanf02x_isSome_iff _).mpr hnumber
      rw [← heq] at hnone
      rw [show sscanf02x (a :: b :: r) = none from hnone] at hsome
      cases hsome
    · exact htail a b r hsuffix

lemma urlDecode_cases (s : Bytes) :
    NoEscape s ∧ urlDecode s = s ∨ ¬ NoEscape s ∧ (urlDecode s).length < s.length := by
  induction hn : s.length using Nat.strong_induction_on generalizing s with
  | _ n ih =>
    subst hn
    cases s with
    | nil => exact Or.inl ⟨fun a b r h => absurd (List.suffix_nil.mp h) (by simp), rfl⟩
    | cons c s =>
      rw [noEscape_cons_iff, urlDecode_cons]
      cases hfirst : first (c :: s) with
      | some byte =>
        obtain ⟨a, b, r, rfl, -⟩ := first_eq_some hfirst
        have hle : (urlDecode r).length ≤ r.length := by
          rcases ih r.length (by simp; omega) r rfl with ⟨-, heq⟩ | ⟨-, hlt⟩
          · rw [heq]
          · exact hlt.le
        refine Or.inr ⟨by simp, ?_⟩
        simp only [List.drop_succ_cons, List.drop_zero, List.length_cons]
        omega
      | none =>
        rcases ih s.length (by simp) s rfl with ⟨hno, heq⟩ | ⟨hesc, hlt⟩
        · exact Or.inl ⟨⟨rfl, hno⟩, by simp [heq]⟩
        · exact Or.inr ⟨fun h => hesc h.2, by simpa using hlt⟩

lemma cString_urlDecode_iff {p : Bytes} (h : 0 ∉ p) : cString (urlDecode p) = p ↔ NoEscape p := by
  rcases urlDecode_cases p with ⟨hno, heq⟩ | ⟨hesc, hlt⟩
  · refine iff_of_true ?_ hno
    rw [heq, cString_eq h]
  · refine iff_of_false (fun heq => ?_) hesc
    have hle : (cString (urlDecode p)).length ≤ (urlDecode p).length := (List.takeWhile_prefix _).length_le
    rw [heq] at hle
    omega

/-- **Setting and reading a file.** The path is read back exactly if `xclip_clipboard_set_file` wrote it and there
is nothing to decode in it. -/
theorem round_trip_iff (backend : Backend) (filepath : Bytes) (habs : [47] <+: filepath)
    (hplain : ∀ b ∈ filepath, b ≠ 10 ∧ b ≠ 13 ∧ b ≠ 0) :
    RoundTrip backend filepath ↔ backend = .xclip ∧ NoEscape filepath := by
  have hzero : 0 ∉ filepath := fun h => (hplain 0 h).2.2 rfl
  cases backend with
  | xclip =>
    have hx : ∀ b ∈ ascii "file://" ++ filepath, b ≠ 10 ∧ b ≠ 0 := by
      intro b hb
      rcases List.mem_append.mp hb with hb | hb
      · exact (show ∀ b ∈ ascii "file://", b ≠ 10 ∧ b ≠ 0 by decide +kernel) b hb
      · exact ⟨(hplain b hb).1, (hplain b hb).2.2⟩
    have hline : line (ascii "file://" ++ filepath) = ascii "file://" ++ filepath := by
      refine List.takeWhile_eq_self_iff.mpr fun b hb => ?_
      rcases List.mem_append.mp hb with hb | hb
      · exact (show ∀ b ∈ ascii "file://", decide (b ≠ 13) = true by decide +kernel) b hb
      · exact decide_eq_true (hplain b hb).2.1
    have hpath : pathOf (ascii "file://" ++ filepath) = some filepath := by
      rw [pathOf, hline, if_pos (List.prefix_append _ _)]
      exact congrArg some (List.drop_left' rfl)
    rw [and_iff_right rfl, ← cString_urlDecode_iff hzero]
    constructor
    · intro h
      obtain ⟨t, t', hread⟩ := h []
      obtain ⟨t'', hread'⟩ := read_second hx []
      rw [hpath] at hread'
      have heq := hread.symm.trans hread'
      simp only [Option.map_some, Option.some.injEq, Prod.mk.injEq] at heq
      exact heq.1.symm
    · intro h beyond
      obtain ⟨t', hread⟩ := read_second hx beyond
      refine ⟨0, t', ?_⟩
      rw [hpath, Option.map_some, h] at hread
      exact hread
  | wl =>
    refine iff_of_false (fun h => ?_) (by simp)
    obtain ⟨rest, rfl⟩ := habs
    have hx : ∀ b ∈ [47] ++ rest, b ≠ 10 ∧ b ≠ 0 := fun b hb => ⟨(hplain b hb).1, (hplain b hb).2.2⟩
    have hpath : pathOf ([47] ++ rest) = none := by
      rw [pathOf, if_neg]
      intro hfile
      have hline : ascii "file://" <+: [47] ++ rest := hfile.trans (List.takeWhile_prefix _)
      exact absurd (List.cons_prefix_cons.mp hline).1 (by decide)
    obtain ⟨t, t', hread⟩ := h []
    obtain ⟨t'', hread'⟩ := read_second hx []
    rw [hpath] at hread'
    exact absurd (hread.symm.trans hread') (by simp)

/-- A name with a blank. -/
theorem round_trip_blank : RoundTrip .xclip (ascii "/a b") :=
  (round_trip_iff _ _ (by decide) (by decide +kernel)).mpr ⟨rfl, by
    rw [← cString_urlDecode_iff (by decide)]
    decide⟩

/-- What `wl_clipboard_set_file` writes is not read as a file. -/
theorem wl_reads_none : ¬ RoundTrip .wl (ascii "/a") := by
  intro h
  obtain ⟨t, t', hread⟩ := h []
  have hnone : clipboardGetFileUri none (some (ascii "copy\n/a\x00")) = some (none, 0, 8) := by decide
  exact absurd (hread.symm.trans hnone) (by simp)

end SyncClipboard.FileUri
