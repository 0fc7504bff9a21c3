import Mathlib.Algebra.Ring.Int.Defs
import Mathlib.Algebra.Ring.Nat
import SyncClipboard.FtAuth

/-!
The C library on strings. A string is given by its bytes, without the zero at its end.
-/

namespace SyncClipboard.CString

open FtAuth

def utf8 (s : String) : Bytes := s.toList.flatMap String.utf8EncodeChar

/-- `strncpy` into a blank array that takes `n` bytes. -/
def strncpy (n : ℕ) (src : Bytes) : Bytes := src.take n

/-- What stands before the first `c` and what stands after it. -/
def strchr (c : UInt8) : Bytes → Option (Bytes × Bytes)
  | [] => none
  | b :: s =>
    if b = c then some ([], s)
    else (strchr c s).map fun (before, after) => (b :: before, after)

/-- What stands before the last `c` and what stands after it. -/
def strrchr (c : UInt8) : Bytes → Option (Bytes × Bytes)
  | [] => none
  | b :: s =>
    match strrchr c s with
    | some (before, after) => some (b :: before, after)
    | none => if b = c then some ([], s) else none

def isDigit (b : UInt8) : Bool := 48 ≤ b && b ≤ 57

/-- The number written by a list of decimal digits. -/
def decimal (s : Bytes) : ℕ := s.foldl (fun n b => 10 * n + (b.toNat - 48)) 0

/-- `strtol` with base ten, for a `long` of `w` bits: white space, a sign, and the digits that
follow. A number that does not fit becomes the nearest that does. -/
def strtol (w : ℕ) (s : Bytes) : ℤ :=
  let bound : ℤ := 2 ^ (w - 1)
  match s.dropWhile isSpace with
  | [] => 0
  | b :: s =>
    if b = 45 then max (-bound) (-(decimal (s.takeWhile isDigit)))
    else if b = 43 then min (bound - 1) (decimal (s.takeWhile isDigit))
    else min (bound - 1) (decimal ((b :: s).takeWhile isDigit))

/-- `atoi`: the `long`, cut to an `int`. -/
def atoi (w : ℕ) (s : Bytes) : ℤ := (strtol w s).bmod (2 ^ 32)

example : atoi 64 (ascii " -12x") = -12 ∧ atoi 64 (ascii "99999999999999999999") = -1 := by
  decide +kernel

/-! ### Hexadecimal numbers -/

def IsHex (b : UInt8) : Prop := (hexDigit b).isSome = true

instance (b : UInt8) : Decidable (IsHex b) := inferInstanceAs (Decidable (_ = true))

/-- Where `%2x` finds a number, after white space: at a sign and a digit, or at a digit. -/
def Number (s : Bytes) : Prop :=
  match s.dropWhile isSpace with
  | a :: b :: _ => (a = 43 ∨ a = 45) ∧ IsHex b ∨ IsHex a
  | [a] => IsHex a
  | [] => False

lemma byte_cases {P : UInt8 → Prop} (h : ∀ n < 256, P (UInt8.ofNat n)) (b : UInt8) : P b := by
  have hb := h b.toNat b.toNat_lt
  rwa [UInt8.ofNat_toNat] at hb

lemma hexDigit_lt {b : UInt8} {x : ℕ} (h : hexDigit b = some x) : x < 16 := by
  have hall : ∀ b : UInt8, (hexDigit b).all fun x => decide (x < 16) := byte_cases (by decide +kernel)
  simpa [h] using hall b

lemma hexDigit_eq_some_iff {b : UInt8} {x : ℕ} (hx : x < 10) :
    hexDigit b = some x ↔ b = UInt8.ofNat (48 + x) := by
  have hall : ∀ b : UInt8, ∀ x < 10, hexDigit b = some x ↔ b = UInt8.ofNat (48 + x) :=
    byte_cases (by decide +kernel)
  exact hall b x hx

lemma IsHex.not_sign {b : UInt8} (h : IsHex b) : isSpace b = false ∧ b ≠ 43 ∧ b ≠ 45 := by
  obtain ⟨x, hx⟩ := Option.isSome_iff_exists.mp h
  exact hexDigit_some hx

/-- **A number is found where one begins.** -/
theorem sscanf02x_isSome_iff (s : Bytes) : (sscanf02x s).isSome = true ↔ Number s := by
  unfold sscanf02x Number
  match s.dropWhile isSpace with
  | [] => simp
  | [a] => simp [IsHex]
  | a :: b :: _ =>
    dsimp only
    by_cases hplus : a = 43
    · subst hplus
      simp [IsHex, show hexDigit 43 = none from rfl]
    by_cases hminus : a = 45
    · subst hminus
      simp [IsHex, show hexDigit 45 = none from rfl]
    rw [if_neg hplus, if_neg hminus]
    have hsign : ¬ (a = 43 ∨ a = 45) := not_or.mpr ⟨hplus, hminus⟩
    cases ha : hexDigit a with
    | none => simp [IsHex, ha, hsign]
    | some x => cases hb : hexDigit b <;> simp [IsHex, ha, hb]

instance (s : Bytes) : Decidable (Number s) := decidable_of_iff _ (sscanf02x_isSome_iff s)

lemma Number.of_digits {a b : UInt8} (ha : IsHex a) (hb : IsHex b) (s : Bytes) :
    Number (a :: b :: s) := by
  obtain ⟨x, hx⟩ := Option.isSome_iff_exists.mp ha
  obtain ⟨y, hy⟩ := Option.isSome_iff_exists.mp hb
  rw [← sscanf02x_isSome_iff, sscanf02x_digits hx hy]
  rfl

/-! ### Occurrences -/

lemma strrchr_eq_none_iff {c : UInt8} {s : Bytes} : strrchr c s = none ↔ c ∉ s := by
  induction s with
  | nil => simp [strrchr]
  | cons b s ih =>
    rw [strrchr]
    cases hs : strrchr c s with
    | some p => simp [hs] at ih; simp [ih]
    | none =>
      have hmem : c ∉ s := ih.mp hs
      by_cases hb : b = c
      · simp [hb]
      · simp [hb, hmem, Ne.symm hb]

lemma mem_utf8EncodeChar {c : Char} {b : UInt8} (hb : b.toNat < 128)
    (h : b ∈ String.utf8EncodeChar c) : c.toNat = b.toNat := by
  have hhigh : ∀ v m k, 0 < m → 128 ≤ k → m + k ≤ 256 → b ≠ UInt8.ofNat (v % m + k) := by
    rintro v m k hm hk hle rfl
    have hlt := Nat.mod_lt v hm
    rw [UInt8.toNat_ofNat', Nat.mod_eq_of_lt (by omega)] at hb
    omega
  revert h
  unfold String.utf8EncodeChar
  dsimp only
  split_ifs with hv
  · intro h
    rw [List.mem_singleton.mp h, UInt8.toNat_ofNat', Nat.mod_eq_of_lt (by omega)]
    rfl
  all_goals
    intro h
    simp only [List.mem_cons, List.not_mem_nil, or_false] at h
    exfalso
    revert h
    simp only [imp_false, not_or]
    repeat' apply And.intro
    all_goals exact hhigh _ _ _ (by omega) (by omega) (by omega)

/-- No character begins with another one. -/
lemma utf8EncodeChar_append_inj {c d : Char} {s t : Bytes}
    (h : String.utf8EncodeChar c ++ s = String.utf8EncodeChar d ++ t) : c = d ∧ s = t := by
  have hdecode (a : Char) (r : Bytes) :
      ByteArray.utf8DecodeChar? (String.utf8EncodeChar a ++ r).toByteArray 0 = some a := by
    rw [List.toByteArray_append]
    exact ByteArray.utf8DecodeChar?_utf8EncodeChar_append
  have hchar : c = d := by
    have hc := hdecode c s
    rw [h, hdecode d t] at hc
    exact (Option.some.inj hc).symm
  subst hchar
  exact ⟨rfl, List.append_cancel_left h⟩

/-- A part of a character is no text. -/
lemma take_utf8EncodeChar_ne {c : Char} {n : ℕ} (hpos : 0 < n) (hlt : n < c.utf8Size) (ts : List Char) :
    (String.utf8EncodeChar c).take n ≠ ts.flatMap String.utf8EncodeChar := by
  have hlen := String.length_utf8EncodeChar c
  intro heq
  cases ts with
  | nil =>
    have hnil := congrArg List.length heq
    rw [List.length_take, List.flatMap_nil, List.length_nil] at hnil
    omega
  | cons d ts =>
    rw [List.flatMap_cons] at heq
    have hwhole : String.utf8EncodeChar d ++
        (ts.flatMap String.utf8EncodeChar ++ (String.utf8EncodeChar c).drop n) =
        String.utf8EncodeChar c ++ [] := by
      rw [← List.append_assoc, ← heq, List.take_append_drop, List.append_nil]
    obtain ⟨-, hnil⟩ := utf8EncodeChar_append_inj hwhole
    have hdrop := congrArg List.length (List.append_eq_nil_iff.mp hnil).2
    rw [List.length_drop, hlen, List.length_nil] at hdrop
    omega

lemma char_of_mem_utf8 {s : String} {b : UInt8} (hb : b.toNat < 128) (h : b ∈ utf8 s) :
    ∃ c ∈ s.toList, c.toNat = b.toNat := by
  obtain ⟨c, hc, hbc⟩ := List.mem_flatMap.mp h
  exact ⟨c, hc, mem_utf8EncodeChar hb hbc⟩

end SyncClipboard.CString
