import SyncClipboard.Crypto
import SyncClipboard.TextDedup

/-!
The three parsers of a key written in hexadecimal digits.

Each takes two characters at a time and leaves them to a scanner of numbers. The scanner of C skips
white space and takes a sign or a single digit, the one of Java takes a sign and the digits of every
script. So strings that are no keys are taken, and not by all three: `keys_iff` says which.
-/

namespace SyncClipboard.KeyHex

open FtAuth CString
open TextDedup (utf16)

/-! ### Two characters at a time -/

section Pairs

variable {α : Type*} {f g : List α → Option UInt8} {n : ℕ} {s : List α}

def pairs (f : List α → Option UInt8) : ℕ → List α → Option Bytes
  | 0, _ => some []
  | n + 1, s => (f s).bind fun b => (pairs f n (s.drop 2)).map fun key => b :: key

/-- **All places or none.** -/
lemma pairs_eq_none : pairs f n s = none ↔ ∃ i < n, f (s.drop (2 * i)) = none := by
  induction n generalizing s with
  | zero => simp [pairs]
  | succ n ih =>
    have hshift : (∃ i < n + 1, f (s.drop (2 * i)) = none) ↔
        f s = none ∨ ∃ i < n, f ((s.drop 2).drop (2 * i)) = none := by
      simp only [List.drop_drop]
      constructor
      · rintro ⟨i, hi, hnone⟩
        cases i with
        | zero => exact Or.inl hnone
        | succ i => exact Or.inr ⟨i, by omega, by rwa [show 2 + 2 * i = 2 * (i + 1) by omega]⟩
      · rintro (hnone | ⟨i, hi, hnone⟩)
        · exact ⟨0, by omega, hnone⟩
        · exact ⟨i + 1, by omega, by rwa [show 2 * (i + 1) = 2 + 2 * i by omega]⟩
    rw [hshift, ← ih, pairs]
    cases f s with
    | none => simp
    | some b => simp

lemma pairs_congr {β : Type*} {h : List β → Option UInt8} {t : List β}
    (heq : ∀ i < n, f (s.drop (2 * i)) = h (t.drop (2 * i))) : pairs f n s = pairs h n t := by
  induction n generalizing s t with
  | zero => rfl
  | succ n ih =>
    have hrest := @ih (s.drop 2) (t.drop 2) fun i hi => by
      have hi' := heq (i + 1) (by omega)
      rwa [show 2 * (i + 1) = 2 + 2 * i by omega, ← List.drop_drop, ← List.drop_drop] at hi'
    have hfirst : f s = h t := heq 0 (by omega)
    rw [pairs, pairs, hfirst, hrest]

end Pairs

lemma parseKey_eq (n : ℕ) (s : Bytes) : parseKey n s = pairs sscanf02x n s := by
  induction n generalizing s with
  | zero => rfl
  | succ n ih => simp only [parseKey, pairs, ih]

lemma parseKeyAndroid_eq (n : ℕ) (s : Bytes) : parseKeyAndroid n s = pairs toInt16 n s := by
  induction n generalizing s with
  | zero => rfl
  | succ n ih => simp only [parseKeyAndroid, pairs, ih]

/-! ### codec.c -/

/-- `sc_hex_to_bytes`, with the product of a `size_t`. -/
def scHexToBytes (hex : Bytes) (outLen : UInt64) : Option Bytes :=
  if hex.length ≠ (outLen * 2).toNat then none else parseKey outLen.toNat hex

def digits : Bytes := ascii "0123456789abcdef"

def scBytesToHex (bytes : Bytes) : Bytes :=
  bytes.flatMap fun (b : UInt8) => [digits.getD ((b >>> 4) &&& 0x0F).toNat 0, digits.getD (b &&& 0x0F).toNat 0]

def toLower (b : UInt8) : UInt8 := if 65 ≤ b ∧ b ≤ 90 then b + 32 else b

/-- Two hexadecimal digits for each byte. -/
def HexString (s : Bytes) (outLen : ℕ) : Prop := s.length = 2 * outLen ∧ ∀ b ∈ s, IsHex b

/-- Exactly hexadecimal strings are taken, with the bytes they stand for. -/
def Parses (s : Bytes) (outLen : UInt64) : Prop :=
  ∀ out, scHexToBytes s outLen = some out ↔
    HexString s outLen.toNat ∧ out = keyBytes s ∧ scBytesToHex out = s.map toLower

/-! ### ft_auth.c -/

def ftKey (keyHex : Bytes) : Option Bytes :=
  let klen := min (keyHex.length / 2) 32
  (parseKey klen keyHex).bind fun key => if klen < 32 then none else some key

lemma ftComputeHmac_eq (H : Bytes → Bytes → Bytes) (fileId keyHex : Bytes) :
    ftComputeHmac H fileId keyHex =
      (ftKey keyHex).bind fun key =>
        if (H key fileId).length = 32 then some (H key fileId) else none := by
  unfold ftComputeHmac ftKey
  dsimp only
  cases parseKey (min (keyHex.length / 2) 32) keyHex with
  | none => rfl
  | some key =>
    rw [Option.bind_some]
    split_ifs <;> rfl

/-! ### AesGcmCipher.kt -/

/-- The characters of a string in Kotlin. -/
def units (t : String) : List ℕ := t.toList.flatMap utf16

/-- Documented behaviour of `Character.digit(_, 16)`: in ASCII it knows the hexadecimal digits. Elsewhere it
knows the digits of other scripts. -/
def Digits (digit : ℕ → Option ℕ) : Prop := ∀ b : UInt8, b < 128 → digit b.toNat = hexDigit b

variable (digit : ℕ → Option ℕ)

/-- `substring(0, 2).toInt(16).toByte()`; `none` is an exception. -/
def toInt (s : List ℕ) : Option UInt8 :=
  match s with
  | a :: b :: _ =>
    if a = 43 then (digit b).map UInt8.ofNat
    else if a = 45 then (digit b).map fun d => UInt8.ofNat (256 - d)
    else (digit a).bind fun x => (digit b).map fun y => UInt8.ofNat (16 * x + y)
  | _ => none

def AesGcmCipher.parseKey (hex : String) : Option Bytes :=
  if (units hex).length ≠ 32 * 2 then none else pairs (toInt digit) 32 (units hex)

/-- A digit behind a digit or a sign. -/
def Signed (s : List ℕ) : Prop :=
  match s with
  | a :: b :: _ => (a = 43 ∨ a = 45 ∨ (digit a).isSome = true) ∧ (digit b).isSome = true
  | _ => False

instance (s : List ℕ) : Decidable (Signed digit s) :=
  match s with
  | [] => isFalse id
  | [_] => isFalse id
  | _ :: _ :: _ => inferInstanceAs (Decidable (_ ∧ _))

/-- All three take the string, with the same bytes, or none does. -/
def Agree (t : String) : Prop :=
  AesGcmCipher.parseKey digit t = scHexToBytes (utf8 t) 32 ∧ ftKey (utf8 t) = scHexToBytes (utf8 t) 32

/-! ### Hexadecimal strings -/

/-- The digit that is written for the value of a digit. -/
lemma digits_hexDigit {b : UInt8} {x : ℕ} (h : hexDigit b = some x) :
    x < 16 ∧ digits.getD x 0 = toLower b := by
  have hall : ∀ b : UInt8, (hexDigit b).all fun x =>
      decide (x < 16) && decide (digits.getD x 0 = toLower b) := byte_cases (by decide +kernel)
  have hb := hall b
  rw [h, Option.all_some, Bool.and_eq_true, decide_eq_true_eq, decide_eq_true_eq] at hb
  exact hb

lemma halves (b : UInt8) :
    ((b >>> 4) &&& 0x0F).toNat = b.toNat / 16 ∧ (b &&& 0x0F).toNat = b.toNat % 16 := by
  have hall : ∀ b : UInt8, ((b >>> 4) &&& 0x0F).toNat = b.toNat / 16 ∧ (b &&& 0x0F).toNat = b.toNat % 16 :=
    byte_cases (by decide +kernel)
  exact hall b

/-- **What is written is the string in lower case.** -/
lemma scBytesToHex_keyBytes {n : ℕ} {s : Bytes} (h : HexString s n) :
    scBytesToHex (keyBytes s) = s.map toLower := by
  obtain ⟨hlen, hs⟩ := h
  induction n generalizing s with
  | zero =>
    obtain rfl := List.length_eq_zero_iff.mp hlen
    rfl
  | succ n ih =>
    match s, hlen, hs with
    | a :: b :: s, hlen, hs =>
      obtain ⟨x, hx⟩ := Option.isSome_iff_exists.mp (hs a (by simp))
      obtain ⟨y, hy⟩ := Option.isSome_iff_exists.mp (hs b (by simp))
      obtain ⟨hx16, hxa⟩ := digits_hexDigit hx
      obtain ⟨hy16, hyb⟩ := digits_hexDigit hy
      have hrest : s.length = 2 * n := by
        simp only [List.length_cons] at hlen
        omega
      have ih := ih hrest fun c hc => hs c (by simp [hc])
      have hvalue : (UInt8.ofNat (16 * x + y)).toNat = 16 * x + y := by
        rw [UInt8.toNat_ofNat', Nat.mod_eq_of_lt (by omega)]
      have hhigh : ((UInt8.ofNat (16 * x + y) >>> 4) &&& 0x0F).toNat = x := by
        rw [(halves _).1, hvalue]
        omega
      have hlow : (UInt8.ofNat (16 * x + y) &&& 0x0F).toNat = y := by
        rw [(halves _).2, hvalue]
        omega
      have hcons : scBytesToHex (keyBytes (a :: b :: s)) =
          [digits.getD x 0, digits.getD y 0] ++ scBytesToHex (keyBytes s) := by
        simp only [keyBytes, scBytesToHex, List.flatMap_cons, hx, hy, Option.getD_some, hhigh, hlow]
      rw [hcons, ih, hxa, hyb]
      rfl
    | [a], hlen, _ => simp at hlen; omega
    | [], hlen, _ => simp at hlen

lemma HexString.number {n : ℕ} {s : Bytes} (h : HexString s n) {i : ℕ} (hi : i < n) :
    Number (s.drop (2 * i)) := by
  obtain ⟨hlen, hs⟩ := h
  have hdrop : ∀ b ∈ s.drop (2 * i), IsHex b := fun b hb => hs b (List.mem_of_mem_drop hb)
  have hlong : (s.drop (2 * i)).length = 2 * (n - i) := by
    rw [List.length_drop]
    omega
  match hmatch : s.drop (2 * i), hlong with
  | a :: b :: rest, _ =>
    rw [hmatch] at hdrop
    exact Number.of_digits (hdrop a (by simp)) (hdrop b (by simp)) rest
  | [a], hlong => simp at hlong; omega
  | [], hlong => simp at hlong; omega

/-! ### sc_hex_to_bytes -/

lemma parseKey_eq_none {n : ℕ} {s : Bytes} : parseKey n s = none ↔ ∃ i < n, ¬ Number (s.drop (2 * i)) := by
  rw [parseKey_eq, pairs_eq_none]
  simp only [← sscanf02x_isSome_iff, Bool.not_eq_true, Option.isSome_eq_false_iff, Option.isNone_iff_eq_none]

/-- The product does not matter: a string that is too short ends before the loop does. -/
lemma scHexToBytes_crypto {s : Bytes} (hs : s.length < 2 ^ 64) (outLen : UInt64) :
    scHexToBytes s outLen = Crypto.scHexToBytes s outLen.toNat := by
  have hmul : (outLen * 2).toNat = outLen.toNat * 2 % 2 ^ 64 := UInt64.toNat_mul _ _
  unfold scHexToBytes Crypto.scHexToBytes
  rw [hmul]
  by_cases hwrap : s.length = outLen.toNat * 2
  · rw [if_neg (by omega), if_neg (by omega)]
  · rw [if_pos hwrap]
    split_ifs with hlen
    · rfl
    · refine parseKey_eq_none.mpr ⟨s.length / 2, by omega, ?_⟩
      rw [List.drop_of_length_le (by omega)]
      exact id

lemma parses_iff {s : Bytes} (hs : s.length < 2 ^ 64) (outLen : UInt64) :
    Parses s outLen ↔ s.length ≠ 2 * outLen.toNat ∨ (∀ b ∈ s, IsHex b) ∨
      ∃ i < outLen.toNat, ¬ Number (s.drop (2 * i)) := by
  have hsc := scHexToBytes_crypto hs outLen
  unfold Parses
  rw [hsc, Crypto.scHexToBytes]
  constructor
  · intro h
    by_contra hbad
    simp only [not_or, not_not] at hbad
    obtain ⟨hlen, hhex, hnum⟩ := hbad
    rw [if_neg (by omega)] at h
    cases hkey : parseKey outLen.toNat s with
    | none => exact hnum (parseKey_eq_none.mp hkey)
    | some out => exact hhex ((h out).mp hkey).1.2
  · intro h out
    split_ifs with hlen
    · refine iff_of_false (by simp) fun hout => hlen ?_
      have := hout.1.1
      omega
    · have hlen : s.length = 2 * outLen.toNat := by omega
      by_cases hhex : ∀ b ∈ s, IsHex b
      · have hstring : HexString s outLen.toNat := ⟨hlen, hhex⟩
        rw [(parseKey_digits hlen hhex).1, Option.some.injEq]
        constructor
        · rintro rfl
          exact ⟨hstring, rfl, scBytesToHex_keyBytes hstring⟩
        · rintro ⟨-, hout, -⟩
          exact hout.symm
      · have hnone : parseKey outLen.toNat s = none := by
          rw [parseKey_eq_none]
          rcases h with h | h | h
          · exact absurd hlen h
          · exact absurd h hhex
          · exact h
        rw [hnone]
        exact iff_of_false (by simp) fun hout => hhex hout.1.2

/-! ### Texts -/

/-- In UTF-8 a character takes as many places as in UTF-16 only if it is in ASCII. -/
lemma length_utf16_le (c : Char) :
    (utf16 c).length ≤ (String.utf8EncodeChar c).length ∧
      ((String.utf8EncodeChar c).length ≤ (utf16 c).length → c.toNat < 128) := by
  have hval : c.val.toNat = c.toNat := rfl
  unfold utf16 String.utf8EncodeChar
  dsimp only
  rw [hval]
  split_ifs <;> simp <;> omega

lemma length_units_le (t : String) :
    (units t).length ≤ (utf8 t).length ∧
      ((utf8 t).length ≤ (units t).length → ∀ c ∈ t.toList, c.toNat < 128) := by
  unfold units utf8
  induction t.toList with
  | nil => simp
  | cons c l ih =>
    obtain ⟨hle, hascii⟩ := length_utf16_le c
    simp only [List.flatMap_cons, List.length_append, List.mem_cons, forall_eq_or_imp]
    exact ⟨by omega, fun h => ⟨hascii (by omega), ih.2 (by omega)⟩⟩

lemma units_ascii {t : String} (h : ∀ c ∈ t.toList, c.toNat < 128) :
    units t = (utf8 t).map UInt8.toNat ∧ ∀ b ∈ utf8 t, b < 128 := by
  have hchar : ∀ c : Char, c.toNat < 128 →
      utf16 c = [c.toNat] ∧ ∃ b : UInt8, String.utf8EncodeChar c = [b] ∧ b.toNat = c.toNat := by
    intro c hc
    have hval : c.val.toNat = c.toNat := rfl
    refine ⟨if_pos (by omega), UInt8.ofNat c.toNat, ?_, ?_⟩
    · unfold String.utf8EncodeChar
      dsimp only
      rw [hval, if_pos (by omega)]
    · rw [UInt8.toNat_ofNat', Nat.mod_eq_of_lt (by omega)]
  unfold units utf8
  generalize t.toList = l at h ⊢
  induction l with
  | nil => simp
  | cons c l ih =>
    obtain ⟨h16, b, h8, hb⟩ := hchar c (h c (by simp))
    obtain ⟨ih16, ih8⟩ := ih fun c hc => h c (by simp [hc])
    have hb128 : b < 128 := UInt8.lt_iff_toNat_lt.mpr (by rw [hb]; exact h c (by simp))
    rw [List.flatMap_cons, List.flatMap_cons, h16, h8, ih16]
    exact ⟨by simp [hb], by simpa [hb128] using ih8⟩

/-! ### The three parsers -/

section Parsers

variable {digit}

lemma toInt_eq_none {s : List ℕ} : toInt digit s = none ↔ ¬ Signed digit s := by
  match s with
  | [] => simp [toInt, Signed]
  | [a] => simp [toInt, Signed]
  | a :: b :: _ =>
    simp only [toInt, Signed]
    split_ifs with hplus hminus
    · simp [hplus]
    · simp [hminus]
    · cases digit a <;> cases digit b <;> simp [hplus, hminus]

/-- Where Java takes two characters of ASCII, C takes them too, for the same byte. -/
lemma sscanf02x_signed (hdigit : Digits digit) {s : Bytes} (hs : ∀ b ∈ s, b < 128)
    (h : Signed digit (s.map UInt8.toNat)) : sscanf02x s = toInt digit (s.map UInt8.toNat) := by
  match s, h with
  | a :: b :: s, h =>
    have ha := hdigit a (hs a (by simp))
    have hb := hdigit b (hs b (by simp))
    have hplus : a.toNat = 43 ↔ a = 43 := @UInt8.toNat_inj a 43
    have hminus : a.toNat = 45 ↔ a = 45 := @UInt8.toNat_inj a 45
    simp only [List.map_cons, Signed, toInt, hplus, hminus, ha, hb] at h ⊢
    obtain ⟨hfirst, hsecond⟩ := h
    obtain ⟨y, hy⟩ := Option.isSome_iff_exists.mp hsecond
    rcases hfirst with rfl | rfl | hfirst
    · simp [sscanf02x, isSpace]
    · simp [sscanf02x, isSpace]
    · obtain ⟨x, hx⟩ := Option.isSome_iff_exists.mp hfirst
      obtain ⟨-, hne⟩ := hexDigit_some hx
      rw [sscanf02x_digits hx hy, if_neg hne.1, if_neg hne.2, hx, hy]
      rfl

lemma ftKey_eq {s : Bytes} (h : 64 ≤ s.length) : ftKey s = parseKey 32 s := by
  have hklen : min (s.length / 2) 32 = 32 := by omega
  unfold ftKey
  dsimp only
  rw [hklen]
  cases parseKey 32 s <;> rfl

/-- A string of 64 bytes or more is taken in C by both parsers or by none, unless it is too long. -/
lemma scHexToBytes_eq {s : Bytes} (h : s.length = 64) : scHexToBytes s 32 = parseKey 32 s := if_neg (by
  rw [h]
  decide)

lemma scHexToBytes_long {s : Bytes} (h : s.length ≠ 64) : scHexToBytes s 32 = none := if_pos h

lemma agree_iff_signed (hdigit : Digits digit) {t : String} (ht : (units t).length = 64) :
    Agree digit t ↔
      ((∀ c ∈ t.toList, c.toNat < 128) ∧ ∀ i < 32, Signed digit ((units t).drop (2 * i))) ∨
      ((∃ i < 32, ¬ Signed digit ((units t).drop (2 * i))) ∧
        ∃ i < 32, ¬ Number ((utf8 t).drop (2 * i))) := by
  obtain ⟨hle, hascii⟩ := length_units_le t
  have hkotlin : AesGcmCipher.parseKey digit t = pairs (toInt digit) 32 (units t) :=
    if_neg (by rw [ht]; decide)
  have hnone : pairs (toInt digit) 32 (units t) = none ↔
      ∃ i < 32, ¬ Signed digit ((units t).drop (2 * i)) := by
    simp only [pairs_eq_none, toInt_eq_none]
  unfold Agree
  rw [hkotlin, ftKey_eq (by omega)]
  constructor
  · rintro ⟨hagree, hft⟩
    by_cases hall : ∀ i < 32, Signed digit ((units t).drop (2 * i))
    · -- it is taken, so that it has 64 bytes
      refine Or.inl ⟨hascii ?_, hall⟩
      by_contra hlong
      rw [scHexToBytes_long (by omega), hnone] at hagree
      obtain ⟨i, hi, hbad⟩ := hagree
      exact hbad (hall i hi)
    · have hbad : ∃ i < 32, ¬ Signed digit ((units t).drop (2 * i)) := by
        simpa only [not_forall, exists_prop] using hall
      rw [hnone.mpr hbad] at hagree
      rw [← hagree] at hft
      exact Or.inr ⟨hbad, parseKey_eq_none.mp hft⟩
  · rintro (⟨hchars, hall⟩ | ⟨hbad, hnumber⟩)
    · obtain ⟨hunits, hbytes⟩ := units_ascii hchars
      have hlen : (utf8 t).length = 64 := by rw [← ht, hunits, List.length_map]
      rw [scHexToBytes_eq hlen, parseKey_eq]
      refine ⟨pairs_congr fun i hi => ?_, rfl⟩
      have hsigned := hall i hi
      rw [hunits, ← List.map_drop] at hsigned ⊢
      exact (sscanf02x_signed hdigit (fun b hb => hbytes b (List.mem_of_mem_drop hb)) hsigned).symm
    · have hft := parseKey_eq_none.mpr hnumber
      have hsc : scHexToBytes (utf8 t) 32 = none := by
        by_cases hlen : (utf8 t).length = 64
        · rw [scHexToBytes_eq hlen, hft]
        · exact scHexToBytes_long hlen
      rw [hsc, hft, hnone.mpr hbad]
      exact ⟨rfl, rfl⟩

end Parsers

/-- **What the parsers of a key take.** `sc_hex_to_bytes` takes hexadecimal strings only, unless it is given a
string of the right length that has a number at every second place. The three parsers agree on a text of
64 characters if it has digits or signs with a digit only, all in ASCII, or if it has both a pair that
Java refuses and a place where C finds no number. -/
theorem keys_iff {digit : ℕ → Option ℕ} (hdigit : Digits digit) :
    (∀ (s : Bytes) (outLen : UInt64), s.length < 2 ^ 64 →
      (Parses s outLen ↔ s.length ≠ 2 * outLen.toNat ∨ (∀ b ∈ s, IsHex b) ∨
        ∃ i < outLen.toNat, ¬ Number (s.drop (2 * i)))) ∧
    ∀ t : String, (units t).length = 64 →
      (Agree digit t ↔
        ((∀ c ∈ t.toList, c.toNat < 128) ∧ ∀ i < 32, Signed digit ((units t).drop (2 * i))) ∨
        ((∃ i < 32, ¬ Signed digit ((units t).drop (2 * i))) ∧
          ∃ i < 32, ¬ Number ((utf8 t).drop (2 * i)))) :=
  ⟨fun _ outLen hs => parses_iff hs outLen, fun _ ht => agree_iff_signed hdigit ht⟩

/-- `Character.digit(_, 16)` in ASCII. -/
def asciiDigit (u : ℕ) : Option ℕ := if u < 128 then hexDigit (UInt8.ofNat u) else none

def sampleKey : String := "000102030405060708090A0B0C0D0E0F101112131415161718191a1b1c1d1e+f"

theorem keys_iff_sample : Digits asciiDigit ∧ Parses (ascii "0aF9") 2 ∧ Agree asciiDigit sampleKey := by
  have hdigit : Digits asciiDigit := by
    intro b hb
    have hlt : b.toNat < 128 := UInt8.lt_iff_toNat_lt.mp hb
    rw [asciiDigit, if_pos hlt, UInt8.ofNat_toNat]
  obtain ⟨hparses, hagree⟩ := keys_iff hdigit
  refine ⟨hdigit, (hparses _ _ (by decide)).mpr (Or.inr (Or.inl (by decide +kernel))), ?_⟩
  have hchars := (length_units_le sampleKey).2 (by decide +kernel)
  exact (hagree sampleKey (by decide +kernel)).mpr (Or.inl ⟨hchars, by decide +kernel⟩)

/-- A blank and a digit are taken for a byte. -/
theorem parses_blank : ¬ Parses (ascii " f") 1 := by
  intro h
  have hout := (h [15]).mp (by decide)
  exact absurd hout.1.2 (by decide)

end SyncClipboard.KeyHex
