import Mathlib.Data.List.Basic

/-!
Standard base64 with padding, over lists of bytes: three bytes make four symbols, and one or two
bytes at the end are filled up with `=`. Base64url has two other symbols and no padding.
-/

namespace SyncClipboard.Base64

/-- The alphabet. -/
def symbol (n : ℕ) : UInt8 :=
  if n < 26 then UInt8.ofNat (65 + n)
  else if n < 52 then UInt8.ofNat (71 + n)
  else if n < 62 then UInt8.ofNat (n - 4)
  else if n = 62 then 43 else 47

def value (c : UInt8) : Option ℕ :=
  if 65 ≤ c ∧ c ≤ 90 then some (c.toNat - 65)
  else if 97 ≤ c ∧ c ≤ 122 then some (c.toNat - 71)
  else if 48 ≤ c ∧ c ≤ 57 then some (c.toNat + 4)
  else if c = 43 then some 62
  else if c = 47 then some 63
  else none

/-- The character `=`. -/
def pad : UInt8 := 61

def encode : List UInt8 → List UInt8
  | [] => []
  | [a] => [symbol (a.toNat / 4), symbol (a.toNat % 4 * 16), pad, pad]
  | [a, b] => [symbol (a.toNat / 4), symbol (a.toNat % 4 * 16 + b.toNat / 16),
      symbol (b.toNat % 16 * 4), pad]
  | a :: b :: c :: rest =>
      symbol (a.toNat / 4) :: symbol (a.toNat % 4 * 16 + b.toNat / 16) ::
        symbol (b.toNat % 16 * 4 + c.toNat / 64) :: symbol (c.toNat % 64) :: encode rest

/-- The first byte of a group, from its first two symbols. -/
def first (w x : ℕ) : UInt8 := UInt8.ofNat (w * 4 + x / 16)

def second (x y : ℕ) : UInt8 := UInt8.ofNat (x % 16 * 16 + y / 4)

def third (y z : ℕ) : UInt8 := UInt8.ofNat (y % 4 * 64 + z)

/-- Groups of four symbols; padding is read in the last group only. -/
def decode : List UInt8 → Option (List UInt8)
  | [] => some []
  | p :: q :: r :: s :: rest => do
    let w ← value p
    let x ← value q
    if rest = [] ∧ r = pad ∧ s = pad then some [first w x]
    else
      let y ← value r
      if rest = [] ∧ s = pad then some [first w x, second x y]
      else
        let z ← value s
        let more ← decode rest
        some (first w x :: second x y :: third y z :: more)
  | _ => none

/-! ### The alphabet -/

lemma value_symbol {n : ℕ} (hn : n < 64) : value (symbol n) = some n := by
  have hall : ∀ m < 64, value (symbol m) = some m := by decide
  exact hall n hn

/-- Neither padding nor a symbol of the alphabet for URLs. -/
lemma symbol_ne {n : ℕ} (hn : n < 64) :
    symbol n ≠ pad ∧ symbol n ≠ 45 ∧ symbol n ≠ 95 ∧ symbol n ≠ 0 := by
  have hall : ∀ m < 64, symbol m ≠ pad ∧ symbol m ≠ 45 ∧ symbol m ≠ 95 ∧ symbol m ≠ 0 := by decide
  exact hall n hn

/-! ### A group -/

lemma first_eq (a : UInt8) {n : ℕ} (hn : n < 16) : first (a.toNat / 4) (a.toNat % 4 * 16 + n) = a := by
  have hsum : a.toNat / 4 * 4 + (a.toNat % 4 * 16 + n) / 16 = a.toNat := by omega
  rw [first, hsum, UInt8.ofNat_toNat]

lemma second_eq (b : UInt8) (m : ℕ) {n : ℕ} (hn : n < 4) :
    second (m * 16 + b.toNat / 16) (b.toNat % 16 * 4 + n) = b := by
  have hb : b.toNat < 256 := b.toNat_lt
  have hsum : (m * 16 + b.toNat / 16) % 16 * 16 + (b.toNat % 16 * 4 + n) / 4 = b.toNat := by omega
  rw [second, hsum, UInt8.ofNat_toNat]

lemma third_eq (c : UInt8) (m : ℕ) : third (m * 4 + c.toNat / 64) (c.toNat % 64) = c := by
  have hc : c.toNat < 256 := c.toNat_lt
  have hsum : (m * 4 + c.toNat / 64) % 4 * 64 + c.toNat % 64 = c.toNat := by omega
  rw [third, hsum, UInt8.ofNat_toNat]

/-! ### Round trip -/

/-- **What was encoded is decoded.** -/
theorem decode_encode (bytes : List UInt8) : decode (encode bytes) = some bytes := by
  induction bytes using encode.induct with
  | case1 => rfl
  | case2 a =>
    have ha : a.toNat < 256 := a.toNat_lt
    have hw := value_symbol (n := a.toNat / 4) (by omega)
    have hx := value_symbol (n := a.toNat % 4 * 16) (by omega)
    have hfirst : first (a.toNat / 4) (a.toNat % 4 * 16) = a := first_eq a (n := 0) (by omega)
    simp [encode, decode, hw, hx, hfirst]
  | case3 a b =>
    have ha : a.toNat < 256 := a.toNat_lt
    have hb : b.toNat < 256 := b.toNat_lt
    have hw := value_symbol (n := a.toNat / 4) (by omega)
    have hx := value_symbol (n := a.toNat % 4 * 16 + b.toNat / 16) (by omega)
    have hy := value_symbol (n := b.toNat % 16 * 4) (by omega)
    have hr := (symbol_ne (n := b.toNat % 16 * 4) (by omega)).1
    have hfirst := first_eq a (n := b.toNat / 16) (by omega)
    have hsecond : second (a.toNat % 4 * 16 + b.toNat / 16) (b.toNat % 16 * 4) = b :=
      second_eq b _ (n := 0) (by omega)
    simp [encode, decode, hw, hx, hy, hr, hfirst, hsecond]
  | case4 a b c rest ih =>
    have ha : a.toNat < 256 := a.toNat_lt
    have hb : b.toNat < 256 := b.toNat_lt
    have hc : c.toNat < 256 := c.toNat_lt
    have hw := value_symbol (n := a.toNat / 4) (by omega)
    have hx := value_symbol (n := a.toNat % 4 * 16 + b.toNat / 16) (by omega)
    have hy := value_symbol (n := b.toNat % 16 * 4 + c.toNat / 64) (by omega)
    have hz := value_symbol (n := c.toNat % 64) (by omega)
    have hs := (symbol_ne (n := c.toNat % 64) (by omega)).1
    have hfirst := first_eq a (n := b.toNat / 16) (by omega)
    have hsecond := second_eq b (a.toNat % 4) (n := c.toNat / 64) (by omega)
    have hthird := third_eq c (b.toNat % 16)
    simp [encode, decode, hw, hx, hy, hz, hs, hfirst, hsecond, hthird, ih]

/-! ### The text -/

/-- The groups of six bits. -/
def sextets : List UInt8 → List ℕ
  | [] => []
  | [a] => [a.toNat / 4, a.toNat % 4 * 16]
  | [a, b] => [a.toNat / 4, a.toNat % 4 * 16 + b.toNat / 16, b.toNat % 16 * 4]
  | a :: b :: c :: rest =>
      a.toNat / 4 :: (a.toNat % 4 * 16 + b.toNat / 16) ::
        (b.toNat % 16 * 4 + c.toNat / 64) :: c.toNat % 64 :: sextets rest

lemma sextets_lt {bytes : List UInt8} {n : ℕ} (hn : n ∈ sextets bytes) : n < 64 := by
  induction bytes using sextets.induct with
  | case1 => simp [sextets] at hn
  | case2 a =>
    have ha : a.toNat < 256 := a.toNat_lt
    simp only [sextets, List.mem_cons, List.not_mem_nil, or_false] at hn
    omega
  | case3 a b =>
    have ha : a.toNat < 256 := a.toNat_lt
    have hb : b.toNat < 256 := b.toNat_lt
    simp only [sextets, List.mem_cons, List.not_mem_nil, or_false] at hn
    omega
  | case4 a b c rest ih =>
    have ha : a.toNat < 256 := a.toNat_lt
    have hb : b.toNat < 256 := b.toNat_lt
    have hc : c.toNat < 256 := c.toNat_lt
    simp only [sextets, List.mem_cons] at hn
    rcases hn with rfl | rfl | rfl | rfl | hrest
    · omega
    · omega
    · omega
    · omega
    · exact ih hrest

lemma length_sextets (bytes : List UInt8) :
    (sextets bytes).length = (4 * bytes.length + 2) / 3 := by
  induction bytes using sextets.induct with
  | case1 => rfl
  | case2 a => simp [sextets]
  | case3 a b => simp [sextets]
  | case4 a b c rest ih =>
    simp only [sextets, List.length_cons, ih]
    omega

/-- Standard base64 has a symbol for each group, and padding up to a multiple of four. -/
lemma encode_eq (bytes : List UInt8) :
    encode bytes = (sextets bytes).map symbol ++
      List.replicate ((3 - bytes.length % 3) % 3) pad := by
  induction bytes using encode.induct with
  | case1 => rfl
  | case2 a => rfl
  | case3 a b => rfl
  | case4 a b c rest ih =>
    have hmod : (a :: b :: c :: rest).length % 3 = rest.length % 3 := by
      simp only [List.length_cons]
      omega
    rw [hmod, encode, sextets, ih]
    rfl

lemma length_encode (bytes : List UInt8) : (encode bytes).length = 4 * ((bytes.length + 2) / 3) := by
  rw [encode_eq, List.length_append, List.length_map, length_sextets, List.length_replicate]
  omega

/-- The text has padding and symbols of the standard alphabet only. -/
lemma mem_encode {bytes : List UInt8} {c : UInt8} (hc : c ∈ encode bytes) :
    c = pad ∨ ∃ n < 64, c = symbol n := by
  rw [encode_eq] at hc
  rcases List.mem_append.mp hc with hsymbol | hpad
  · obtain ⟨n, hn, rfl⟩ := List.mem_map.mp hsymbol
    exact .inr ⟨n, sextets_lt hn, rfl⟩
  · exact .inl (List.eq_of_mem_replicate hpad)

lemma ne_of_mem_encode {bytes : List UInt8} {c : UInt8} (hc : c ∈ encode bytes) :
    c ≠ 45 ∧ c ≠ 95 ∧ c ≠ 0 := by
  rcases mem_encode hc with rfl | ⟨n, hn, rfl⟩
  · decide
  · exact (symbol_ne hn).2

/-! ### The alphabet for URLs -/

/-- The last two symbols are other ones. -/
def urlSymbol (n : ℕ) : UInt8 := if n = 62 then 45 else if n = 63 then 95 else symbol n

/-- Base64url without padding. -/
def urlEncode (bytes : List UInt8) : List UInt8 := (sextets bytes).map urlSymbol

/-- Both encodings are the same text exactly if there is no padding and neither of the two symbols. -/
lemma encode_eq_urlEncode_iff (bytes : List UInt8) :
    encode bytes = urlEncode bytes ↔ bytes.length % 3 = 0 ∧ ∀ n ∈ sextets bytes, n < 62 := by
  have hsymbol : ∀ n < 64, symbol n = urlSymbol n ↔ n < 62 := by decide
  rw [encode_eq, urlEncode]
  constructor
  · intro heq
    have hlen := congrArg List.length heq
    rw [List.length_append, List.length_map, List.length_map, List.length_replicate] at hlen
    have hmod : bytes.length % 3 = 0 := by omega
    rw [hmod, show (3 - 0) % 3 = 0 from rfl, List.replicate_zero, List.append_nil] at heq
    refine ⟨hmod, fun n hn => (hsymbol n (sextets_lt hn)).mp ?_⟩
    exact List.map_inj_left.mp heq n hn
  · rintro ⟨hmod, hlt⟩
    rw [hmod, show (3 - 0) % 3 = 0 from rfl, List.replicate_zero, List.append_nil]
    exact List.map_congr_left fun n hn => (hsymbol n (sextets_lt hn)).mpr (hlt n hn)

example : encode [77, 97, 110, 255] = [84, 87, 70, 117, 47, 119, 61, 61] ∧
    urlEncode [77, 97, 110, 255] = [84, 87, 70, 117, 95, 119] := by decide

end SyncClipboard.Base64
