import Mathlib.Algebra.Ring.Int.Defs
import Mathlib.Algebra.Ring.Nat
import Mathlib.Data.List.TakeWhile
import SyncClipboard.Base64
import SyncClipboard.FtAuth

/-!
How the clients decrypt the content of a clipboard message.

The current format is a frame `0x02 || nonce(12) || ciphertext || tag(16)` under AES-256-GCM; the
one before it was `iv(16) || ciphertext` under AES-256-CBC. A C string is given by the bytes before
its end. What comes from OpenSSL, Java and Android is in `Prims`. OpenSSL takes lengths as `int`, and they are
cast here as they are in the source.
-/

namespace SyncClipboard.Crypto

open FtAuth

/-- The base64 filter over a block of memory. -/
structure Bio where
  /-- `BIO_new_mem_buf`: what can be read -/
  memBuf : Bytes → ℤ → Bytes
  /-- `BIO_read` through the filter without newlines; `none` is a negative result -/
  read : Bytes → ℤ → Option Bytes

structure Prims where
  bio : Bio
  /-- how many characters a memory BIO has after `BIO_write` through the filter, with a length; `none` is a
  result that is not positive -/
  bioWrite : ℤ → Option ℕ
  /-- `android.util.Base64.decode` with `NO_WRAP`; `none` is an exception -/
  base64NoWrap : Bytes → Option Bytes
  /-- the tag that AES-256-GCM gives to a nonce and a ciphertext -/
  gcmTag : Bytes → Bytes → Bytes → Bytes
  /-- the plaintext under AES-256-GCM, before the tag is looked at -/
  gcmPlain : Bytes → Bytes → Bytes → Bytes
  /-- AES-256-CBC decryption of a ciphertext under an initial vector, with its padding check -/
  cbcOpen : Bytes → Bytes → Bytes → Option Bytes
  /-- what `String(bytes, UTF_8)` makes of bytes that are not UTF-8 -/
  malformed : Bytes → String
  /-- what an uninitialised `unsigned int` holds -/
  stale : UInt8

def cString (buf : Bytes) : Bytes := buf.takeWhile (· ≠ 0)

/-- Documented behaviour: the length is that of the data, or -1 for a string; canonical base64 is decoded
where there is room, and no more is written than there is room for. -/
structure Bio.Documented (bio : Bio) : Prop where
  counted : ∀ (buf : Bytes) (len : ℕ), len ≤ buf.length → bio.memBuf buf len = buf.take len
  string : ∀ buf, bio.memBuf buf (-1) = cString buf
  decodes : ∀ (b : Bytes) (room : ℤ), b ≠ [] → (b.length : ℤ) ≤ room →
    bio.read (Base64.encode b) room = some b
  bounded : ∀ text room out, bio.read text room = some out → (out.length : ℤ) ≤ max room 0

/-- Three times the length of the text is an `int`, as `base64_decode` has it. -/
def FitsInt (textLen : ℕ) : Prop := textLen * 3 < 2 ^ 31

instance (textLen : ℕ) : Decidable (FitsInt textLen) := inferInstanceAs (Decidable (_ < _))

/-- The most that OpenSSL lets a memory BIO grow to. -/
def FitsBio (textLen : ℕ) : Prop := textLen ≤ 0x5ffffffc

instance (textLen : ℕ) : Decidable (FitsBio textLen) := inferInstanceAs (Decidable (_ ≤ _))

/-- Documented behaviour: base64 decoders read standard padded base64, and encoders write it, where it is not
too long. -/
structure Prims.Documented (P : Prims) : Prop where
  bio : P.bio.Documented
  bioEmpty : ∀ room bytes, P.bio.read [] room = some bytes → bytes = []
  bioWrite : ∀ len : ℕ, 0 < len → FitsBio (4 * ((len + 2) / 3)) → P.bioWrite len = some (4 * ((len + 2) / 3))
  noWrap : ∀ bytes, P.base64NoWrap (Base64.encode bytes) = some bytes

variable (P : Prims)

/-- AES-256-GCM decryption, which fails when the tag is another one. -/
def gcmOpen (key nonce ct tag : Bytes) : Option Bytes :=
  if P.gcmTag key nonce ct = tag then some (P.gcmPlain key nonce ct) else none

/-! ### codec.c -/

/-- A `size_t` as an `int`. -/
def toInt (n : ℕ) : ℤ := Int.bmod n (2 ^ 32)

/-- The first `dataLen` bytes of a block. -/
def scBase64Encode (data : Bytes) (dataLen : ℕ) : Option Bytes :=
  (P.bioWrite (toInt dataLen)).map fun written => (Base64.encode (data.take (toInt dataLen).toNat)).take written

/-- The symbols of the alphabet for URLs are replaced. -/
def fromUrl (c : UInt8) : UInt8 := if c = 45 then 43 else if c = 95 then 47 else c

/-- A write to the next place of a block of `cap` bytes; `none` is a write outside of it. -/
def put (cap : ℕ) (buf : Bytes) (c : UInt8) : Option Bytes :=
  if buf.length < cap then some (buf ++ [c]) else none

/-- The loop that fills up with `=`, and the zero behind it. -/
def padLoop (cap : ℕ) (buf : Bytes) : Option Bytes :=
  if buf.length % 4 ≠ 0 then
    let cap := if buf.length + 1 ≥ cap then cap * 2 else cap
    if buf.length < cap then padLoop cap (buf ++ [61]) else none
  else put cap buf 0
termination_by (4 - buf.length % 4) % 4
decreasing_by simp only [List.length_append, List.length_singleton]; omega

/-- What is in the block that is returned. -/
def normaliseBase64 (input : Bytes) : Option Bytes :=
  let cap := input.length + 4 + 1
  (input.foldlM (fun buf c => put cap buf (fromUrl c)) []).bind (padLoop cap)

def scBase64Decode (bio : Bio) (input : Bytes) : Option Bytes :=
  match normaliseBase64 input with
  | none => none
  | some normalised =>
    let inLen := (cString normalised).length
    let maxOut := inLen * 3 % 2 ^ 64 / 4 + 4
    bio.read (bio.memBuf normalised (toInt inLen)) (toInt maxOut)

def scHexToBytes (hex : Bytes) (outLen : ℕ) : Option Bytes :=
  if hex.length ≠ outLen * 2 then none else parseKey outLen hex

/-! ### crypto.c -/

/-- The loop of `hex_to_bytes`: the result of `sscanf` is not looked at. -/
def hexLoop : ℕ → Bytes → Bytes
  | 0, _ => []
  | n + 1, s => (sscanf02x s).getD P.stale :: hexLoop n (s.drop 2)

/-- `hex_to_bytes` into a buffer that was set to zero. -/
def hexToBytes (hex : Bytes) (maxLen : ℕ) : Bytes :=
  let len := min (hex.length / 2) maxLen
  hexLoop P len hex ++ List.replicate (maxLen - len) 0

/-- The product wraps around, and where the size is negative, there is no block to read into. -/
def base64Decode (input : Bytes) : Option Bytes :=
  let inputLen := toInt input.length
  let maxLen := (Int.bmod (inputLen * 3) (2 ^ 32)).tdiv 4 + 4
  (P.bio.read (P.bio.memBuf (input ++ [0]) inputLen) maxLen).filter fun _ => decide (0 ≤ maxLen)

def aesDecrypt (b64Input keyHex : Bytes) : Option Bytes :=
  match base64Decode P b64Input with
  | none => none
  | some decoded =>
    if decoded.length < 16 + 1 then none
    else P.cbcOpen (hexToBytes P keyHex 32) (decoded.take 16) (decoded.drop 16)

def aesGcmDecrypt (b64Input keyHex : Bytes) : Option Bytes :=
  match scHexToBytes keyHex 32 with
  | none => none
  | some key =>
    match scBase64Decode P.bio b64Input with
    | none => none
    | some frame =>
      if frame.length < 1 + 12 + 16 then none
      else if frame.head? ≠ some 0x02 then none
      else
        let ctLen := frame.length - 1 - 12 - 16
        gcmOpen P key ((frame.drop 1).take 12) ((frame.drop (1 + 12)).take ctLen)
          ((frame.drop (1 + 12 + ctLen)).take 16)

/-! ### AesGcmCipher.kt -/

inductive DecryptResult
  | success (plaintext : String)
  | invalidFormat
  | invalidVersion
  | authFailed
  | keyError
  deriving DecidableEq

def stringUtf8 (bytes : Bytes) : String :=
  (String.fromUTF8? ⟨bytes.toArray⟩).getD (P.malformed bytes)

/-- `doFinal`: the tag is at the end of the input. -/
def doFinal (key nonce input : Bytes) : Option Bytes :=
  gcmOpen P key nonce (input.take (input.length - 16)) (input.drop (input.length - 16))

def AesGcmCipher.parseKey (hex : Bytes) : Option Bytes :=
  if hex.length ≠ 32 * 2 then none else parseKeyAndroid 32 hex

def AesGcmCipher.decrypt (b64 keyHex : Bytes) : DecryptResult :=
  match AesGcmCipher.parseKey keyHex with
  | none => .keyError
  | some key =>
    match P.base64NoWrap b64 with
    | none => .invalidFormat
    | some frame =>
      if frame.length < 1 + 12 + 128 / 8 then .invalidFormat
      else if frame.head? ≠ some 0x02 then .invalidVersion
      else match doFinal P key ((frame.drop 1).take 12) (frame.drop (1 + 12)) with
        | none => .authFailed
        | some plaintext => .success (stringUtf8 P plaintext)

/-! ### The two formats -/

/-- A frame whose tag verifies, with its plaintext. -/
def Sealed (key frame plaintext : Bytes) : Prop :=
  ∃ nonce ct tag, frame = 0x02 :: (nonce ++ ct ++ tag) ∧ nonce.length = 12 ∧ tag.length = 16 ∧
    P.gcmTag key nonce ct = tag ∧ plaintext = P.gcmPlain key nonce ct

/-- A content of the format before, with its plaintext. -/
def Legacy (key content plaintext : Bytes) : Prop :=
  ∃ iv ct, content = iv ++ ct ∧ iv.length = 16 ∧ ct ≠ [] ∧ P.cbcOpen key iv ct = some plaintext

variable {P}

lemma parts {frame nonce ct tag : Bytes} (h : frame = 0x02 :: (nonce ++ ct ++ tag))
    (hn : nonce.length = 12) (ht : tag.length = 16) :
    frame.length = 29 + ct.length ∧ (frame.drop 1).take 12 = nonce ∧
      frame.drop (1 + 12) = ct ++ tag := by
  subst h
  refine ⟨?_, ?_, ?_⟩
  · simp only [List.length_cons, List.length_append]
    omega
  · rw [List.drop_succ_cons, List.drop_zero, List.append_assoc, List.take_left' hn]
  · rw [show 1 + 12 = 12 + 1 from rfl, List.drop_succ_cons, List.append_assoc, List.drop_left' hn]

lemma exists_parts {frame : Bytes} (hlen : 29 ≤ frame.length) (hhead : frame.head? = some 0x02) :
    ∃ nonce ct tag, frame = 0x02 :: (nonce ++ ct ++ tag) ∧ nonce.length = 12 ∧ tag.length = 16 := by
  obtain ⟨rest, rfl⟩ := List.head?_eq_some_iff.mp hhead
  simp only [List.length_cons] at hlen
  have hrest : (rest.drop 12).length = rest.length - 12 := List.length_drop
  refine ⟨rest.take 12, (rest.drop 12).take (rest.length - 28), (rest.drop 12).drop (rest.length - 28),
    ?_, ?_, ?_⟩
  · rw [List.append_assoc, List.take_append_drop, List.take_append_drop]
  · rw [List.length_take]
    omega
  · rw [List.length_drop, hrest]
    omega

lemma doFinal_parts {key frame nonce ct tag : Bytes} (h : frame = 0x02 :: (nonce ++ ct ++ tag))
    (hn : nonce.length = 12) (ht : tag.length = 16) :
    doFinal P key ((frame.drop 1).take 12) (frame.drop (1 + 12)) = gcmOpen P key nonce ct tag := by
  obtain ⟨-, hnonce, hrest⟩ := parts h hn ht
  have hsub : (ct ++ tag).length - 16 = ct.length := by
    rw [List.length_append]
    omega
  rw [doFinal, hnonce, hrest, hsub, List.take_left, List.drop_left]

lemma gcmOpen_eq_some {key nonce ct tag p : Bytes} :
    gcmOpen P key nonce ct tag = some p ↔ P.gcmTag key nonce ct = tag ∧ p = P.gcmPlain key nonce ct := by
  unfold gcmOpen
  split_ifs with htag
  · simp [htag, eq_comm]
  · simp [htag]

lemma sealed_iff {key frame nonce ct tag p : Bytes} (h : frame = 0x02 :: (nonce ++ ct ++ tag))
    (hn : nonce.length = 12) (ht : tag.length = 16) :
    Sealed P key frame p ↔ gcmOpen P key nonce ct tag = some p := by
  rw [gcmOpen_eq_some]
  constructor
  · rintro ⟨nonce', ct', tag', h', hn', ht', htag, hp⟩
    have heq : nonce ++ ct ++ tag = nonce' ++ ct' ++ tag' := by
      have hcons := h.symm.trans h'
      exact (List.cons.inj hcons).2
    obtain ⟨hleft, rfl⟩ := List.append_inj' heq (ht.trans ht'.symm)
    obtain ⟨rfl, rfl⟩ := List.append_inj hleft (hn.trans hn'.symm)
    exact ⟨htag, hp⟩
  · rintro ⟨htag, hp⟩
    exact ⟨nonce, ct, tag, h, hn, ht, htag, hp⟩

lemma Sealed.length {key frame p : Bytes} (h : Sealed P key frame p) :
    29 ≤ frame.length ∧ frame.head? = some 0x02 := by
  obtain ⟨nonce, ct, tag, hframe, hn, ht, -, -⟩ := h
  obtain ⟨hlen, -, -⟩ := parts hframe hn ht
  exact ⟨by omega, by rw [hframe]; rfl⟩

/-! ### What the three functions accept -/

lemma scHexToBytes_valid {keyHex : Bytes} (hk : ValidKey keyHex) :
    scHexToBytes keyHex 32 = some (keyBytes keyHex) := by
  have h64 : keyHex.length = 32 * 2 := hk.1
  simp [scHexToBytes, h64, (parseKey_valid hk).1]

lemma androidKey_valid {keyHex : Bytes} (hk : ValidKey keyHex) :
    AesGcmCipher.parseKey keyHex = some (keyBytes keyHex) := by
  have h64 : keyHex.length = 32 * 2 := hk.1
  simp [AesGcmCipher.parseKey, h64, (parseKey_valid hk).2.1]

/-- `aes_gcm_decrypt` accepts the contents that decode to a sealed frame. -/
theorem aesGcmDecrypt_eq_some {keyHex : Bytes} (hk : ValidKey keyHex) {b64 p : Bytes} :
    aesGcmDecrypt P b64 keyHex = some p ↔
      ∃ frame, scBase64Decode P.bio b64 = some frame ∧ Sealed P (keyBytes keyHex) frame p := by
  simp only [aesGcmDecrypt, scHexToBytes_valid hk]
  cases hdec : scBase64Decode P.bio b64 with
  | none => simp
  | some frame =>
    simp only [Option.some.injEq, exists_eq_left']
    split_ifs with hlen hhead
    · refine iff_of_false (by simp) fun h => ?_
      have := h.length.1
      omega
    · exact iff_of_false (by simp) fun h => hhead h.length.2
    · obtain ⟨nonce, ct, tag, hframe, hn, ht⟩ := exists_parts (by omega) (not_not.mp hhead)
      obtain ⟨hflen, hnonce, hrest⟩ := parts hframe hn ht
      have hct : frame.length - 1 - 12 - 16 = ct.length := by omega
      have htag : frame.drop (1 + 12 + ct.length) = tag := by
        rw [← List.drop_drop, hrest, List.drop_left]
      rw [sealed_iff hframe hn ht, hct, hnonce, hrest, List.take_left, htag,
        List.take_of_length_le (by omega)]

/-- `AesGcmCipher.decrypt` does the same, with a decoder of its own. -/
theorem decrypt_eq_success {keyHex : Bytes} (hk : ValidKey keyHex) {b64 : Bytes} {s : String} :
    AesGcmCipher.decrypt P b64 keyHex = .success s ↔
      ∃ frame p, P.base64NoWrap b64 = some frame ∧ Sealed P (keyBytes keyHex) frame p ∧
        s = stringUtf8 P p := by
  simp only [AesGcmCipher.decrypt, androidKey_valid hk]
  cases hdec : P.base64NoWrap b64 with
  | none => simp
  | some frame =>
    simp only [Option.some.injEq, exists_and_left, exists_eq_left']
    split_ifs with hlen hhead
    · refine iff_of_false (by simp) ?_
      rintro ⟨p, h, -⟩
      have := h.length.1
      omega
    · refine iff_of_false (by simp) ?_
      rintro ⟨p, h, -⟩
      exact hhead h.length.2
    · obtain ⟨nonce, ct, tag, hframe, hn, ht⟩ := exists_parts (by omega) (not_not.mp hhead)
      rw [doFinal_parts hframe hn ht]
      cases hopen : gcmOpen P (keyBytes keyHex) nonce ct tag with
      | none => simp [sealed_iff hframe hn ht, hopen]
      | some p => simp [sealed_iff hframe hn ht, hopen, eq_comm]

/-- Where `sscanf` finds a number each time, its result need not be looked at. -/
lemma hexLoop_eq {n : ℕ} {s key : Bytes} (h : parseKey n s = some key) : hexLoop P n s = key := by
  induction n generalizing s key with
  | zero =>
    simp only [parseKey, Option.some.injEq] at h
    subst h
    rfl
  | succ n ih =>
    simp only [parseKey, Option.bind_eq_some_iff, Option.map_eq_some_iff] at h
    obtain ⟨b, hb, key', hkey', rfl⟩ := h
    simp [hexLoop, hb, ih hkey']

/-- `aes_decrypt` accepts the contents of the format before. -/
theorem aesDecrypt_eq_some {keyHex : Bytes} (hk : ValidKey keyHex) {b64 p : Bytes} :
    aesDecrypt P b64 keyHex = some p ↔
      ∃ decoded, base64Decode P b64 = some decoded ∧ Legacy P (keyBytes keyHex) decoded p := by
  have hkey : hexToBytes P keyHex 32 = keyBytes keyHex := by
    have hlen : min (keyHex.length / 2) 32 = 32 := by
      have h64 : keyHex.length = 64 := hk.1
      omega
    simp [hexToBytes, hlen, hexLoop_eq (parseKey_valid hk).1]
  rw [aesDecrypt, hkey]
  generalize base64Decode P b64 = result
  cases result with
  | none => simp
  | some decoded =>
    simp only [Option.some.injEq, exists_eq_left']
    split_ifs with hlen
    · refine iff_of_false (by simp) ?_
      rintro ⟨iv, ct, rfl, hiv, hct, -⟩
      have hpos : 0 < ct.length := List.length_pos_iff.mpr hct
      rw [List.length_append] at hlen
      omega
    · constructor
      · intro h
        refine ⟨decoded.take 16, decoded.drop 16, (List.take_append_drop _ _).symm, ?_, ?_, h⟩
        · rw [List.length_take]
          omega
        · intro hnil
          have hle := List.drop_eq_nil_iff.mp hnil
          omega
      · rintro ⟨iv, ct, rfl, hiv, -, hopen⟩
        rwa [List.take_left' hiv, List.drop_left' hiv]

/-! ### C strings -/

lemma cString_eq {buf : Bytes} (h : 0 ∉ buf) : cString buf = buf := by
  refine List.takeWhile_eq_self_iff.mpr fun c hc => ?_
  have hne : c ≠ 0 := fun h0 => h (h0 ▸ hc)
  simpa using hne

lemma cString_append_zero (msg rest : Bytes) : cString (msg ++ 0 :: rest) = cString msg := by
  induction msg with
  | nil => simp [cString]
  | cons b msg ih =>
    rw [cString, cString, List.cons_append, List.takeWhile_cons, List.takeWhile_cons]
    split_ifs
    · exact congrArg (b :: ·) ih
    · rfl

lemma encode_ne_zero (bytes : Bytes) : 0 ∉ Base64.encode bytes := by
  intro h0
  obtain ⟨-, -, hne⟩ := Base64.ne_of_mem_encode h0
  exact hne rfl

lemma cString_encode (bytes : Bytes) : cString (Base64.encode bytes) = Base64.encode bytes :=
  cString_eq (encode_ne_zero bytes)

/-! ### Lengths -/

lemma toInt_of_lt {n : ℕ} (h : n < 2 ^ 31) : toInt n = n := by
  unfold toInt
  exact Int.bmod_eq_of_le (by omega) (by omega)

lemma toInt_lt (n : ℕ) : toInt n < 2 ^ 31 := by
  unfold toInt
  have hlt := @Int.bmod_lt n (2 ^ 32) (by decide)
  omega

/-- A length that is too large becomes a smaller or a negative one. -/
lemma toInt_of_le {n : ℕ} (h : 2 ^ 31 ≤ n) : toInt n < n ∧ (2 ^ 32 : ℤ) ∣ n - toInt n := by
  unfold toInt
  constructor
  · rw [Int.bmod_def]
    split_ifs <;> omega
  · rw [Int.bmod_def]
    split_ifs <;> omega

/-! ### Nothing is written outside the buffer -/

/-- The text in the standard alphabet, filled up. -/
def standard (input : Bytes) : Bytes :=
  input.map fromUrl ++ List.replicate ((4 - input.length % 4) % 4) 61

lemma padLoop_eq {cap : ℕ} {buf : Bytes} (h : buf.length < cap) :
    padLoop cap buf = some (buf ++ List.replicate ((4 - buf.length % 4) % 4) 61 ++ [0]) := by
  generalize hleft : (4 - buf.length % 4) % 4 = left
  induction left generalizing cap buf with
  | zero =>
    rw [padLoop, if_neg (by omega), put, if_pos h, List.replicate_zero, List.append_nil]
  | succ left ih =>
    -- the place for the next character is there, and so is the one behind it
    have hroom : (buf ++ [61]).length < if buf.length + 1 ≥ cap then cap * 2 else cap := by
      rw [List.length_append, List.length_singleton]
      split_ifs <;> omega
    have hplace : buf.length < if buf.length + 1 ≥ cap then cap * 2 else cap := by
      rw [List.length_append] at hroom
      omega
    have hrest := ih hroom (by rw [List.length_append, List.length_singleton]; omega)
    rw [padLoop, if_pos (by omega)]
    dsimp only
    rw [if_pos hplace, hrest, List.append_assoc _ [61], List.singleton_append, List.replicate_succ]

lemma foldlM_put {cap : ℕ} {buf input : Bytes} (h : buf.length + input.length ≤ cap) :
    input.foldlM (fun buf c => put cap buf (fromUrl c)) buf = some (buf ++ input.map fromUrl) := by
  induction input generalizing buf with
  | nil => simp
  | cons c input ih =>
    rw [List.length_cons] at h
    have hrest := @ih (buf ++ [fromUrl c]) (by rw [List.length_append, List.length_singleton]; omega)
    rw [List.foldlM_cons, put, if_pos (by omega)]
    refine hrest.trans ?_
    rw [List.append_assoc, List.singleton_append, List.map_cons]

/-- **The buffer is large enough**, whatever the input is. -/
theorem normaliseBase64_eq (input : Bytes) : normaliseBase64 input = some (standard input ++ [0]) := by
  have hlt : (input.map fromUrl).length < input.length + 4 + 1 := by
    rw [List.length_map]
    omega
  rw [normaliseBase64, foldlM_put (by rw [List.length_nil]; omega), Option.bind_some, List.nil_append, padLoop_eq hlt,
    standard, List.length_map]

/-! ### Decoding -/

section Decoding

variable {bio : Bio} {input b : Bytes}

/-- Up to the casts, `sc_base64_decode` decodes what the text is made into. -/
lemma scBase64Decode_eq (h0 : 0 ∉ standard input) :
    scBase64Decode bio input =
      bio.read (bio.memBuf (standard input ++ [0]) (toInt (standard input).length))
        (toInt ((standard input).length * 3 % 2 ^ 64 / 4 + 4)) := by
  have hstring : cString (standard input ++ [0]) = standard input :=
    (cString_append_zero _ []).trans (cString_eq h0)
  rw [scBase64Decode, normaliseBase64_eq]
  dsimp only
  rw [hstring]

lemma scBase64Decode_of_lt (hbio : bio.Documented) (htext : standard input = Base64.encode b)
    (hlen : (Base64.encode b).length < 2 ^ 31) :
    scBase64Decode bio input = bio.read (Base64.encode b) ((Base64.encode b).length * 3 / 4 + 4 : ℕ) := by
  have hwrap : (Base64.encode b).length * 3 % 2 ^ 64 = (Base64.encode b).length * 3 := Nat.mod_eq_of_lt (by omega)
  rw [scBase64Decode_eq (htext ▸ encode_ne_zero b), htext, hwrap, toInt_of_lt hlen, toInt_of_lt (by omega),
    hbio.counted _ _ (by simp), List.take_left]

lemma scBase64Decode_of_standard (hbio : bio.Documented) (htext : standard input = Base64.encode b) (hb : b ≠ [])
    (hlen : (Base64.encode b).length < 2 ^ 31) : scBase64Decode bio input = some b := by
  have hroom := Base64.length_encode b
  rw [scBase64Decode_of_lt hbio htext hlen]
  exact hbio.decodes b _ hb (by omega)

/-- Whatever the filter does, the room for the result is counted in an `int`. -/
lemma length_lt_of_decode (hbio : bio.Documented) {out : Bytes} (h : scBase64Decode bio input = some out) :
    out.length < 2 ^ 31 := by
  rw [scBase64Decode, normaliseBase64_eq] at h
  dsimp only at h
  have hroom := hbio.bounded _ _ _ h
  have hlt := toInt_lt ((cString (standard input ++ [0])).length * 3 % 2 ^ 64 / 4 + 4)
  omega

lemma base64Decode_encode (hP : P.Documented) (hb : b ≠ []) (hlen : FitsInt (Base64.encode b).length) :
    base64Decode P (Base64.encode b) = some b := by
  have hroom := Base64.length_encode b
  unfold FitsInt at hlen
  have hwrap : Int.bmod ((Base64.encode b).length * 3) (2 ^ 32) = (Base64.encode b).length * 3 :=
    Int.bmod_eq_of_le (by omega) (by omega)
  unfold base64Decode
  dsimp only
  rw [toInt_of_lt (by omega), hwrap, Int.tdiv_eq_ediv_of_nonneg (by omega), hP.bio.counted _ _ (by simp),
    List.take_left, hP.bio.decodes b _ hb (by omega), Option.filter_some, if_pos (decide_eq_true (by omega))]

end Decoding

/-! ### Base64url -/

lemma standard_of_sextets {input b : Bytes} {k : ℕ}
    (hmap : input.map fromUrl = (Base64.sextets b).map Base64.symbol ++ List.replicate k 61)
    (hk : k = 0 ∨ k = (3 - b.length % 3) % 3) : standard input = Base64.encode b := by
  have hlen := Base64.length_sextets b
  have hinput : input.length = (Base64.sextets b).length + k := by
    have hmaplen := congrArg List.length hmap
    simpa using hmaplen
  have hpad : k + (4 - ((Base64.sextets b).length + k) % 4) % 4 = (3 - b.length % 3) % 3 := by
    have hcases : b.length % 3 = 0 ∨ b.length % 3 = 1 ∨ b.length % 3 = 2 := by omega
    rcases hcases with hr | hr | hr
    · omega
    · omega
    · omega
  rw [standard, hmap, hinput, List.append_assoc, List.replicate_append_replicate, hpad, Base64.encode_eq]
  rfl

lemma map_fromUrl_symbol (b : Bytes) :
    ((Base64.sextets b).map Base64.symbol).map fromUrl = (Base64.sextets b).map Base64.symbol := by
  have hsymbol : ∀ n < 64, fromUrl (Base64.symbol n) = Base64.symbol n := by decide
  rw [List.map_map]
  exact List.map_congr_left fun n hn => hsymbol n (Base64.sextets_lt hn)

lemma map_fromUrl_urlSymbol (b : Bytes) :
    ((Base64.sextets b).map Base64.urlSymbol).map fromUrl = (Base64.sextets b).map Base64.symbol := by
  have hsymbol : ∀ n < 64, fromUrl (Base64.urlSymbol n) = Base64.symbol n := by decide
  rw [List.map_map]
  exact List.map_congr_left fun n hn => hsymbol n (Base64.sextets_lt hn)

lemma standard_encode (b : Bytes) : standard (Base64.encode b) = Base64.encode b := by
  refine standard_of_sextets (k := (3 - b.length % 3) % 3) ?_ (.inr rfl)
  rw [Base64.encode_eq, List.map_append, map_fromUrl_symbol, List.map_replicate]
  rfl

lemma standard_urlEncode (b : Bytes) : standard (Base64.urlEncode b) = Base64.encode b :=
  standard_of_sextets (k := 0) ((map_fromUrl_urlSymbol b).trans (List.append_nil _).symm) (.inl rfl)

/-! ### A strict filter -/

/-- A base64 filter that decodes canonical base64 only, from a block of a given length. -/
def strict : Bio where
  memBuf buf len := if 0 ≤ len then buf.take len.toNat else if len = -1 then cString buf else []
  read text room := (Base64.decode text).filter fun b =>
    decide (Base64.encode b = text) && decide ((b.length : ℤ) ≤ room)

lemma strict_read {text out : Bytes} {room : ℤ} (h : strict.read text room = some out) :
    Base64.encode out = text ∧ (out.length : ℤ) ≤ room := by
  obtain ⟨-, hout⟩ := Option.filter_eq_some_iff.mp h
  rwa [Bool.and_eq_true, decide_eq_true_eq, decide_eq_true_eq] at hout

lemma strict_documented : strict.Documented where
  counted buf len _ := by simp [strict]
  string buf := by simp [strict]
  decodes b room _ hroom := by
    simp [strict, Base64.decode_encode, hroom, Option.filter_some]
  bounded text room out h := by
    have hroom := (strict_read h).2
    omega

lemma strict_empty (room : ℤ) (bytes : Bytes) (h : strict.read [] room = some bytes) : bytes = [] := by
  have hlen := congrArg List.length (strict_read h).1
  rw [Base64.length_encode, List.length_nil] at hlen
  exact List.length_eq_zero_iff.mp (by omega)

/-- How much a memory BIO has where nothing is too long for it. -/
def wholeText (len : ℤ) : Option ℕ := some (4 * ((len.toNat + 2) / 3))

end SyncClipboard.Crypto
