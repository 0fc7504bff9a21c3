import SyncClipboard.CString
import SyncClipboard.Echo

/-!
Texts that go through the current format, from every client to every client.

The frame and the two ciphers agree, so a text comes back whichever client has encrypted it, if its base64 text
is not too long for an `int` (`round_trip`). The encoding of the frame is to be base64url without padding. `aes_gcm_decrypt` reads
that; the other three functions have standard base64 with padding, and it depends on the bits of a
frame whether this makes a difference (`conforming_iff`).
-/

namespace SyncClipboard.Envelope

open FtAuth Crypto CString Echo

/-- Documented behaviour of AES-256-GCM: a tag has 16 bytes, and under a key and a nonce of the right
length encryption and decryption are inverse to each other. -/
structure Aead (tools : Tools) : Prop where
  tag : ∀ key nonce ct, (tools.prims.gcmTag key nonce ct).length = 16
  openSeal : ∀ key nonce plaintext, key.length = 32 → nonce.length = 12 →
    tools.prims.gcmPlain key nonce (tools.gcmCipher key nonce plaintext) = plaintext
  sealOpen : ∀ key nonce ct, key.length = 32 → nonce.length = 12 →
    tools.gcmCipher key nonce (tools.prims.gcmPlain key nonce ct) = ct

variable (tools : Tools) (keyHex : Bytes)

/-! ### AesGcmCipher.encrypt -/

/-- `doFinal` of an encrypting cipher: the tag comes after the ciphertext. -/
def doFinalSeal (key nonce plaintext : Bytes) : Bytes :=
  let ct := tools.gcmCipher key nonce plaintext
  ct ++ tools.prims.gcmTag key nonce ct

def encrypt (nonce : Bytes) (plaintext : String) : Option Bytes :=
  match AesGcmCipher.parseKey keyHex with
  | none => none
  | some key =>
    let ct := doFinalSeal tools key nonce (utf8 plaintext)
    some (Base64.encode (0x02 :: (nonce ++ ct)))

/-- Who has encrypted a text. -/
inductive Encoder
  | c
  | android
  deriving DecidableEq

/-- The content of a message. The C clients call `aes_gcm_encrypt` with the `strlen` of the text. -/
def Encoder.content (nonce : Bytes) (text : String) : Encoder → Option Bytes
  | .c => aesGcmEncrypt tools keyHex (some nonce) (cString (utf8 text))
  | .android => encrypt tools keyHex nonce text

/-- The base64 text of the frame is not too long for the encoder. A Java string has fewer than 2^31 characters. -/
def Encoder.Fits (textLen : ℕ) : Encoder → Prop
  | .c => FrameFits textLen
  | .android => 4 * ((1 + 12 + textLen + 16 + 2) / 3) < 2 ^ 31

instance (textLen : ℕ) : (e : Encoder) → Decidable (e.Fits textLen)
  | .c => inferInstanceAs (Decidable (FrameFits textLen))
  | .android => inferInstanceAs (Decidable (_ < _))

/-! ### Lengths -/

/-- Subtraction of two `size_t`; `none` where it would wrap around. -/
def subSize (a b : ℕ) : Option ℕ := if b ≤ a then some (a - b) else none

/-- `copyOfRange`; `none` is an exception. -/
def copyOfRange (bytes : Bytes) (lo hi : ℕ) : Option Bytes :=
  if lo ≤ hi ∧ hi ≤ bytes.length then some ((bytes.drop lo).take (hi - lo)) else none

/-- `aes_gcm_decrypt` with its subtractions of lengths watched. -/
def aesGcmDecryptWatched (P : Prims) (b64Input keyHex : Bytes) : Option (Option Bytes) :=
  match scHexToBytes keyHex 32 with
  | none => some none
  | some key =>
    match scBase64Decode P.bio b64Input with
    | none => some none
    | some frame =>
      if frame.length < 1 + 12 + 16 then some none
      else if frame.head? ≠ some 0x02 then some none
      else do
        let len ← subSize frame.length 1
        let len ← subSize len 12
        let ctLen ← subSize len 16
        some (gcmOpen P key ((frame.drop 1).take 12) ((frame.drop (1 + 12)).take ctLen)
          ((frame.drop (1 + 12 + ctLen)).take 16))

/-- `AesGcmCipher.decrypt` with its ranges, and with the length of what precedes the tag, watched. -/
def decryptWatched (P : Prims) (b64 keyHex : Bytes) : Option DecryptResult :=
  match AesGcmCipher.parseKey keyHex with
  | none => some .keyError
  | some key =>
    match P.base64NoWrap b64 with
    | none => some .invalidFormat
    | some frame =>
      if frame.length < 1 + 12 + 128 / 8 then some .invalidFormat
      else if frame.head? ≠ some 0x02 then some .invalidVersion
      else do
        let nonce ← copyOfRange frame 1 (1 + 12)
        let ct ← copyOfRange frame (1 + 12) frame.length
        let len ← subSize ct.length 16
        some (match gcmOpen P key nonce (ct.take len) (ct.drop len) with
          | none => .authFailed
          | some plaintext => .success (stringUtf8 P plaintext))

lemma subSize_of_le {a b : ℕ} (h : b ≤ a) : subSize a b = some (a - b) := if_pos h

lemma copyOfRange_of_le {bytes : Bytes} {lo hi : ℕ} (hlo : lo ≤ hi) (hhi : hi ≤ bytes.length) :
    copyOfRange bytes lo hi = some ((bytes.drop lo).take (hi - lo)) := if_pos ⟨hlo, hhi⟩

/-- No subtraction wraps around, whatever comes in. -/
lemma aesGcmDecryptWatched_eq (P : Prims) (b64 keyHex : Bytes) :
    aesGcmDecryptWatched P b64 keyHex = some (aesGcmDecrypt P b64 keyHex) := by
  unfold aesGcmDecryptWatched aesGcmDecrypt
  cases scHexToBytes keyHex 32 with
  | none => rfl
  | some key =>
    cases scBase64Decode P.bio b64 with
    | none => rfl
    | some frame =>
      dsimp only
      split_ifs with hlen hhead
      · rfl
      · rfl
      · have hversion : subSize frame.length 1 = some (frame.length - 1) := subSize_of_le (by omega)
        have hnonce : subSize (frame.length - 1) 12 = some (frame.length - 1 - 12) :=
          subSize_of_le (by omega)
        have htag : subSize (frame.length - 1 - 12) 16 = some (frame.length - 1 - 12 - 16) :=
          subSize_of_le (by omega)
        simp only [hversion, hnonce, htag, Option.bind_eq_bind, Option.bind_some]

lemma decryptWatched_eq (P : Prims) (b64 keyHex : Bytes) :
    decryptWatched P b64 keyHex = some (AesGcmCipher.decrypt P b64 keyHex) := by
  unfold decryptWatched AesGcmCipher.decrypt doFinal
  cases AesGcmCipher.parseKey keyHex with
  | none => rfl
  | some key =>
    cases P.base64NoWrap b64 with
    | none => rfl
    | some frame =>
      dsimp only
      split_ifs with hlen hhead
      · rfl
      · rfl
      · have hrest : (frame.drop (1 + 12)).take (frame.length - (1 + 12)) = frame.drop (1 + 12) :=
          List.take_of_length_le (by rw [List.length_drop])
        have hsize : 16 ≤ (frame.drop (1 + 12)).length := by
          rw [List.length_drop]
          omega
        have hnonce : copyOfRange frame 1 (1 + 12) = some ((frame.drop 1).take 12) :=
          copyOfRange_of_le (by omega) (by omega)
        have hct : copyOfRange frame (1 + 12) frame.length = some (frame.drop (1 + 12)) := by
          rw [copyOfRange_of_le (by omega) (by omega), hrest]
        rw [hnonce, hct]
        change ((subSize (frame.drop (1 + 12)).length 16).bind fun _ => _) = _
        rw [subSize_of_le hsize]
        rfl

/-! ### Text and bytes -/

lemma stringUtf8_utf8 (P : Prims) (text : String) : stringUtf8 P (utf8 text) = text := by
  have hbytes : (⟨(utf8 text).toArray⟩ : ByteArray) = text.toByteArray := by
    rw [← String.utf8Encode_toList, utf8, List.utf8Encode]
    ext1
    rw [List.data_toByteArray]
  have hvalid : text.toByteArray.IsValidUTF8 := text.isValidUTF8
  rw [stringUtf8, hbytes, String.fromUTF8?, dif_pos hvalid]
  rfl

/-- A text without the character zero is one C string. -/
lemma cString_utf8 {text : String} (h : '\x00' ∉ text.toList) : cString (utf8 text) = utf8 text := by
  refine cString_eq fun hzero => h ?_
  obtain ⟨c, hc, hzero⟩ := char_of_mem_utf8 (by decide) hzero
  have hc0 : c = '\x00' := Char.toNat_inj.mp hzero
  exact hc0 ▸ hc

/-! ### The frame -/

def frameOf (nonce ct : Bytes) : Bytes :=
  0x02 :: (nonce ++ ct ++ tools.prims.gcmTag (keyBytes keyHex) nonce ct)

variable {tools keyHex}

lemma frameOf_length (hT : Aead tools) {nonce : Bytes} (hn : nonce.length = 12) (ct : Bytes) :
    (frameOf tools keyHex nonce ct).length = 1 + 12 + ct.length + 16 := by
  rw [frameOf, List.length_cons, List.length_append, List.length_append, hn, hT.tag]
  omega

lemma aesGcmEncrypt_frameOf (hD : tools.Documented) (hT : Aead tools) (hk : ValidKey keyHex) {nonce : Bytes}
    (hn : nonce.length = 12) {text : Bytes} (hfits : FrameFits text.length) :
    aesGcmEncrypt tools keyHex (some nonce) text =
      some (Base64.encode (frameOf tools keyHex nonce (tools.gcmCipher (keyBytes keyHex) nonce text))) := by
  have hlen := @frameOf_length tools keyHex hT nonce hn (tools.gcmCipher (keyBytes keyHex) nonce text)
  rw [hD.length] at hlen
  rw [aesGcmEncrypt_of_fits hD (scHexToBytes_valid hk) hfits, ← frameOf, ← hlen, List.take_length]

lemma encoder_content (hD : tools.Documented) (hT : Aead tools) (hk : ValidKey keyHex) {text : String}
    (h0 : '\x00' ∉ text.toList) {nonce : Bytes} (hn : nonce.length = 12) {e : Encoder}
    (hfits : e.Fits (utf8 text).length) :
    e.content tools keyHex nonce text =
      some (Base64.encode (frameOf tools keyHex nonce
        (tools.gcmCipher (keyBytes keyHex) nonce (utf8 text)))) := by
  cases e with
  | c => rw [Encoder.content, cString_utf8 h0, aesGcmEncrypt_frameOf hD hT hk hn hfits]
  | android =>
    simp only [Encoder.content, encrypt, androidKey_valid hk, doFinalSeal, frameOf,
      List.append_assoc]

lemma sealed_frameOf (hT : Aead tools) {nonce : Bytes} (hn : nonce.length = 12) (ct : Bytes) :
    Sealed tools.prims (keyBytes keyHex) (frameOf tools keyHex nonce ct)
      (tools.prims.gcmPlain (keyBytes keyHex) nonce ct) :=
  ⟨nonce, ct, _, rfl, hn, hT.tag _ _ _, rfl, rfl⟩

lemma aesGcmDecrypt_frameOf (hT : Aead tools) (hk : ValidKey keyHex) {nonce : Bytes}
    (hn : nonce.length = 12) {ct content : Bytes}
    (hdec : scBase64Decode tools.prims.bio content = some (frameOf tools keyHex nonce ct)) :
    aesGcmDecrypt tools.prims content keyHex =
      some (tools.prims.gcmPlain (keyBytes keyHex) nonce ct) :=
  (aesGcmDecrypt_eq_some hk).mpr ⟨_, hdec, sealed_frameOf hT hn ct⟩

lemma decrypt_frameOf (hT : Aead tools) (hk : ValidKey keyHex) {nonce : Bytes}
    (hn : nonce.length = 12) {ct content : Bytes}
    (hdec : tools.prims.base64NoWrap content = some (frameOf tools keyHex nonce ct)) :
    AesGcmCipher.decrypt tools.prims content keyHex =
      .success (stringUtf8 tools.prims (tools.prims.gcmPlain (keyBytes keyHex) nonce ct)) :=
  (decrypt_eq_success hk).mpr ⟨_, _, hdec, sealed_frameOf hT hn ct, rfl⟩

lemma scBase64Decode_frameOf (hP : tools.prims.Documented) {nonce ct : Bytes}
    (hlen : (Base64.encode (frameOf tools keyHex nonce ct)).length < 2 ^ 31) :
    scBase64Decode tools.prims.bio (Base64.encode (frameOf tools keyHex nonce ct)) =
        some (frameOf tools keyHex nonce ct) ∧
      scBase64Decode tools.prims.bio (Base64.urlEncode (frameOf tools keyHex nonce ct)) =
        some (frameOf tools keyHex nonce ct) := by
  have hne : frameOf tools keyHex nonce ct ≠ [] := List.cons_ne_nil _ _
  exact ⟨scBase64Decode_of_standard hP.bio (standard_encode _) hne hlen,
    scBase64Decode_of_standard hP.bio (standard_urlEncode _) hne hlen⟩

lemma encode_frameOf_lt (hD : tools.Documented) (hT : Aead tools) {nonce text : Bytes} (hn : nonce.length = 12)
    {e : Encoder} (hfits : e.Fits text.length) :
    (Base64.encode (frameOf tools keyHex nonce (tools.gcmCipher (keyBytes keyHex) nonce text))).length < 2 ^ 31 := by
  rw [Base64.length_encode, frameOf_length hT hn, hD.length]
  cases e with
  | c =>
    have hint : FrameFits text.length := hfits
    unfold FrameFits FitsBio at hint
    omega
  | android => exact hfits

lemma rejected (P : Prims) (keyHex content frame : Bytes)
    (hbad : frame.length < 29 ∨ frame.head? ≠ some 0x02) :
    (scBase64Decode P.bio content = some frame → aesGcmDecrypt P content keyHex = none) ∧
      (P.base64NoWrap content = some frame →
        ∀ s, AesGcmCipher.decrypt P content keyHex ≠ .success s) := by
  constructor
  · intro hdec
    unfold aesGcmDecrypt
    cases scHexToBytes keyHex 32 with
    | none => rfl
    | some key =>
      rw [hdec]
      dsimp only
      split_ifs with hlen hhead
      · rfl
      · rfl
      · exact (hbad.elim hlen hhead).elim
  · intro hdec s
    unfold AesGcmCipher.decrypt
    cases AesGcmCipher.parseKey keyHex with
    | none => simp
    | some key =>
      rw [hdec]
      dsimp only
      split_ifs with hlen hhead
      · simp
      · simp
      · exact (hbad.elim hlen hhead).elim

/-- **Round trip across platforms.** A text without the character zero, of a length that fits the encoder,
encrypted by a C client or by Android under a key of 64 hex digits and a nonce of 12 bytes, is decrypted to its
UTF-8 bytes by `aes_gcm_decrypt` and to itself by `AesGcmCipher.decrypt`. Whatever comes in, no length wraps around
on the way, and frames of fewer than 29 bytes or of another version are rejected. -/
theorem round_trip {tools : Tools} (hD : tools.Documented) (hT : Aead tools) {keyHex : Bytes}
    (hk : ValidKey keyHex) :
    (∀ (e : Encoder) (nonce : Bytes) (text : String), nonce.length = 12 → '\x00' ∉ text.toList →
      e.Fits (utf8 text).length → ∃ content, e.content tools keyHex nonce text = some content ∧
        aesGcmDecrypt tools.prims content keyHex = some (utf8 text) ∧
        AesGcmCipher.decrypt tools.prims content keyHex = .success text) ∧
    (∀ content frame, frame.length < 29 ∨ frame.head? ≠ some 0x02 →
      (scBase64Decode tools.prims.bio content = some frame →
        aesGcmDecrypt tools.prims content keyHex = none) ∧
      (tools.prims.base64NoWrap content = some frame →
        ∀ s, AesGcmCipher.decrypt tools.prims content keyHex ≠ .success s)) ∧
    ∀ content,
      aesGcmDecryptWatched tools.prims content keyHex =
        some (aesGcmDecrypt tools.prims content keyHex) ∧
      decryptWatched tools.prims content keyHex =
        some (AesGcmCipher.decrypt tools.prims content keyHex) := by
  refine ⟨fun e nonce text hn h0 hfits => ?_, fun content frame hbad => ?_, fun content => ?_⟩
  · have hplain := hT.openSeal (keyBytes keyHex) nonce (utf8 text) (parseKey_valid hk).2.2 hn
    have hlen := @encode_frameOf_lt tools keyHex hD hT nonce (utf8 text) hn e hfits
    refine ⟨_, encoder_content hD hT hk h0 hn hfits, ?_, ?_⟩
    · rw [aesGcmDecrypt_frameOf hT hk hn (scBase64Decode_frameOf hD.prims hlen).1, hplain]
    · rw [decrypt_frameOf hT hk hn (hD.prims.noWrap _), hplain, stringUtf8_utf8]
  · exact rejected tools.prims keyHex content frame hbad
  · exact ⟨aesGcmDecryptWatched_eq _ _ _, decryptWatched_eq _ _ _⟩

/-! ### A key, a nonce and the beginning of its key stream -/

def mask : Bytes → Bytes → Bytes
  | k :: ks, b :: bs => (b ^^^ k) :: mask ks bs
  | _, bs => bs

lemma mask_mask (ks bs : Bytes) : mask ks (mask ks bs) = bs := by
  induction ks, bs using mask.induct with
  | case1 k ks b bs ih =>
    have hback : b ^^^ k ^^^ k = b := by rw [UInt8.xor_assoc, UInt8.xor_self, UInt8.xor_zero]
    rw [mask, mask, ih, hback]
  | case2 ks bs h =>
    have hstop : mask ks bs = bs := by
      rw [mask.eq_def]
      split
      · exact (h _ _ _ _ rfl rfl).elim
      · rfl
    rw [hstop, hstop]

/-- The key stream of AES-256-GCM under the sample key and nonce, for texts of up to five bytes. -/
def keyStream (key nonce : Bytes) : Bytes :=
  if key = keyBytes sampleKeyHex ∧ nonce = ClipIntegrity.sampleNonce then [71, 2, 214, 27, 197] else []

def textCt : Bytes := [51, 103, 174, 111]

def textTag : Bytes := [81, 169, 12, 222, 54, 222, 106, 171, 42, 110, 72, 101, 68, 147, 34, 132]

def aeadTools : Tools where
  prims := { ClipIntegrity.samplePrims with
    gcmTag key nonce ct :=
      if key = keyBytes sampleKeyHex ∧ nonce = ClipIntegrity.sampleNonce ∧ ct = textCt then textTag
      else ClipIntegrity.samplePrims.gcmTag key nonce ct
    gcmPlain key nonce ct := mask (keyStream key nonce) ct }
  sha256 _ := ""
  gcmCipher key nonce plaintext := mask (keyStream key nonce) plaintext
  encryptUpdate := updateWith fun key nonce plaintext => mask (keyStream key nonce) plaintext

lemma mask_length (ks bs : Bytes) : (mask ks bs).length = bs.length := by
  induction ks, bs using mask.induct with
  | case1 k ks b bs ih => rw [mask, List.length_cons, ih, List.length_cons]
  | case2 ks bs h =>
    rw [mask.eq_def]
    split
    · exact (h _ _ _ _ rfl rfl).elim
    · rfl

lemma aeadTools_documented : aeadTools.Documented where
  prims := ⟨strict_documented, strict_empty, ClipIntegrity.samplePrims_documented.bioWrite, Base64.decode_encode⟩
  update _ _ := rfl
  length _ _ _ := mask_length _ _

lemma aeadTools_aead : Aead aeadTools where
  tag key nonce ct := by
    simp only [aeadTools, ClipIntegrity.samplePrims]
    split_ifs
    · rfl
    · rfl
    · rfl
  openSeal key nonce plaintext _ _ := mask_mask _ _
  sealOpen key nonce ct _ _ := mask_mask _ _

/-- The text `hello`, and the content that every client makes of it. -/
theorem round_trip_hello :
    (∀ e : Encoder, e.content aeadTools sampleKeyHex ClipIntegrity.sampleNonce "hello" =
        some ClipIntegrity.sealedHello) ∧
      ∃ content, Encoder.android.content aeadTools sampleKeyHex ClipIntegrity.sampleNonce "hello" =
          some content ∧
        aesGcmDecrypt aeadTools.prims content sampleKeyHex = some (utf8 "hello") ∧
        AesGcmCipher.decrypt aeadTools.prims content sampleKeyHex = .success "hello" := by
  refine ⟨fun e => ?_, (round_trip aeadTools_documented aeadTools_aead sampleKeyHex_valid).1 .android
    ClipIntegrity.sampleNonce "hello" rfl (by decide) (by decide)⟩
  cases e with
  | c => decide +kernel
  | android => decide +kernel

def letters (n : ℕ) : String := String.ofList (List.replicate n 'a')

lemma utf8_letters (n : ℕ) : utf8 (letters n) = List.replicate n 97 := by
  have hchar : String.utf8EncodeChar 'a' = [97] := by decide
  rw [utf8, letters, String.toList_ofList, List.flatMap_replicate, hchar, List.flatten_replicate_singleton]

lemma letters_noZero (n : ℕ) : '\x00' ∉ (letters n).toList := by
  rw [letters, String.toList_ofList]
  intro hmem
  exact absurd (List.eq_of_mem_replicate hmem) (by decide)

lemma aesGcmEncrypt_cut {text : Bytes} (hlen : text.length = 2 ^ 32 + 1) (nonce : Bytes) :
    aesGcmEncrypt aeadTools sampleKeyHex (some nonce) text =
      aesGcmEncrypt aeadTools sampleKeyHex (some nonce) (text.take 1) := by
  have hone : (text.take 1).length = 1 := by
    rw [List.length_take, hlen]
    omega
  have hcast : toInt (2 ^ 32 + 1) = toInt 1 := by decide +kernel
  have hint : (toInt 1).toNat = 1 := by decide
  have htake : (text.take 1).take 1 = text.take 1 := by rw [List.take_take, Nat.min_self]
  simp only [aesGcmEncrypt, aeadTools, updateWith, hlen, hone, hcast, hint, htake]

/-- A text of 2^32 + 1 characters is encrypted as its first character. -/
theorem long_text_cut :
    (∃ content, Encoder.c.content aeadTools sampleKeyHex ClipIntegrity.sampleNonce (letters (2 ^ 32 + 1)) =
      some content ∧ aesGcmDecrypt aeadTools.prims content sampleKeyHex = some (utf8 "a")) ∧
    ¬ ∀ (e : Encoder) (nonce : Bytes) (text : String) (content : Bytes), nonce.length = 12 →
      '\x00' ∉ text.toList → e.content aeadTools sampleKeyHex nonce text = some content →
        aesGcmDecrypt aeadTools.prims content sampleKeyHex = some (utf8 text) := by
  obtain ⟨content, hsome, hdec⟩ : ∃ content,
      aesGcmEncrypt aeadTools sampleKeyHex (some ClipIntegrity.sampleNonce) (utf8 "a") = some content ∧
        aesGcmDecrypt aeadTools.prims content sampleKeyHex = some (utf8 "a") :=
    ⟨_, rfl, by decide +kernel⟩
  generalize hn : 2 ^ 32 + 1 = n
  have h0 := letters_noZero n
  have hlen : (utf8 (letters n)).length = n := by rw [utf8_letters, List.length_replicate]
  have htake : (utf8 (letters n)).take 1 = utf8 "a" := by
    have hmin : min 1 n = 1 := by omega
    rw [utf8_letters, List.take_replicate, hmin]
    decide
  have hcontent : Encoder.c.content aeadTools sampleKeyHex ClipIntegrity.sampleNonce (letters n) = some content := by
    rw [Encoder.content, cString_utf8 h0, aesGcmEncrypt_cut (hlen.trans hn.symm), htake, hsome]
  refine ⟨⟨content, hcontent, hdec⟩, fun h => ?_⟩
  have hwhole := h .c ClipIntegrity.sampleNonce (letters n) content rfl h0 hcontent
  have hlengths := congrArg List.length (Option.some.inj (hdec.symm.trans hwhole))
  have hletter : (utf8 "a").length = 1 := by decide
  omega

/-! ### The encoding of the frame -/

variable (tools keyHex) in
/-- The format at one frame: both clients decrypt its base64url form to its plaintext, and what they
make of that plaintext is this form. -/
structure Conforming (nonce ct : Bytes) : Prop where
  c : aesGcmDecrypt tools.prims (Base64.urlEncode (frameOf tools keyHex nonce ct)) keyHex =
    some (tools.prims.gcmPlain (keyBytes keyHex) nonce ct)
  android : AesGcmCipher.decrypt tools.prims (Base64.urlEncode (frameOf tools keyHex nonce ct)) keyHex =
    .success (stringUtf8 tools.prims (tools.prims.gcmPlain (keyBytes keyHex) nonce ct))
  encrypted : ∀ content,
    aesGcmEncrypt tools keyHex (some nonce) (tools.prims.gcmPlain (keyBytes keyHex) nonce ct) =
      some content → content = Base64.urlEncode (frameOf tools keyHex nonce ct)
  androidEncrypted : ∀ text content, utf8 text = tools.prims.gcmPlain (keyBytes keyHex) nonce ct →
    encrypt tools keyHex nonce text = some content →
      content = Base64.urlEncode (frameOf tools keyHex nonce ct)

variable (tools) in
/-- The same ciphers with another base64 filter, and another `EVP_EncryptUpdate`. -/
def withOther (bio : Bio) (bioWrite : ℤ → Option ℕ)
    (encryptUpdate : ℤ → Option (ℕ × (Bytes → Bytes → Bytes → Bytes))) : Tools :=
  { tools with prims := { tools.prims with bio := bio, bioWrite := bioWrite }, encryptUpdate := encryptUpdate }

variable (tools keyHex) in
/-- The format is kept at a frame, whatever OpenSSL does beyond its documentation. -/
def AlwaysConforming (nonce ct : Bytes) : Prop :=
  ∀ bio bioWrite encryptUpdate, (withOther tools bio bioWrite encryptUpdate).Documented →
    Conforming (withOther tools bio bioWrite encryptUpdate) keyHex nonce ct

/-- A memory BIO that takes a text as a whole or leaves all of it out. -/
def wholeOrNothing (len : ℤ) : Option ℕ :=
  some (if FitsBio (4 * ((len.toNat + 2) / 3)) then 4 * ((len.toNat + 2) / 3) else 0)

lemma withOther_documented (hD : tools.Documented) :
    (withOther tools strict wholeOrNothing (updateWith tools.gcmCipher)).Documented where
  prims := ⟨strict_documented, strict_empty, fun len _ hfits => by simp [withOther, wholeOrNothing, hfits],
    hD.prims.noWrap⟩
  update _ _ := rfl
  length := hD.length

lemma encrypt_withOther (hk : ValidKey keyHex) (nonce text : Bytes) :
    ∃ content, aesGcmEncrypt (withOther tools strict wholeOrNothing (updateWith tools.gcmCipher)) keyHex (some nonce) text =
      some content ∧ ∃ k, content.length ≤ 4 * k ∧ FitsBio (4 * k) := by
  simp only [aesGcmEncrypt, scHexToBytes_valid hk, withOther, updateWith, scBase64Encode, wholeOrNothing, Option.map_some]
  refine ⟨_, rfl, ?_⟩
  split_ifs with hfits
  · exact ⟨_, List.length_take_le _ _, hfits⟩
  · exact ⟨0, List.length_take_le _ _, by decide⟩

/-- The frame has as much text as its ciphertext allows. -/
lemma frameFits_iff (hT : Aead tools) {nonce : Bytes} (hn : nonce.length = 12) (ct : Bytes) :
    FrameFits ct.length ↔ FitsBio (Base64.encode (frameOf tools keyHex nonce ct)).length := by
  rw [Base64.length_encode, frameOf_length hT hn, FrameFits]

lemma gcmPlain_length (hD : tools.Documented) (hT : Aead tools) (hk : ValidKey keyHex) {nonce : Bytes}
    (hn : nonce.length = 12) (ct : Bytes) : (tools.prims.gcmPlain (keyBytes keyHex) nonce ct).length = ct.length := by
  rw [← hD.length (keyBytes keyHex) nonce, hT.sealOpen _ _ ct (parseKey_valid hk).2.2 hn]

lemma encrypt_plain (hD : tools.Documented) (hT : Aead tools) (hk : ValidKey keyHex) {nonce : Bytes}
    (hn : nonce.length = 12) {ct : Bytes} (hfits : FrameFits ct.length) :
    aesGcmEncrypt tools keyHex (some nonce) (tools.prims.gcmPlain (keyBytes keyHex) nonce ct) =
      some (Base64.encode (frameOf tools keyHex nonce ct)) := by
  have hlen := gcmPlain_length hD hT hk hn ct
  rw [aesGcmEncrypt_frameOf hD hT hk hn (by rwa [hlen]), hT.sealOpen _ _ ct (parseKey_valid hk).2.2 hn]

/-- A frame that is not too long is kept if both encodings of it are the same. -/
lemma conforming_of_same (hD : tools.Documented) (hT : Aead tools) (hk : ValidKey keyHex) {nonce : Bytes}
    (hn : nonce.length = 12) {ct : Bytes} (hfits : FrameFits ct.length)
    (hsame : Base64.encode (frameOf tools keyHex nonce ct) = Base64.urlEncode (frameOf tools keyHex nonce ct)) :
    Conforming tools keyHex nonce ct := by
  have hct := hT.sealOpen (keyBytes keyHex) nonce ct (parseKey_valid hk).2.2 hn
  have hlen : (Base64.encode (frameOf tools keyHex nonce ct)).length < 2 ^ 31 := by
    have htext := (@frameFits_iff tools keyHex hT nonce hn ct).mp hfits
    unfold FitsBio at htext
    omega
  refine ⟨aesGcmDecrypt_frameOf hT hk hn (scBase64Decode_frameOf hD.prims hlen).2, ?_, ?_, ?_⟩
  · rw [← hsame]
    exact decrypt_frameOf hT hk hn (hD.prims.noWrap _)
  · intro content hcontent
    rw [encrypt_plain hD hT hk hn hfits] at hcontent
    rw [← Option.some.inj hcontent, hsame]
  · intro text content htext hcontent
    simp only [encrypt, androidKey_valid hk, doFinalSeal, htext, hct, ← List.append_assoc,
      Option.some.injEq] at hcontent
    rw [← hcontent, ← hsame]
    rfl

/-- **Frames in the prescribed encoding.** `aes_gcm_decrypt` reads every frame in base64url without
padding that has fewer than 2^31 characters in base64. The format is kept in full at a frame, by both clients and
in both directions, and whatever OpenSSL does beyond its documentation, if and only if the text is not too long,
the length of the frame is a multiple of three and none of its groups of six bits is 62 or 63. -/
theorem conforming_iff {tools : Tools} (hD : tools.Documented) (hT : Aead tools)
    {keyHex : Bytes} (hk : ValidKey keyHex) {nonce : Bytes} (hn : nonce.length = 12) (ct : Bytes) :
    ((Base64.encode (frameOf tools keyHex nonce ct)).length < 2 ^ 31 →
      aesGcmDecrypt tools.prims (Base64.urlEncode (frameOf tools keyHex nonce ct)) keyHex =
        some (tools.prims.gcmPlain (keyBytes keyHex) nonce ct)) ∧
      (AlwaysConforming tools keyHex nonce ct ↔
        FitsBio (Base64.encode (frameOf tools keyHex nonce ct)).length ∧
          (frameOf tools keyHex nonce ct).length % 3 = 0 ∧
          ∀ n ∈ Base64.sextets (frameOf tools keyHex nonce ct), n < 62) := by
  refine ⟨fun hlen => aesGcmDecrypt_frameOf hT hk hn (scBase64Decode_frameOf hD.prims hlen).2, ?_⟩
  rw [← Base64.encode_eq_urlEncode_iff, ← frameFits_iff hT hn ct]
  constructor
  · intro h
    have hfits : FrameFits ct.length := by
      by_contra hlong
      obtain ⟨content, hcontent, k, hk4, hfits⟩ :=
        @encrypt_withOther tools keyHex hk nonce (tools.prims.gcmPlain (keyBytes keyHex) nonce ct)
      have hurl := (h _ _ _ (withOther_documented hD)).encrypted content hcontent
      have hlen := congrArg List.length hurl
      have hframe : (frameOf (withOther tools strict wholeOrNothing (updateWith tools.gcmCipher)) keyHex nonce ct).length =
        1 + 12 + ct.length + 16 := frameOf_length hT hn ct
      rw [Base64.urlEncode, List.length_map, Base64.length_sextets, hframe] at hlen
      unfold FrameFits at hlong
      unfold FitsBio at hlong hfits
      omega
    exact ⟨hfits, (h _ _ _ hD).encrypted _ (encrypt_plain hD hT hk hn hfits)⟩
  · rintro ⟨hfits, hsame⟩ bio bioWrite encryptUpdate hover
    exact conforming_of_same hover ⟨hT.tag, hT.openSeal, hT.sealOpen⟩ hk hn hfits hsame

/-- The frame of `text` has 33 bytes, and both encodings of it are the same. -/
theorem text_conforming : AlwaysConforming aeadTools sampleKeyHex ClipIntegrity.sampleNonce textCt := by
  have hn : ClipIntegrity.sampleNonce.length = 12 := rfl
  exact (conforming_iff aeadTools_documented aeadTools_aead sampleKeyHex_valid hn textCt).2.mpr
    (by decide +kernel)

/-- The frame of `hello` needs padding and has a group of 63, and Android does not read it. -/
theorem hello_not_conforming :
    AesGcmCipher.decrypt aeadTools.prims
        (Base64.urlEncode (frameOf aeadTools sampleKeyHex ClipIntegrity.sampleNonce
          ClipIntegrity.sampleCt)) sampleKeyHex = .invalidFormat ∧
      encrypt aeadTools sampleKeyHex ClipIntegrity.sampleNonce "hello" ≠
        some (Base64.urlEncode (frameOf aeadTools sampleKeyHex ClipIntegrity.sampleNonce
          ClipIntegrity.sampleCt)) ∧
      ¬ ∀ nonce ct, nonce.length = 12 → Conforming aeadTools sampleKeyHex nonce ct := by
  refine ⟨by decide +kernel, by decide +kernel, fun h => ?_⟩
  have hread := (h ClipIntegrity.sampleNonce ClipIntegrity.sampleCt rfl).android
  rw [show AesGcmCipher.decrypt aeadTools.prims
    (Base64.urlEncode (frameOf aeadTools sampleKeyHex ClipIntegrity.sampleNonce
      ClipIntegrity.sampleCt)) sampleKeyHex = .invalidFormat by decide +kernel] at hread
  cases hread

end SyncClipboard.Envelope
