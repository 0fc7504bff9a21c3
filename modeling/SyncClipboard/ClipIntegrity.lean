import SyncClipboard.Crypto

/-!
What the Linux and Windows clients put on the clipboard, and the same content on Android.

They try the current format first and the one before it if that fails, which has no tag. So a
content whose tag does not verify can still set a text; it is exactly the contents of the format
before that the C clients accept beyond `AesGcmCipher` (`clipboard_integrity`).
-/

namespace SyncClipboard.ClipIntegrity

open FtAuth Crypto

/-- What the handler of a `clipboard` message does. -/
inductive ClipAct
  /-- the hash of a text is kept as that of the last clipboard -/
  | hashText (text : Bytes)
  | suppressMs (ms : ℕ)
  | suppressNext
  | setText (text : Bytes)
  | warn (msg : String)
  deriving DecidableEq

variable (P : Prims) (keyHex : Bytes)

/-- The branch both clients have, up to the order in which they act on a text. -/
def onClipboard (act : Bytes → List ClipAct) (msg : String) (content : Option Bytes) :
    List ClipAct :=
  match content with
  | none => []
  | some content =>
    match (aesGcmDecrypt P (cString content) keyHex).or (aesDecrypt P (cString content) keyHex) with
    | some dec => act (cString dec)
    | none => [.warn msg]

def linuxClipboard : Option Bytes → List ClipAct :=
  onClipboard P keyHex (fun dec => [.hashText dec, .suppressMs 2000, .setText dec])
    "clipboard decrypt failed (key mismatch?)"

def windowsClipboard : Option Bytes → List ClipAct :=
  onClipboard P keyHex (fun dec => [.suppressNext, .hashText dec, .setText dec])
    "[CLIP] decrypt failed (key mismatch?)"

inductive Client
  | linux
  | windows

def Client.clipboard : Client → Option Bytes → List ClipAct
  | .linux => linuxClipboard P keyHex
  | .windows => windowsClipboard P keyHex

/-- The content decodes to a frame whose tag verifies. -/
def SealedContent (content plaintext : Bytes) : Prop :=
  ∃ frame, scBase64Decode P.bio (cString content) = some frame ∧
    Sealed P (keyBytes keyHex) frame plaintext

/-- The content decodes to one of the format before. -/
def LegacyContent (content plaintext : Bytes) : Prop :=
  ∃ decoded, base64Decode P (cString content) = some decoded ∧
    Legacy P (keyBytes keyHex) decoded plaintext

variable {P keyHex}

/-- Both clients set what `aes_gcm_decrypt` or, failing that, `aes_decrypt` returns. -/
lemma setText_iff (client : Client) {content text : Bytes} :
    .setText text ∈ client.clipboard P keyHex (some content) ↔
      ∃ dec, (aesGcmDecrypt P (cString content) keyHex).or
        (aesDecrypt P (cString content) keyHex) = some dec ∧ text = cString dec := by
  cases client <;>
    simp only [Client.clipboard, linuxClipboard, windowsClipboard, onClipboard] <;>
    cases (aesGcmDecrypt P (cString content) keyHex).or
      (aesDecrypt P (cString content) keyHex) <;> simp

lemma decrypted_iff (hk : ValidKey keyHex) {content p : Bytes} :
    (aesGcmDecrypt P (cString content) keyHex).or (aesDecrypt P (cString content) keyHex) = some p ↔
      SealedContent P keyHex content p ∨
        (∀ q, ¬ SealedContent P keyHex content q) ∧ LegacyContent P keyHex content p := by
  have hsealed : ∀ q, aesGcmDecrypt P (cString content) keyHex = some q ↔
      SealedContent P keyHex content q := fun q => aesGcmDecrypt_eq_some hk
  have hlegacy : aesDecrypt P (cString content) keyHex = some p ↔
      LegacyContent P keyHex content p := aesDecrypt_eq_some hk
  rw [← hlegacy]
  simp only [← hsealed]
  cases aesGcmDecrypt P (cString content) keyHex <;> simp

/-- In standard padded base64 the C clients and Android decode the same bytes. -/
lemma sealedContent_encode (hP : P.Documented) {frame p : Bytes} (hlen : (Base64.encode frame).length < 2 ^ 31) :
    SealedContent P keyHex (Base64.encode frame) p ↔ Sealed P (keyBytes keyHex) frame p := by
  rw [SealedContent, cString_encode]
  by_cases hne : frame = []
  · -- the decoder gives no byte out of the empty text, and no frame is empty
    subst hne
    rw [scBase64Decode_of_lt hP.bio (standard_encode []) hlen]
    constructor
    · rintro ⟨frame, hdec, h⟩
      obtain rfl := hP.bioEmpty _ frame hdec
      exact h
    · intro h
      have := h.length.1
      simp at this
  · rw [scBase64Decode_of_standard hP.bio (standard_encode frame) hne hlen]
    simp

lemma legacyContent_encode (hP : P.Documented) {bytes p : Bytes} (hlen : FitsInt (Base64.encode bytes).length) :
    LegacyContent P keyHex (Base64.encode bytes) p ↔ Legacy P (keyBytes keyHex) bytes p := by
  rw [LegacyContent, cString_encode]
  by_cases hne : bytes = []
  · subst hne
    constructor
    · rintro ⟨bytes, hdec, h⟩
      obtain ⟨hread, -⟩ := Option.filter_eq_some_iff.mp hdec
      have hzero : toInt (Base64.encode []).length = ((0 : ℕ) : ℤ) := toInt_of_lt (by decide)
      rw [hzero, hP.bio.counted _ 0 (Nat.zero_le _), List.take_zero] at hread
      obtain rfl := hP.bioEmpty _ bytes hread
      exact h
    · rintro ⟨iv, ct, h, hiv, -, -⟩
      have hnil := (List.append_eq_nil_iff.mp h.symm).1
      simp [hnil] at hiv
  · rw [base64Decode_encode hP hne hlen]
    simp

/-- **Clipboard integrity.** A text is set only from a frame whose tag verifies or, when there is
none, from a content of the format before. In standard padded base64, if it is not too long for an `int`, the
contents that `AesGcmCipher.decrypt` accepts are accepted, with the same plaintext, and besides them, if three
times the length is not too long either, exactly those of the format before. -/
theorem clipboard_integrity (hP : P.Documented) (hk : ValidKey keyHex) (client : Client)
    (content : Bytes) :
    (∀ text, .setText text ∈ client.clipboard P keyHex (some content) →
      ∃ p, (SealedContent P keyHex content p ∨
          (∀ q, ¬ SealedContent P keyHex content q) ∧ LegacyContent P keyHex content p) ∧
        (0 ∉ p → text = p)) ∧
    ∀ frame, content = Base64.encode frame → content.length < 2 ^ 31 →
      (FitsInt content.length →
        ((∃ text, .setText text ∈ client.clipboard P keyHex (some content)) ↔
          (∃ s, AesGcmCipher.decrypt P content keyHex = .success s) ∨
            ∃ p, Legacy P (keyBytes keyHex) frame p)) ∧
      ∀ s, AesGcmCipher.decrypt P content keyHex = .success s →
        ∃ p, Sealed P (keyBytes keyHex) frame p ∧ s = stringUtf8 P p ∧
          (0 ∉ p → .setText p ∈ client.clipboard P keyHex (some content)) := by
  constructor
  · intro text htext
    obtain ⟨p, hdec, rfl⟩ := (setText_iff client).mp htext
    exact ⟨p, (decrypted_iff hk).mp hdec, cString_eq⟩
  · rintro frame rfl hlen
    have hsuccess : ∀ s, AesGcmCipher.decrypt P (Base64.encode frame) keyHex = .success s ↔
        ∃ p, Sealed P (keyBytes keyHex) frame p ∧ s = stringUtf8 P p := by
      intro s
      rw [decrypt_eq_success hk, hP.noWrap]
      simp
    have hset : ∀ p, Sealed P (keyBytes keyHex) frame p →
        .setText (cString p) ∈ client.clipboard P keyHex (some (Base64.encode frame)) := by
      intro p hp
      have hdec := (decrypted_iff hk).mpr (.inl ((sealedContent_encode hP hlen).mpr hp))
      exact (setText_iff client).mpr ⟨p, hdec, rfl⟩
    refine ⟨fun hfits => ⟨?_, ?_⟩, ?_⟩
    · rintro ⟨text, htext⟩
      obtain ⟨p, hdec, -⟩ := (setText_iff client).mp htext
      rcases (decrypted_iff hk).mp hdec with hp | ⟨-, hp⟩
      · exact .inl ⟨_, (hsuccess _).mpr ⟨p, (sealedContent_encode hP hlen).mp hp, rfl⟩⟩
      · exact .inr ⟨p, (legacyContent_encode hP hfits).mp hp⟩
    · rintro (⟨s, hs⟩ | ⟨p, hp⟩)
      · obtain ⟨p, hp, -⟩ := (hsuccess s).mp hs
        exact ⟨_, hset p hp⟩
      · by_cases hsealed : ∃ q, Sealed P (keyBytes keyHex) frame q
        · obtain ⟨q, hq⟩ := hsealed
          exact ⟨_, hset q hq⟩
        · have hno : ∀ q, ¬ SealedContent P keyHex (Base64.encode frame) q :=
            fun q hq => hsealed ⟨q, (sealedContent_encode hP hlen).mp hq⟩
          have hdec := (decrypted_iff hk).mpr (.inr ⟨hno, (legacyContent_encode hP hfits).mpr hp⟩)
          exact ⟨_, (setText_iff client).mpr ⟨p, hdec, rfl⟩⟩
    · intro s hs
      obtain ⟨p, hp, rfl⟩ := (hsuccess s).mp hs
      refine ⟨p, hp, rfl, fun h0 => ?_⟩
      have hmem := hset p hp
      rwa [cString_eq h0] at hmem

/-! ### A text in both formats -/

def sampleNonce : Bytes := (List.range 12).map UInt8.ofNat

def sampleCt : Bytes := [47, 103, 186, 119, 170]

def sampleGcmTag : Bytes := [39, 151, 255, 53, 59, 138, 4, 109, 40, 35, 109, 205, 157, 5, 123, 187]

def sampleIv : Bytes := (List.range 16).map fun i => UInt8.ofNat (16 + i)

def sampleCbc : Bytes := [4, 104, 241, 165, 38, 158, 167, 36, 91, 184, 76, 100, 212, 86, 233, 77]

/-- AES-256-GCM and AES-256-CBC at the points that are used. -/
def samplePrims : Prims where
  bio := strict
  bioWrite := wholeText
  base64NoWrap := Base64.decode
  gcmTag key nonce ct :=
    if key = keyBytes sampleKeyHex ∧ nonce = sampleNonce ∧ ct = sampleCt then sampleGcmTag
    else List.replicate 16 0
  gcmPlain key nonce ct :=
    if key = keyBytes sampleKeyHex ∧ nonce = sampleNonce ∧ ct = sampleCt then ascii "hello" else ct
  cbcOpen key iv ct :=
    if key = keyBytes sampleKeyHex ∧ iv = sampleIv ∧ ct = sampleCbc then some (ascii "hello")
    else none
  malformed _ := "\uFFFD"
  stale := 0

lemma samplePrims_documented : samplePrims.Documented where
  bio := strict_documented
  bioEmpty := strict_empty
  bioWrite len _ _ := by simp [samplePrims, wholeText]
  noWrap bytes := Base64.decode_encode bytes

/-- What a client of the version before sends for the text `hello`. -/
def legacyHello : Bytes := ascii "EBESExQVFhcYGRobHB0eHwRo8aUmnqckW7hMZNRW6U0="

def sealedHello : Bytes := ascii "AgABAgMEBQYHCAkKCy9nuneqJ5f/NTuKBG0oI23NnQV7uw=="

/-- The content without a tag sets a text, and Android refuses it. -/
theorem legacyHello_is_set :
    (¬ ∀ (client : Client) content text,
      .setText text ∈ client.clipboard samplePrims sampleKeyHex (some content) →
        SealedContent samplePrims sampleKeyHex content text) ∧
    ¬ ∀ (client : Client) frame,
      (∃ text, .setText text ∈
        client.clipboard samplePrims sampleKeyHex (some (Base64.encode frame))) ↔
      ∃ s, AesGcmCipher.decrypt samplePrims (Base64.encode frame) sampleKeyHex = .success s := by
  have hk := sampleKeyHex_valid
  have hcontent : legacyHello = Base64.encode (sampleIv ++ sampleCbc) := by decide
  have hno : ∀ q, ¬ Sealed samplePrims (keyBytes sampleKeyHex) (sampleIv ++ sampleCbc) q :=
    fun q hq => absurd hq.length.2 (by decide)
  have hset : .setText (ascii "hello") ∈
      Client.linux.clipboard samplePrims sampleKeyHex (some legacyHello) := by
    have hlegacy : Legacy samplePrims (keyBytes sampleKeyHex) (sampleIv ++ sampleCbc)
        (ascii "hello") := ⟨sampleIv, sampleCbc, rfl, rfl, by decide, by decide⟩
    rw [hcontent]
    refine (setText_iff _).mpr ⟨ascii "hello", (decrypted_iff hk).mpr (.inr ⟨fun q hq => ?_, ?_⟩), rfl⟩
    · exact hno q ((sealedContent_encode samplePrims_documented (by decide)).mp hq)
    · exact (legacyContent_encode samplePrims_documented (by decide)).mpr hlegacy
  refine ⟨fun h => ?_, fun h => ?_⟩
  · have hsealed := h .linux legacyHello _ hset
    rw [hcontent] at hsealed
    exact hno _ ((sealedContent_encode samplePrims_documented (by decide)).mp hsealed)
  · rw [hcontent] at hset
    obtain ⟨s, hs⟩ := (h .linux _).mp ⟨_, hset⟩
    obtain ⟨frame, p, hdec, hp, -⟩ := (decrypt_eq_success hk).mp hs
    rw [samplePrims_documented.noWrap] at hdec
    obtain rfl := Option.some.inj hdec
    exact hno p hp

/-- The same text in the current format. -/
theorem sealedHello_is_set :
    .setText (ascii "hello") ∈
      Client.windows.clipboard samplePrims sampleKeyHex (some sealedHello) := by
  have hk := sampleKeyHex_valid
  have hcontent : sealedHello =
      Base64.encode (0x02 :: (sampleNonce ++ sampleCt ++ sampleGcmTag)) := by decide
  have hsealed : ∀ p, Sealed samplePrims (keyBytes sampleKeyHex)
      (0x02 :: (sampleNonce ++ sampleCt ++ sampleGcmTag)) p ↔ some (ascii "hello") = some p :=
    fun p => sealed_iff rfl rfl rfl
  have hs : AesGcmCipher.decrypt samplePrims sealedHello sampleKeyHex =
      .success (stringUtf8 samplePrims (ascii "hello")) := by
    refine (decrypt_eq_success hk).mpr ⟨_, _, ?_, (hsealed _).mpr rfl, rfl⟩
    rw [hcontent]
    exact samplePrims_documented.noWrap _
  obtain ⟨p, hp, -, hset⟩ :=
    ((clipboard_integrity samplePrims_documented hk .windows sealedHello).2 _ hcontent (by decide)).2 _ hs
  obtain rfl := Option.some.inj ((hsealed p).mp hp)
  exact hset (by decide)

end SyncClipboard.ClipIntegrity
