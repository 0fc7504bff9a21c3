import SyncClipboard.Crypto

/-!
Base64 in all its dialects, as `codec.c` decodes it: with the standard alphabet or the one for URLs, with
padding or without.

The text is always made standard and padded inside its buffer; a text of 2^31 characters or more has no
length in an `int`, and shorter ones are decoded (`dialects_iff`).
-/

namespace SyncClipboard.Base64Dialects

open FtAuth Crypto

inductive Dialect
  | standard
  | standardUnpadded
  | url
  | urlUnpadded
  deriving DecidableEq

def Dialect.text (b : Bytes) : Dialect → Bytes
  | .standard => Base64.encode b
  | .standardUnpadded => (Base64.sextets b).map Base64.symbol
  | .url => (Base64.sextets b).map Base64.urlSymbol ++
      List.replicate ((3 - b.length % 3) % 3) Base64.pad
  | .urlUnpadded => Base64.urlEncode b

/-- Each dialect becomes standard padded base64, inside the buffer, and is decoded. -/
def Decoded (b : Bytes) : Prop :=
  ∀ d : Dialect, normaliseBase64 (d.text b) = some (Base64.encode b ++ [0]) ∧
    ∀ bio : Bio, bio.Documented → scBase64Decode bio (d.text b) = some b

/-! ### The dialects -/

/-- **Every dialect becomes the standard one.** -/
theorem standard_text (b : Bytes) (d : Dialect) : standard (d.text b) = Base64.encode b := by
  cases d with
  | standard => exact standard_encode b
  | standardUnpadded =>
    exact standard_of_sextets (k := 0) ((map_fromUrl_symbol b).trans (List.append_nil _).symm) (.inl rfl)
  | url =>
    refine standard_of_sextets (k := (3 - b.length % 3) % 3) ?_ (.inr rfl)
    rw [Dialect.text, List.map_append, map_fromUrl_urlSymbol, List.map_replicate]
    rfl
  | urlUnpadded => exact standard_urlEncode b

/-! ### Decoding -/

lemma decode_of_lt {bio : Bio} (hbio : bio.Documented) {b : Bytes} (hb : b ≠ [])
    (h : 4 * ((b.length + 2) / 3) < 2 ^ 31) (d : Dialect) :
    scBase64Decode bio (d.text b) = some b :=
  scBase64Decode_of_standard hbio (standard_text b d) hb (by rwa [Base64.length_encode])

lemma strict_of_le {b : Bytes} (h : 2 ^ 31 ≤ 4 * ((b.length + 2) / 3)) (d : Dialect) :
    scBase64Decode strict (d.text b) ≠ some b := by
  intro hdec
  have htext := standard_text b d
  have hlen := Base64.length_encode b
  rw [← hlen] at h
  obtain ⟨hsmall, hdvd⟩ := toInt_of_le h
  rw [scBase64Decode_eq (htext ▸ encode_ne_zero b), htext] at hdec
  have hread := congrArg List.length (strict_read hdec).1
  simp only [strict] at hread
  split_ifs at hread with hpos hminus
  · rw [List.length_take] at hread
    omega
  · omega
  · rw [List.length_nil] at hread
    omega

/-- **All four dialects.** A string of bytes comes back from every dialect, whatever the base64 filter does
beyond its documentation, exactly if its text has fewer than 2^31 characters. -/
theorem dialects_iff (b : Bytes) (hb : b ≠ []) : Decoded b ↔ 4 * ((b.length + 2) / 3) < 2 ^ 31 := by
  constructor
  · intro h
    by_contra hle
    exact strict_of_le (Nat.not_lt.mp hle) .standard ((h .standard).2 strict strict_documented)
  · intro h d
    refine ⟨?_, fun bio hbio => decode_of_lt hbio hb h d⟩
    rw [normaliseBase64_eq, standard_text]

/-- Two bytes. -/
theorem dialects_iff_two : Decoded [255, 254] := (dialects_iff [255, 254] (by decide)).mpr (by decide)

/-- A string of 2^31 bytes does not come back. -/
theorem dialects_long : ¬ Decoded (List.replicate (2 ^ 31) 0) := by
  intro h
  have hlen : (List.replicate (2 ^ 31) (0 : UInt8)).length = 2 ^ 31 := List.length_replicate
  have hlt := length_lt_of_decode strict_documented ((h .standard).2 strict strict_documented)
  rw [hlen] at hlt
  exact lt_irrefl _ hlt

end SyncClipboard.Base64Dialects
