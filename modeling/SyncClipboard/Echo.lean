import SyncClipboard.ClipIntegrity
import SyncClipboard.Run

/-!
Texts that come from a peer and go back to it.

The Linux client keeps the hash of a text it has received, sets the text, and leaves the clipboard
alone for two seconds. Later it reads the clipboard into a buffer of 1 MiB and sends what it finds
when the hash is another one. A longer text is cut by the buffer, and the part that is left goes out
as a text of its own (`not_sent_back_iff`).
-/

namespace SyncClipboard.Echo

open FtAuth Crypto ClipIntegrity

def maxClipboardSize : ℕ := 1024 * 1024

/-- What comes from OpenSSL. -/
structure Tools where
  prims : Prims
  sha256 : Bytes → String
  /-- the ciphertext of AES-256-GCM under a key and a nonce -/
  gcmCipher : Bytes → Bytes → Bytes → Bytes
  /-- `EVP_EncryptUpdate` of AES-256-GCM with a length: `out_len`, and the ciphertext under a key and a nonce;
  `none` is a failure -/
  encryptUpdate : ℤ → Option (ℕ × (Bytes → Bytes → Bytes → Bytes))

/-- Documented behaviour: what has a length is encrypted up to this length, and keeps it. -/
structure Tools.Documented (tools : Tools) : Prop where
  prims : tools.prims.Documented
  update : ∀ inl : ℕ, inl < 2 ^ 31 →
    tools.encryptUpdate inl = some (inl, fun key nonce text => tools.gcmCipher key nonce (text.take inl))
  length : ∀ key nonce text, (tools.gcmCipher key nonce text).length = text.length

/-- The globals of the client, and the bytes that `xclip -o` or `wl-paste` streams. -/
structure Desk where
  lastClipHash : String
  suppressUntilMs : ℤ
  clipboard : Bytes

variable (tools : Tools) (keyHex : Bytes)

/-! ### Receiving -/

def perform (nowMs : ℤ) (d : Desk) : ClipAct → Desk
  | .hashText text => { d with lastClipHash := tools.sha256 text }
  | .suppressMs ms => { d with suppressUntilMs := nowMs + ms }
  | .setText text => { d with clipboard := text }
  -- Windows only
  | .suppressNext => d
  | .warn _ => d

/-- The `clipboard` branch of the WebSocket callback. -/
def onClipboardMessage (nowMs : ℤ) (content : Bytes) (d : Desk) : Desk :=
  (linuxClipboard tools.prims keyHex (some content)).foldl (perform tools nowMs) d

/-! ### Polling -/

/-- `xclip_clipboard_get_text` and `wl_clipboard_get_text`: the reads end when the stream does or
when the buffer is full up to its last byte. -/
def getText (stream : Bytes) : Option Bytes :=
  let buf := stream.take (maxClipboardSize - 1)
  if buf = [] then none else some (cString buf)

/-- `aes_gcm_encrypt` with the nonce that `RAND_bytes` gives, if it gives one. -/
def aesGcmEncrypt (nonce : Option Bytes) (plaintext : Bytes) : Option Bytes :=
  match scHexToBytes keyHex 32, nonce with
  | some key, some nonce =>
    match tools.encryptUpdate (toInt plaintext.length) with
    | none => none
    | some (outLen, update) =>
      let ct := update key nonce plaintext
      scBase64Encode tools.prims (0x02 :: (nonce ++ ct ++ tools.prims.gcmTag key nonce ct)) (1 + 12 + outLen + 16)
  | _, _ => none

def buildClipboardMsg (enc : Bytes) : Bytes :=
  ascii "\x7b\"type\":\"clipboard\",\"content\":\"" ++ enc ++ ascii "\"\x7d"

/-- The text branch of `process_clipboard_change`; a text that was set is neither an image nor a
file. -/
def processClipboardChange (nonce : Option Bytes) (d : Desk) : Desk × List Bytes :=
  match getText d.clipboard with
  | none => (d, [])
  | some clip =>
    if tools.sha256 clip = d.lastClipHash then (d, [])
    else ({ d with lastClipHash := tools.sha256 clip },
      ((aesGcmEncrypt tools keyHex nonce clip).map buildClipboardMsg).toList)

/-- A turn of the polling loop, or a change event. -/
structure Poll where
  nowMs : ℤ
  loggedIn : Bool
  nonce : Option Bytes

/-- What is queued. -/
def poll (d : Desk) (p : Poll) : Desk × List Bytes :=
  if p.loggedIn = false then (d, [])
  else if p.nowMs < d.suppressUntilMs then (d, [])
  else processClipboardChange tools keyHex p.nonce d

/-- However often the clipboard is polled, nothing is queued. -/
def Silent (d : Desk) : Prop := ∀ polls, Run.outs (poll tools keyHex) d polls = []

/-! ### What is encrypted -/

variable {tools keyHex}

/-- Whether a text is encrypted depends on its length, and not on the nonce. -/
lemma aesGcmEncrypt_isSome (nonce nonce' text : Bytes) :
    (aesGcmEncrypt tools keyHex (some nonce) text).isSome =
      (aesGcmEncrypt tools keyHex (some nonce') text).isSome := by
  unfold aesGcmEncrypt scBase64Encode
  cases scHexToBytes keyHex 32 with
  | none => rfl
  | some key =>
    dsimp only
    cases tools.encryptUpdate (toInt text.length) with
    | none => rfl
    | some r => simp only [Option.isSome_map]

/-- The base64 text of a frame with so much text is not too long. -/
def FrameFits (textLen : ℕ) : Prop := FitsBio (4 * ((1 + 12 + textLen + 16 + 2) / 3))

instance (textLen : ℕ) : Decidable (FrameFits textLen) := inferInstanceAs (Decidable (FitsBio _))

lemma aesGcmEncrypt_of_fits (hT : tools.Documented) {key : Bytes} (hkey : scHexToBytes keyHex 32 = some key)
    {text : Bytes} (hfits : FrameFits text.length) (nonce : Bytes) :
    aesGcmEncrypt tools keyHex (some nonce) text =
      some (Base64.encode ((0x02 :: (nonce ++ tools.gcmCipher key nonce text ++
        tools.prims.gcmTag key nonce (tools.gcmCipher key nonce text))).take (1 + 12 + text.length + 16))) := by
  have hlen : text.length < 2 ^ 31 := by
    unfold FrameFits FitsBio at hfits
    omega
  have hframe : 1 + 12 + text.length + 16 < 2 ^ 31 := by
    unfold FrameFits FitsBio at hfits
    omega
  have hwrite := hT.prims.bioWrite (1 + 12 + text.length + 16) (by omega) hfits
  unfold aesGcmEncrypt scBase64Encode
  rw [hkey]
  dsimp only
  rw [toInt_of_lt hlen, hT.update _ hlen]
  dsimp only
  rw [toInt_of_lt hframe, hwrite, Option.map_some, List.take_length, Int.toNat_natCast]
  refine congrArg some (List.take_of_length_le ?_)
  rw [Base64.length_encode, List.length_take]
  omega

/-! ### After a text has been received -/

lemma onClipboardMessage_eq {content dec : Bytes}
    (hdec : (aesGcmDecrypt tools.prims (cString content) keyHex).or
      (aesDecrypt tools.prims (cString content) keyHex) = some dec) (nowMs : ℤ) (d : Desk) :
    onClipboardMessage tools keyHex nowMs content d =
      ⟨tools.sha256 (cString dec), nowMs + 2000, cString dec⟩ := by
  simp [onClipboardMessage, linuxClipboard, onClipboard, hdec, perform]

lemma cString_cString (buf : Bytes) : cString (cString buf) = cString buf := by
  rw [cString, List.takeWhile_eq_self_iff]
  intro b hb
  have hb := List.mem_takeWhile_imp (p := fun b : UInt8 => decide (b ≠ 0)) hb
  simpa using hb

/-- A text that was set has no zero byte, so what is read is its beginning. -/
lemma getText_eq {text : Bytes} (htext : cString text = text) :
    getText text = if text.take (maxClipboardSize - 1) = [] then none
      else some (text.take (maxClipboardSize - 1)) := by
  have htake : cString (text.take (maxClipboardSize - 1)) = text.take (maxClipboardSize - 1) := by
    rw [cString, List.takeWhile_eq_self_iff] at htext ⊢
    exact fun b hb => htext b (List.mem_of_mem_take hb)
  unfold getText
  dsimp only
  rw [htake]

/-- The clipboard has nothing to read, or what the client has last seen. -/
lemma silent_of_known {d : Desk} (h : ∀ clip, getText d.clipboard = some clip →
    tools.sha256 clip = d.lastClipHash) : Silent tools keyHex d := by
  have hpoll : ∀ p, poll tools keyHex d p = (d, []) := by
    intro p
    unfold poll processClipboardChange
    split_ifs
    · rfl
    · rfl
    · cases hclip : getText d.clipboard with
      | none => rfl
      | some clip =>
        dsimp only
        rw [if_pos (h clip hclip)]
  intro polls
  induction polls with
  | nil => rfl
  | cons p polls ih => rw [Run.outs_cons, hpoll p, List.nil_append, ih]

lemma silent_of_no_key (hkey : scHexToBytes keyHex 32 = none) (d : Desk) :
    Silent tools keyHex d := by
  have hpoll : ∀ d p, (poll tools keyHex d p).2 = [] := by
    intro d p
    have hnone : ∀ clip, aesGcmEncrypt tools keyHex p.nonce clip = none := by
      intro clip
      simp [aesGcmEncrypt, hkey]
    unfold poll processClipboardChange
    split_ifs
    · rfl
    · rfl
    · split
      · rfl
      · split_ifs
        · rfl
        · simp [hnone]
  intro polls
  rw [List.eq_nil_iff_forall_not_mem]
  refine Run.outs_inv (I := fun _ => True) (P := fun _ => False) (fun d p _ => ⟨trivial, ?_⟩)
    trivial polls
  simp [hpoll]

lemma getText_length {stream clip : Bytes} (h : getText stream = some clip) :
    clip.length ≤ maxClipboardSize - 1 := by
  unfold getText at h
  dsimp only at h
  split_ifs at h
  rw [← Option.some.inj h]
  exact (List.takeWhile_sublist _).length_le.trans (List.length_take_le _ _)

lemma frameFits_of_read {clip : Bytes} (h : clip.length ≤ maxClipboardSize - 1) : FrameFits clip.length := by
  unfold maxClipboardSize at h
  unfold FrameFits FitsBio
  omega

lemma not_silent (hT : tools.Documented) {d : Desk} {clip key : Bytes} (hclip : getText d.clipboard = some clip)
    (hhash : tools.sha256 clip ≠ d.lastClipHash) (hkey : scHexToBytes keyHex 32 = some key) :
    ¬ Silent tools keyHex d := by
  intro hsilent
  have hfits := frameFits_of_read (getText_length hclip)
  have hnil := hsilent [⟨d.suppressUntilMs, true, some (List.replicate 12 0)⟩]
  simp [poll, processClipboardChange, hclip, hhash, aesGcmEncrypt_of_fits hT hkey hfits] at hnil

lemma silent_received_iff (hT : tools.Documented) {text : Bytes} (htext : cString text = text) (untilMs : ℤ) :
    Silent tools keyHex ⟨tools.sha256 text, untilMs, text⟩ ↔
      text.length ≤ maxClipboardSize - 1 ∨
        tools.sha256 (text.take (maxClipboardSize - 1)) = tools.sha256 text ∨
        scHexToBytes keyHex 32 = none := by
  have hget := getText_eq htext
  constructor
  · intro hsilent
    by_contra hcond
    push Not at hcond
    obtain ⟨hlong, hhash, hkey⟩ := hcond
    obtain ⟨key, hkey⟩ := Option.ne_none_iff_exists'.mp hkey
    have hne : text.take (maxClipboardSize - 1) ≠ [] := by
      intro hnil
      rcases List.take_eq_nil_iff.mp hnil with hzero | hnil
      · exact absurd hzero (by decide)
      · simp [hnil] at hlong
    rw [if_neg hne] at hget
    exact not_silent hT hget hhash hkey hsilent
  · -- in the first two cases the hash of what is read is the one that was kept
    have hknown : tools.sha256 (text.take (maxClipboardSize - 1)) = tools.sha256 text →
        Silent tools keyHex ⟨tools.sha256 text, untilMs, text⟩ := by
      intro hhash
      refine silent_of_known fun clip hclip => ?_
      dsimp only at hclip ⊢
      rw [hget] at hclip
      split_ifs at hclip
      rw [← Option.some.inj hclip, hhash]
    rintro (hshort | hhash | hkey)
    · exact hknown (by rw [List.take_of_length_le hshort])
    · exact hknown hhash
    · exact silent_of_no_key hkey _

/-- **Received text is not sent back.** After a text has been decrypted and set, at whatever time and
in whatever state, no number of polls and change events queues a message, if and only if the text
fits into the buffer it is read back through, or the part that fits has the same hash, or the client
has no key to encrypt with. -/
theorem not_sent_back_iff {tools : Tools} (hT : tools.Documented) (keyHex content dec : Bytes)
    (hdec : (aesGcmDecrypt tools.prims (cString content) keyHex).or
      (aesDecrypt tools.prims (cString content) keyHex) = some dec) (nowMs : ℤ) (d : Desk) :
    Silent tools keyHex (onClipboardMessage tools keyHex nowMs content d) ↔
      (cString dec).length ≤ maxClipboardSize - 1 ∨
        tools.sha256 ((cString dec).take (maxClipboardSize - 1)) = tools.sha256 (cString dec) ∨
        scHexToBytes keyHex 32 = none := by
  rw [onClipboardMessage_eq hdec]
  exact silent_received_iff hT (cString_cString dec) (nowMs + 2000)

/-- One byte more than the buffer takes. -/
def longText : Bytes := List.replicate maxClipboardSize 97

def updateWith (cipher : Bytes → Bytes → Bytes → Bytes) (inl : ℤ) : Option (ℕ × (Bytes → Bytes → Bytes → Bytes)) :=
  some (inl.toNat, fun key nonce text => cipher key nonce (text.take inl.toNat))

/-- SHA-256 at the two points that are used. -/
def sampleTools : Tools where
  prims := samplePrims
  sha256 data :=
    if data = longText then "9bc1b2a288b26af7257a36277ae3816a7d4f16e89c1e7e77d0a5c48bad62b360"
    else if data = List.replicate (maxClipboardSize - 1) 97 then
      "3311ea1faad557de3899e89a39076c69d9d0cc5b4cff56a0b61339f487395d56"
    else ""
  gcmCipher _ _ plaintext := if plaintext = ascii "hello" then sampleCt else plaintext
  encryptUpdate := updateWith fun _ _ plaintext => if plaintext = ascii "hello" then sampleCt else plaintext

lemma sampleTools_documented : sampleTools.Documented where
  prims := samplePrims_documented
  update inl _ := rfl
  length key nonce text := by
    simp only [sampleTools]
    split_ifs with heq
    · rw [heq]
      rfl
    · rfl

/-- Tools that tell the text `b` from others. -/
def copyTools : Tools :=
  ⟨samplePrims, fun data => if data = ascii "b" then "b" else "", fun _ _ p => p, updateWith fun _ _ p => p⟩

theorem hello_not_sent_back :
    Silent sampleTools sampleKeyHex
      (onClipboardMessage sampleTools sampleKeyHex 0 sealedHello ⟨"", 0, []⟩) :=
  (not_sent_back_iff sampleTools_documented sampleKeyHex sealedHello (ascii "hello") (by decide +kernel) 0
    ⟨"", 0, []⟩).mpr (.inl (by decide +kernel))

def longContent : Bytes :=
  Base64.encode (0x02 :: (sampleNonce ++ longText ++ List.replicate 16 0))

lemma longText_length : longText.length = maxClipboardSize := List.length_replicate

lemma longFrame_length :
    (0x02 :: (sampleNonce ++ longText ++ List.replicate 16 0) : Bytes).length = maxClipboardSize + 29 := by
  rw [List.length_cons, List.length_append, List.length_append, longText_length, List.length_replicate,
    show sampleNonce.length = 12 from rfl]
  omega

lemma cString_longText : cString longText = longText := by
  rw [cString, List.takeWhile_eq_self_iff]
  intro b hb
  rw [List.eq_of_mem_replicate hb]
  decide

lemma longContent_decrypts :
    aesGcmDecrypt samplePrims (cString longContent) sampleKeyHex = some longText := by
  have hother : longText ≠ sampleCt := by
    intro heq
    have hlen := congrArg List.length heq
    rw [longText_length] at hlen
    exact absurd hlen (by decide)
  have hsize : maxClipboardSize = 1048576 := rfl
  have hlen : longContent.length < 2 ^ 31 := by
    rw [longContent, Base64.length_encode, longFrame_length, hsize]
    omega
  rw [aesGcmDecrypt_eq_some sampleKeyHex_valid]
  refine (sealedContent_encode samplePrims_documented hlen).mpr
    ⟨sampleNonce, longText, List.replicate 16 0, rfl, rfl, rfl, ?_, ?_⟩
  · simp only [samplePrims, hother, and_false, if_false]
  · simp only [samplePrims, hother, and_false, if_false]

/-- The message fits into a frame of 2 MiB, and its text goes out again when the two seconds are
over. -/
theorem long_text_sent_back :
    (buildClipboardMsg longContent).length ≤ 2 * 1024 * 1024 ∧
      ¬ Silent sampleTools sampleKeyHex
        (onClipboardMessage sampleTools sampleKeyHex 0 longContent ⟨"", 0, []⟩) := by
  refine ⟨?_, ?_⟩
  · have hhead : (ascii "\x7b\"type\":\"clipboard\",\"content\":\"").length = 31 := rfl
    have htail : (ascii "\"\x7d").length = 2 := rfl
    have hsize : maxClipboardSize = 1048576 := rfl
    rw [buildClipboardMsg, List.length_append, List.length_append, longContent,
      Base64.length_encode, longFrame_length, hhead, htail, hsize]
    omega
  · have hdec : (aesGcmDecrypt sampleTools.prims (cString longContent) sampleKeyHex).or
        (aesDecrypt sampleTools.prims (cString longContent) sampleKeyHex) = some longText := by
      rw [show sampleTools.prims = samplePrims from rfl, longContent_decrypts, Option.some_or]
    rw [onClipboardMessage_eq hdec, cString_longText, silent_received_iff sampleTools_documented cString_longText]
    have htake : longText.take (maxClipboardSize - 1) =
        List.replicate (maxClipboardSize - 1) 97 := by
      rw [longText, List.take_replicate, Nat.min_eq_left (Nat.sub_le _ _)]
    have hne : (List.replicate (maxClipboardSize - 1) 97 : Bytes) ≠ longText := by
      intro heq
      have hlen := congrArg List.length heq
      rw [longText_length, List.length_replicate] at hlen
      exact absurd hlen (by decide)
    rintro (hshort | hhash | hkey)
    · rw [longText_length] at hshort
      exact absurd hshort (by decide)
    · rw [htake] at hhash
      simp only [sampleTools, if_neg hne, if_true] at hhash
      exact absurd hhash (by decide)
    · exact absurd hkey (by decide +kernel)

end SyncClipboard.Echo
