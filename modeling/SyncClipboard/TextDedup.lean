import Mathlib
import SyncClipboard.Envelope
import SyncClipboard.Phone
import SyncClipboard.Run

/-!
Texts that are copied on Android, one after the other.

A text goes out unless it has the hash code of the text before. Hash codes have 32 bits, and different
texts may share one. So the copies go out with their repetitions removed exactly if no two different
texts with the same hash code follow each other (`texts_iff`).
-/

namespace SyncClipboard.TextDedup

/-! ### Removing repetitions -/

section Destutter

variable {α β : Type*} [DecidableEq α] [DecidableEq β] (f : α → β)

lemma length_destutter'_le {a b : α} (h : f a = f b) (l : List α) :
    (l.destutter' (fun x y => f x ≠ f y) b).length ≤ (l.destutter' (· ≠ ·) a).length := by
  induction l generalizing a b with
  | nil => rfl
  | cons c l ih =>
    by_cases hbc : f b = f c
    · rw [List.destutter'_cons_neg _ (not_not.mpr hbc)]
      by_cases hac : a = c
      · rw [List.destutter'_cons_neg _ (not_not.mpr hac)]
        exact ih h
      · rw [List.destutter'_cons_pos _ hac, List.length_cons]
        exact (ih hbc.symm).trans (Nat.le_succ _)
    · have hac : a ≠ c := fun hac => hbc (h ▸ congrArg f hac)
      rw [List.destutter'_cons_pos _ hbc, List.destutter'_cons_pos _ hac, List.length_cons,
        List.length_cons]
      exact Nat.succ_le_succ (ih rfl)

/-- Repetitions of a value are removed like repetitions of an element if and only if neighbours with one
value are the same. -/
theorem destutter_comp_iff (l : List α) :
    l.destutter (fun x y => f x ≠ f y) = l.destutter (· ≠ ·) ↔
      l.IsChain fun x y => f x = f y → x = y := by
  cases l with
  | nil => simp
  | cons a l =>
    rw [List.destutter_cons', List.destutter_cons']
    induction l generalizing a with
    | nil => simp
    | cons c l ih =>
      rw [List.isChain_cons_cons]
      by_cases hne : f a = f c
      · rw [List.destutter'_cons_neg _ (not_not.mpr hne)]
        by_cases hac : a = c
        · subst hac
          rw [List.destutter'_cons_neg _ (not_not.mpr rfl), ih]
          simp
        · -- the second element is left out on one side only
          rw [List.destutter'_cons_pos _ hac]
          refine iff_of_false (fun heq => ?_) fun hchain => hac (hchain.1 hne)
          have hle := length_destutter'_le f hne.symm l
          rw [heq, List.length_cons] at hle
          omega
      · have hac : a ≠ c := fun hac => hne (congrArg f hac)
        rw [List.destutter'_cons_pos _ hne, List.destutter'_cons_pos _ hac, List.cons_inj_right, ih,
          and_iff_right fun heq => absurd heq hne]

end Destutter

open FtAuth Phone Crypto CString Echo Envelope
open Client (Did Lib)
open Android (Store)

/-! ### String.hashCode -/

/-- The code units of a character. -/
def utf16 (c : Char) : List ℕ :=
  if c.toNat < 0x10000 then [c.toNat]
  else [0xD800 + (c.toNat - 0x10000) / 0x400, 0xDC00 + (c.toNat - 0x10000) % 0x400]

def hashCode (s : String) : ℤ :=
  (s.toList.flatMap utf16).foldl (fun h u => (31 * h + (u : ℤ)).bmod (2 ^ 32)) 0

/-- The platform with the hash codes of Java. -/
def java (platform : Platform) : Platform := { platform with hashCode := fun s => (hashCode s).repr }

/-! ### Copies -/

variable (tools : Tools) (keyHex : Bytes)

/-- The result of `encodeToString`. -/
def asciiString (bytes : Bytes) : String := String.ofList (bytes.map fun b => Char.ofNat b.toNat)

/-- The user copies a text, and the listener of the service is called. The rest of `meets` is what the
listener does not look at. -/
structure Copy where
  text : String
  nonce : Bytes
  meets : Reading
  text_ne : text ≠ ""
  nonce_length : nonce.length = 12

/-- The clip can be read, and is encrypted under the nonce. -/
def Copy.reading (c : Copy) : Reading :=
  { c.meets with
    access := .clip
    encrypt := fun text => (encrypt tools keyHex c.nonce text).map asciiString }

def Copy.events (c : Copy) : List Event :=
  [.copy ⟨false, none, some c.text⟩, .serviceCall (c.reading tools keyHex)]

/-- The text in a message. -/
def textOf : Did → Option String
  | .send (.clipboard m) => m.content.bind fun content =>
    match AesGcmCipher.decrypt tools.prims (utf8 content) keyHex with
    | .success text => some text
    | _ => none
  | _ => none

variable (lib : Lib) (store : Store) (platform : Platform)

/-- The texts in the messages that are sent. -/
def texts (p : State) (copies : List Copy) : List String :=
  (Run.outs (Phone.step lib store (java platform)) p
    (copies.flatMap fun c => c.events tools keyHex)).filterMap (textOf tools keyHex)

/-- A client that is logged in and has not seen a text yet. -/
structure Fresh (p : State) : Prop where
  loggedIn : p.loggedIn = true
  suppressNext : p.suppressNext = false
  lastClipHash : p.lastClipHash = ""

variable {tools keyHex lib store platform}

/-! ### One copy -/

lemma utf8_asciiString {bytes : Bytes} (h : ∀ b ∈ bytes, b < 128) :
    utf8 (asciiString bytes) = bytes := by
  have hchar : ∀ b : UInt8, b < 128 → String.utf8EncodeChar (Char.ofNat b.toNat) = [b] := by
    decide +kernel
  rw [utf8, asciiString, String.toList_ofList]
  induction bytes with
  | nil => rfl
  | cons b bytes ih =>
    rw [List.map_cons, List.flatMap_cons, hchar b (h b (by simp)),
      ih fun b' hb' => h b' (by simp [hb']), List.singleton_append]

lemma encode_ascii {bytes : Bytes} {c : UInt8} (hc : c ∈ Base64.encode bytes) : c < 128 := by
  have hsymbol : ∀ n < 64, Base64.symbol n < 128 := by decide
  rcases Base64.mem_encode hc with rfl | ⟨n, hn, rfl⟩
  · decide
  · exact hsymbol n hn

lemma textOf_sealed (hP : tools.prims.Documented) (hT : Aead tools) (hk : ValidKey keyHex)
    {nonce : Bytes} (hn : nonce.length = 12) (text : String) :
    ∃ content, (encrypt tools keyHex nonce text).map asciiString = some content ∧
      textOf tools keyHex (.send (.clipboard ⟨none, some content, none⟩)) = some text := by
  have hplain := hT.openSeal (keyBytes keyHex) nonce (utf8 text) (parseKey_valid hk).2.2 hn
  have henc : encrypt tools keyHex nonce text = some (Base64.encode (frameOf tools keyHex nonce
      (tools.gcmCipher (keyBytes keyHex) nonce (utf8 text)))) := by
    simp only [encrypt, androidKey_valid hk, doFinalSeal, frameOf, List.append_assoc]
  refine ⟨_, by rw [henc]; rfl, ?_⟩
  simp only [textOf, Option.bind_some]
  rw [utf8_asciiString fun c hc => encode_ascii hc, decrypt_frameOf hT hk hn (hP.noWrap _), hplain,
    stringUtf8_utf8]

/-- Nothing keeps the service from sending. -/
structure Ready (p : State) : Prop where
  loggedIn : p.loggedIn = true
  suppressNext : p.suppressNext = false

lemma serviceChanged_text {p : State} (hp : Ready p) {r : Reading} (hr : r.access = .clip)
    {text : String} (htext : text ≠ "") (hclip : p.clip = ⟨false, none, some text⟩) :
    serviceChanged lib store platform r p = sendText platform r text p := by
  have himage : checkAndSendImageClipboard lib store r ⟨false, none, some text⟩ p = none := by
    simp [checkAndSendImageClipboard, imageOf, pickImageMime]
  simp [serviceChanged, hp.loggedIn, hp.suppressNext, primaryClip, hr, hclip, himage,
    Option.filter_some, htext]

/-- A copy goes out unless its hash code is the one that is remembered, and is remembered in any case. -/
lemma copy_spec (hP : tools.prims.Documented) (hT : Aead tools) (hk : ValidKey keyHex) {p : State}
    (hp : Ready p) (c : Copy) :
    Ready (Run.exec (Phone.step lib store (java platform)) p (c.events tools keyHex)) ∧
    (Run.exec (Phone.step lib store (java platform)) p (c.events tools keyHex)).lastClipHash =
      (hashCode c.text).repr ∧
    (Run.outs (Phone.step lib store (java platform)) p (c.events tools keyHex)).filterMap
        (textOf tools keyHex) =
      if (hashCode c.text).repr = p.lastClipHash then [] else [c.text] := by
  obtain ⟨content, hcontent, htext⟩ := textOf_sealed hP hT hk c.nonce_length c.text
  set q : State := { p.setPrimaryClip ⟨false, none, some c.text⟩ with
    serviceCalls := (p.setPrimaryClip ⟨false, none, some c.text⟩).serviceCalls - 1 } with hq
  have hready : Ready q := ⟨hp.loggedIn, hp.suppressNext⟩
  have hstep : Phone.step lib store (java platform) (p.setPrimaryClip ⟨false, none, some c.text⟩)
      (.serviceCall (c.reading tools keyHex)) =
        sendText (java platform) (c.reading tools keyHex) c.text q := by
    have hcalls : (p.setPrimaryClip ⟨false, none, some c.text⟩).serviceCalls ≠ 0 :=
      Nat.succ_ne_zero p.serviceCalls
    rw [Phone.step, if_neg hcalls]
    exact serviceChanged_text hready rfl c.text_ne rfl
  have hsent : (c.reading tools keyHex).encrypt c.text = some content := hcontent
  have hsend : sendText (java platform) (c.reading tools keyHex) c.text q =
      if (hashCode c.text).repr = p.lastClipHash then (q, [])
      else ({ q with lastClipHash := (hashCode c.text).repr },
        [.send (.clipboard ⟨none, some content, none⟩)]) := by
    rw [sendText, hsent]
    rfl
  simp only [Copy.events, Run.exec_cons, Run.exec_nil, Run.outs_cons, Run.outs_nil, List.append_nil]
  rw [show (Phone.step lib store (java platform) p (.copy ⟨false, none, some c.text⟩)) =
    (p.setPrimaryClip ⟨false, none, some c.text⟩, []) from rfl, hstep, hsend, List.nil_append]
  by_cases hsame : (hashCode c.text).repr = p.lastClipHash
  · simp only [if_pos hsame]
    exact ⟨hready, hsame.symm, rfl⟩
  · simp only [if_neg hsame]
    exact ⟨⟨hp.loggedIn, hp.suppressNext⟩, trivial, List.filterMap_cons_some htext⟩

/-! ### All copies -/

lemma repr_ne_empty (n : ℤ) : n.repr ≠ "" := by
  cases n with
  | ofNat m => exact Nat.repr_ne_empty
  | negSucc m =>
    intro h
    have hlist := congrArg String.toList h
    rw [Int.repr] at hlist
    simp at hlist

section Copies

variable (hP : tools.prims.Documented) (hT : Aead tools) (hk : ValidKey keyHex)

include hP hT hk

lemma texts_cons {p : State} (hp : Ready p) (c : Copy) (copies : List Copy) :
    ∃ q, Ready q ∧ q.lastClipHash = (hashCode c.text).repr ∧
      texts tools keyHex lib store platform p (c :: copies) =
        (if (hashCode c.text).repr = p.lastClipHash then [] else [c.text]) ++
          texts tools keyHex lib store platform q copies := by
  obtain ⟨hready, hhash, hsent⟩ := @copy_spec tools keyHex lib store platform hP hT hk p hp c
  refine ⟨_, hready, hhash, ?_⟩
  rw [texts, List.flatMap_cons, Run.outs_append, List.filterMap_append, hsent]
  rfl

lemma texts_after {p : State} (hp : Ready p) {a : String} (ha : p.lastClipHash = (hashCode a).repr)
    (copies : List Copy) :
    a :: texts tools keyHex lib store platform p copies =
      (copies.map Copy.text).destutter' (fun x y => hashCode x ≠ hashCode y) a := by
  induction copies generalizing p a with
  | nil => rfl
  | cons c copies ih =>
    obtain ⟨q, hq, hhash, htexts⟩ :=
      @texts_cons tools keyHex lib store platform hP hT hk p hp c copies
    rw [htexts, ha, List.map_cons]
    by_cases hsame : hashCode a = hashCode c.text
    · rw [if_pos (congrArg Int.repr hsame.symm), List.destutter'_cons_neg _ (not_not.mpr hsame),
        List.nil_append]
      exact ih hq (hhash.trans (congrArg Int.repr hsame.symm))
    · rw [if_neg fun h => hsame (Int.repr_inj.mp h).symm, List.destutter'_cons_pos _ hsame,
        List.singleton_append, ih hq hhash]

lemma texts_eq {p : State} (hp : Fresh p) (copies : List Copy) :
    texts tools keyHex lib store platform p copies =
      (copies.map Copy.text).destutter fun x y => hashCode x ≠ hashCode y := by
  cases copies with
  | nil => rfl
  | cons c copies =>
    obtain ⟨q, hq, hhash, htexts⟩ :=
      @texts_cons tools keyHex lib store platform hP hT hk p ⟨hp.loggedIn, hp.suppressNext⟩ c copies
    have hfirst : (hashCode c.text).repr ≠ p.lastClipHash := by
      rw [hp.lastClipHash]
      exact repr_ne_empty _
    rw [htexts, if_neg hfirst, List.map_cons, List.destutter_cons', ← texts_after hP hT hk hq hhash]
    rfl

end Copies

/-- **Texts that are copied on Android.** From a client that is logged in with a valid key and has seen no
text yet, exactly the copies with consecutive repetitions removed go out, if and only if no two different
texts that follow each other have the same hash code. -/
theorem texts_iff (hP : tools.prims.Documented) (hT : Aead tools) (hk : ValidKey keyHex) (lib : Lib)
    (store : Store) (platform : Platform) (p : State) (hp : Fresh p) (copies : List Copy) :
    texts tools keyHex lib store platform p copies = (copies.map Copy.text).destutter (· ≠ ·) ↔
      (copies.map Copy.text).IsChain fun x y => hashCode x = hashCode y → x = y := by
  rw [texts_eq hP hT hk hp, destutter_comp_iff]

section Sample

def noLib : Lib := ⟨fun _ => "", fun _ => "", fun _ => none, fun _ => none⟩

def noPlatform : Platform := ⟨id, fun _ _ => ⟨false, none, none⟩, id⟩

/-- A client after its login. -/
def loggedIn : State :=
  ⟨⟨3, false, none, [], [], []⟩, true, false, "", "", "", ⟨false, none, none⟩, 0, 0, 0, 0⟩

def copyOf (text : String) (h : text ≠ "") : Copy :=
  ⟨text, ClipIntegrity.sampleNonce, ⟨.clip, true, none, true, fun _ => none, "f", []⟩, h, rfl⟩

/-- A text, the same text again, and another one. -/
theorem texts_iff_three :
    texts aeadTools sampleKeyHex noLib ⟨3, 100⟩ noPlatform loggedIn
        [copyOf "a" (by decide), copyOf "a" (by decide), copyOf "b" (by decide)] = ["a", "b"] := by
  refine ((texts_iff aeadTools_documented.prims aeadTools_aead sampleKeyHex_valid noLib ⟨3, 100⟩ noPlatform
    loggedIn ⟨rfl, rfl, rfl⟩ [copyOf "a" (by decide), copyOf "a" (by decide),
      copyOf "b" (by decide)]).mpr ?_).trans ?_
  · decide
  · decide

/-- `Aa` and `BB` have one hash code, and the second one does not go out. -/
theorem texts_collision :
    texts aeadTools sampleKeyHex noLib ⟨3, 100⟩ noPlatform loggedIn
        [copyOf "Aa" (by decide), copyOf "BB" (by decide)] ≠
      (["Aa", "BB"] : List String).destutter (· ≠ ·) := by
  rw [texts_eq aeadTools_documented.prims aeadTools_aead sampleKeyHex_valid ⟨rfl, rfl, rfl⟩]
  decide

end Sample

end SyncClipboard.TextDedup
