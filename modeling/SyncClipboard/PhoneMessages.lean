import Mathlib.Data.List.Induction
import Mathlib.Data.List.ReduceOption
import SyncClipboard.Envelope
import SyncClipboard.Messages
import SyncClipboard.Reoffer

/-!
The messages of the protocol as JSON texts, on the phone.

The phone reads and writes JSON with Gson, which is a parameter. It takes what it needs out of a frame
member by member, with a default for each one that is missing; an accessor that meets something else throws,
`null` too. `phone_refines`: what the phone makes of the texts of frames is what it makes of the messages, up to
the first text that has `null` in a member the phone reads. `phone_sends`: every message that the
phone sends is JSON, and the server finds this message in it and no other.
-/

namespace SyncClipboard.PhoneMessages

open FtAuth CString CJson ServerModel Client Android Messages
open Crypto (Prims AesGcmCipher.decrypt)
open Json (Value)

/-! ### Gson -/

/-- What the accessors of an element throw. -/
inductive Thrown
  | illegalState
  | unsupportedOperation
  | classCast
  | numberFormat

abbrev Element (N : Type) := Value N String

/-- The members of an object, in the order in which they were added. -/
structure JsonObject (N : Type) where
  members : List (String × Element N)
  distinct : (members.map Prod.fst).Nodup

/-- Functions of the library. `fromJson` is `none` for `null` and for an exception. -/
structure Gson (N : Type) where
  fromJson : Bytes → Option (JsonObject N)
  toJson : JsonObject N → Bytes
  /-- a `Long` as a number -/
  ofLong : ℤ → N
  numberString : N → String
  intValue : N → ℤ
  longValue : N → ℤ
  /-- of a string; `none` is a `NumberFormatException` -/
  parseInt : String → Option ℤ
  parseLong : String → Option ℤ

section Program

variable {N : Type}

def JsonObject.get (name : String) (o : JsonObject N) : Option (Element N) :=
  (o.members.find? fun m => decide (m.1 = name)).map Prod.snd

/-- A member with a new name comes last. -/
def JsonObject.add (name : String) (v : Element N) (o : JsonObject N) : JsonObject N :=
  if h : name ∈ o.members.map Prod.fst then
    ⟨o.members.map fun m => (m.1, if m.1 = name then v else m.2), by simpa [Function.comp_def] using o.distinct⟩
  else
    ⟨o.members ++ [(name, v)], by
      rw [List.map_append, List.nodup_append]
      refine ⟨o.distinct, by simp, fun a ha b hb => ?_⟩
      obtain rfl := List.mem_singleton.mp hb
      exact fun heq => h (heq ▸ ha)⟩

/-- An element that is no object, no `null` and no array. -/
inductive Primitive (N : Type)
  | string (s : String)
  | number (d : N)
  | bool (b : Bool)

/-- An array stands for its element if it has just one. -/
def primitive : Element N → Except Thrown (Primitive N)
  | .string s => .ok (.string s)
  | .number d => .ok (.number d)
  | .bool b => .ok (.bool b)
  | .array [v] => primitive v
  | .array _ => .error .illegalState
  | .null | .object _ => .error .unsupportedOperation

lemma primitive_string (s : String) : primitive (.string s : Element N) = .ok (.string s) := rfl

lemma primitive_number (d : N) : primitive (.number d) = .ok (.number d) := rfl

lemma primitive_bool (b : Bool) : primitive (.bool b : Element N) = .ok (.bool b) := rfl

variable (gson : Gson N)

def asString : Primitive N → Except Thrown String
  | .string s => .ok s
  | .number d => .ok (gson.numberString d)
  | .bool b => .ok (if b then "true" else "false")

def parsed (i : Option ℤ) : Except Thrown ℤ := i.elim (.error .numberFormat) .ok

def asInt : Primitive N → Except Thrown ℤ
  | .number d => .ok (gson.intValue d)
  | .string s => parsed (gson.parseInt s)
  | .bool b => parsed (gson.parseInt (if b then "true" else "false"))

def asLong : Primitive N → Except Thrown ℤ
  | .number d => .ok (gson.longValue d)
  | .string s => parsed (gson.parseLong s)
  | .bool b => parsed (gson.parseLong (if b then "true" else "false"))

def asBoolean : Primitive N → Except Thrown Bool
  | .bool b => .ok b
  | .string s => .ok (decide (s.toLower = "true"))
  | .number d => .ok (decide ((gson.numberString d).toLower = "true"))

/-- `get(name)?.` with an accessor. -/
def JsonObject.read {α : Type} (accessor : Primitive N → Except Thrown α) (name : String) (o : JsonObject N) :
    Except Thrown (Option α) :=
  match o.get name with
  | none => .ok none
  | some v => do
    let p ← primitive v
    let a ← accessor p
    return some a

/-- `getAsJsonArray(name)?.map { it.asString }`. -/
def JsonObject.readStrings (name : String) (o : JsonObject N) : Except Thrown (Option (List String)) :=
  match o.get name with
  | none => .ok none
  | some (.array items) => do
    let strings ← items.mapM fun v => do
      let p ← primitive v
      asString gson p
    return some strings
  | some _ => .error .classCast

/-! ### MessageCodec and the messages that are sent -/

def message (type : String) (build : List (String × Element N)) : Bytes :=
  gson.toJson (build.foldl (fun o m => o.add m.1 m.2) (JsonObject.add "type" (.string type) ⟨[], by simp⟩))

/-- `toJsonTree` of some addresses. -/
def toJsonTree (addrs : List String) : Element N := .array (addrs.map .string)

def clipboardText (encrypted : String) : Bytes := message gson "clipboard" [("content", .string encrypted)]

def fileOfferText (fileId fileName mime : String) (fileSize : ℤ) (imgHash : String) (addrs : List String) : Bytes :=
  message gson "file_offer" [("fileId", .string fileId), ("fileName", .string fileName),
    ("mimeType", .string mime), ("fileSize", .number (gson.ofLong fileSize)), ("checksum", .string imgHash),
    ("localAddresses", toJsonTree addrs)]

def fileRequestText (fileId : String) (addrs : List String) : Bytes :=
  message gson "file_request" [("fileId", .string fileId), ("localAddresses", toJsonTree addrs)]

def needRelayText (fileId : String) : Bytes := message gson "file_relay" [("fileId", .string fileId)]

def relayDataText (fileId : String) (fileSize : ℤ) (targetDevice b64 : String) : Bytes :=
  message gson "file_relay" [("fileId", .string fileId), ("fileSize", .number (gson.ofLong fileSize)),
    ("targetDevice", .string targetDevice), ("data", .string b64)]

def transferResultText (fileId method : String) (connectionMs transferMs : ℤ) : Bytes :=
  message gson "file_transfer_result" [("fileId", .string fileId), ("method", .string method),
    ("success", .bool true), ("connectionMs", .number (gson.ofLong connectionMs)),
    ("transferMs", .number (gson.ofLong transferMs))]

/-- The text of a message, if it is one that the phone builds. -/
def sentText : WsMessage → Option Bytes
  | .clipboard ⟨none, some encrypted, none⟩ => some (clipboardText gson encrypted)
  | .fileOffer ⟨none, some fileId, some fileName, some mime, fileSize, some imgHash, some addrs⟩ =>
    some (fileOfferText gson fileId fileName mime fileSize imgHash addrs)
  | .fileRequest ⟨none, some fileId, some addrs⟩ => some (fileRequestText gson fileId addrs)
  | .fileRelay ⟨none, some fileId, 0, none, none⟩ => some (needRelayText gson fileId)
  | .fileRelay ⟨none, some fileId, fileSize, some target, some b64⟩ =>
    some (relayDataText gson fileId fileSize target b64)
  | .fileTransferResult ⟨some fileId, some method, true, connectionMs, transferMs⟩ =>
    some (transferResultText gson fileId method connectionMs transferMs)
  | _ => none

/-! ### The messages that come -/

variable (P : Prims) (lib : Lib) (store : Store) (platform : Phone.Platform) (aesKey : Bytes)

def handleClipboardMsg (json : JsonObject N) (p : Phone.State) : Except Thrown Phone.State := do
  match ← json.read (asString gson) "content" with
  | none => return p
  | some content =>
    let _ ← json.read (asString gson) "from"
    match AesGcmCipher.decrypt P (utf8 content) aesKey with
    | .success plaintext => return Phone.handleClipboardMsg platform plaintext p
    | _ => return p

def handleFileNotify (localAddresses : List String) (json : JsonObject N) (c : Service) :
    Except Thrown (Service × List Did) := do
  if store.fileTransferLevel ≤ 0 then return (c, [])
  let c := { c with transferStarted := false }
  match ← json.read (asString gson) "fileId" with
  | none => return (c, [])
  | some fileId =>
    let fileName ← json.read (asString gson) "fileName"
    let mimeType ← json.read (asString gson) "mimeType"
    let fileSize ← json.read (asLong gson) "fileSize"
    let checksum ← json.read (asString gson) "checksum"
    let maxRelay ← json.read (asLong gson) "maxRelaySize"
    let _ ← json.read (asInt gson) "udpPort"
    let _ ← json.read (asString gson) "from"
    return ({ c with
      currentState := some ⟨fileId, fileName.getD "file", mimeType.getD "application/octet-stream",
        fileSize.getD 0, checksum.getD "", none, false, maxRelay.getD 0, 3⟩ },
      [.send (.fileRequest ⟨none, some fileId, some localAddresses⟩)])

/-- The addresses are read into the state, which is kept without them here. -/
def handleFilePeerInfo (json : JsonObject N) (c : Service) : Except Thrown (Service × List Did) := do
  match c.currentState with
  | none => return (c, [])
  | some state =>
    if c.transferStarted then return (c, [])
    let _ ← json.readStrings gson "peerLocalAddresses"
    let _ ← json.read (asString gson) "peerPublicAddress"
    let peerFileLevel ← json.read (asInt gson) "fileTransferLevel"
    let _ ← json.read (asBoolean gson) "sameLan"
    let state := { state with
      fileTransferLevel := min (min store.fileTransferLevel c.serverFileLevel) (peerFileLevel.getD 3) }
    return ({ c with
      transferStarted := true
      currentState := some state
      transfers := c.transfers ++ [state] }, [])

def handleFileRelayRequest (json : JsonObject N) (c : Service) : Except Thrown (Service × List Did) := do
  match ← json.read (asString gson) "requesterId" with
  | none => return (c, [])
  | some requesterId =>
    match c.currentState with
    | none => return (c, [])
    | some state =>
      match state.data with
      | none => return (c, [])
      | some data =>
        return (c, [.send (.fileRelay ⟨none, some state.fileId, state.fileSize, some requesterId,
          some (lib.base64Encode data)⟩)])

def handleFileRelayData (json : JsonObject N) (c : Service) : Except Thrown (Service × List Did) := do
  let fileName ← json.read (asString gson) "fileName"
  let mimeType ← json.read (asString gson) "mimeType"
  match ← json.read (asString gson) "data" with
  | none => return (c, [])
  | some b64 =>
    return ({ c with
      relayed := c.relayed ++ [⟨b64, fileName.getD "file", mimeType.getD "application/octet-stream"⟩] }, [])

/-- `handleMessage`, on a text. -/
def handleMessage (localAddresses : List String) (text : Bytes) (p : Phone.State) :
    Except Thrown (Phone.State × List Did) := do
  match gson.fromJson text with
  | none => return (p, [])
  | some json =>
    match ← json.read (asString gson) "type" with
    | none => return (p, [])
    | some type =>
      if type = "hello_ack" then
        let level ← json.read (asInt gson) "serverFileLevel"
        return ({ p with service := { p.service with serverFileLevel := level.getD 3 } }, [])
      else if type = "clipboard" then
        let p ← handleClipboardMsg gson P platform aesKey json p
        return (p, [])
      else if type = "file_notify" then
        let next ← handleFileNotify gson store localAddresses json p.service
        return ({ p with service := next.1 }, next.2)
      else if type = "file_peer_info" then
        let next ← handleFilePeerInfo gson store json p.service
        return ({ p with service := next.1 }, next.2)
      else if type = "file_relay_request" then
        let next ← handleFileRelayRequest gson lib json p.service
        return ({ p with service := next.1 }, next.2)
      else if type = "file_relay_data" then
        let next ← handleFileRelayData gson json p.service
        return ({ p with service := next.1 }, next.2)
      else if type = "error" then
        let _ ← json.read (asString gson) "code"
        let _ ← json.read (asString gson) "message"
        return (p, [])
      else return (p, [])

/-- What happens on the phone: a text comes, or something else. -/
inductive Event
  | incoming (localAddresses : List String) (text : Bytes)
  | other (e : Phone.Event)

/-- After an exception nothing is left. -/
def step (p : Option Phone.State) : Event → Option Phone.State × List Did
  | .incoming localAddresses text =>
    match p with
    | none => (none, [])
    | some p =>
      match handleMessage gson P lib store platform aesKey localAddresses text p with
      | .error _ => (none, [])
      | .ok next => (some next.1, next.2)
  | .other e =>
    match p with
    | none => (none, [])
    | some p =>
      let next := Phone.step lib store platform p e
      (some next.1, next.2)

end Program

/-! ### What is to be shown -/

section Spec

variable {D : Type} (dbl : Doubles D) (gson : Gson D)

/-- A member with its strings in UTF-8. -/
def memberBytes (m : String × Element D) : Bytes × Item D := (utf8 m.1, m.2.map id utf8)

/-- What the phone puts into a message. -/
inductive Plain : Element D → Prop
  | string (s : String) : Plain (.string s)
  | long (i : ℤ) : Plain (.number (gson.ofLong i))
  | bool (b : Bool) : Plain (.bool b)
  | strings (l : List String) : Plain (toJsonTree l)

/-- Documented behaviour of Gson: it reads JSON, here nested at most a thousand deep, and of several members
with one name it keeps the last; it writes JSON; integers are kept. -/
structure Gson.Documented : Prop where
  reads {n : ℕ} (hn : n ≤ nestingLimit) {t : Bytes} {ms : List (String × Element D)}
    (h : Json.Text dbl.value id n t (.object (ms.map memberBytes))) :
    ∃ o, gson.fromJson t = some o ∧
      ∀ name, o.get name = (ms.reverse.find? fun m => decide (m.1 = name)).map Prod.snd
  writes {o : JsonObject D} (h : ∀ m ∈ o.members, Plain gson m.2) :
    Json.Text dbl.value id 2 (gson.toJson o) (.object (o.members.map memberBytes))
  ofLong (i : ℤ) : gson.ofLong i = dbl.ofInt i
  intValue {i : ℤ} (hmin : -2 ^ 31 ≤ i) (hmax : i < 2 ^ 31) : gson.intValue (dbl.ofInt i) = i
  longValue {i : ℤ} (hmin : -2 ^ 63 ≤ i) (hmax : i < 2 ^ 63) : gson.longValue (dbl.ofInt i) = i

/-- The components of type `int`. -/
def intNames : List String := ["v", "serverFileLevel", "udpPort", "fileTransferLevel"]

/-- The numbers of a message are in the range of `int` or `long`. -/
def InRange (m : WsMessage) : Prop :=
  ∀ c ∈ components m, ∀ i, c.2 = .number i →
    (-2 ^ 63 ≤ i ∧ i < 2 ^ 63) ∧ (c.1 ∈ intNames → -2 ^ 31 ≤ i ∧ i < 2 ^ 31)

variable (P : Prims) (aesKey : Bytes)

variable (store : Store)

end Spec

/-! ### A small Gson -/

section Small

lemma get_add {N : Type} {name name' : String} {v : Element N} {o : JsonObject N} :
    (o.add name' v).get name = if name' = name then some v else o.get name := by
  rw [JsonObject.add]
  split_ifs with hmem heq heq
  · subst heq
    obtain ⟨b, hb, hname⟩ := List.mem_map.mp hmem
    rw [JsonObject.get, List.find?_map]
    cases hfind : o.members.find? ((fun m => decide (m.1 = name')) ∘
        fun m => (m.1, if m.1 = name' then v else m.2)) with
    | none =>
      have hno := List.find?_eq_none.mp hfind b hb
      simp [hname] at hno
    | some a =>
      have ha := List.find?_some hfind
      simp only [Function.comp_apply, decide_eq_true_eq] at ha
      simp [ha]
  · rw [JsonObject.get, JsonObject.get, List.find?_map]
    cases hfind : o.members.find? fun m => decide (m.1 = name) with
    | none =>
      have hsame : o.members.find? ((fun m => decide (m.1 = name)) ∘
          fun m => (m.1, if m.1 = name' then v else m.2)) = none := hfind
      rw [hsame]
      rfl
    | some a =>
      have hsame : o.members.find? ((fun m => decide (m.1 = name)) ∘
          fun m => (m.1, if m.1 = name' then v else m.2)) = some a := hfind
      have ha : a.1 = name := by simpa using List.find?_some hfind
      rw [hsame, Option.map_some, Option.map_some, ha, if_neg (fun h => heq h.symm)]
      rfl
  · subst heq
    have hnone : (o.members.find? fun m => decide (m.1 = name')) = none := by
      refine List.find?_eq_none.mpr fun b hb hname => hmem ?_
      exact List.mem_map.mpr ⟨b, hb, by simpa using hname⟩
    rw [JsonObject.get, List.find?_append, hnone]
    simp
  · rw [JsonObject.get, List.find?_append, JsonObject.get]
    simp [heq]

/-- The last of several members with one name is kept. -/
lemma get_foldl_add {N : Type} (name : String) (ms : List (String × Element N)) :
    (ms.foldl (fun o m => o.add m.1 m.2) ⟨[], by simp⟩ : JsonObject N).get name =
      (ms.reverse.find? fun m => decide (m.1 = name)).map Prod.snd := by
  induction ms using List.reverseRecOn with
  | nil => rfl
  | append_singleton ms m ih =>
    rw [List.foldl_append, List.foldl_cons, List.foldl_nil, get_add, ih, List.reverse_append, List.reverse_singleton,
      List.singleton_append, List.find?_cons]
    by_cases heq : m.1 = name
    · simp [heq]
    · simp [heq]

def stringOf (bytes : Bytes) : String := Crypto.stringUtf8 Envelope.aeadTools.prims bytes

lemma stringOf_utf8 (s : String) : stringOf (utf8 s) = s := Envelope.stringUtf8_utf8 _ s

/-- The texts, with the commas between them. -/
def commas : List Bytes → Bytes
  | [] => []
  | [t] => t
  | t :: ts => t ++ 0x2C :: commas ts

def leafText : Element ℤ → Bytes
  | .string s => renderString (utf8 s)
  | .number i => Json.decimal i
  | .bool b => if b then Json.true_ else Json.false_
  | _ => Json.null

def elementText : Element ℤ → Bytes
  | .array items => 0x5B :: (commas (items.map leafText) ++ [0x5D])
  | v => leafText v

def memberText (m : String × Element ℤ) : Bytes := renderString (utf8 m.1) ++ 0x3A :: elementText m.2

def smallGson : Gson ℤ where
  fromJson t :=
    match parseBuffers integers.value t with
    | some (.object members) =>
      some (members.foldl (fun o m => o.add (stringOf m.1) (m.2.map id stringOf)) ⟨[], by simp⟩)
    | _ => none
  toJson o := 0x7B :: (commas (o.members.map memberText) ++ [0x7D])
  ofLong := id
  numberString := toString
  intValue := id
  longValue := id
  parseInt := String.toInt?
  parseLong := String.toInt?

lemma smallGson_reads {n : ℕ} (hn : n ≤ nestingLimit) {t : Bytes} {ms : List (String × Element ℤ)}
    (h : Json.Text integers.value id n t (.object (ms.map memberBytes))) :
    smallGson.fromJson t = some (ms.foldl (fun o m => o.add m.1 m.2) ⟨[], by simp⟩) := by
  have hback (m : String × Element ℤ) : (stringOf (memberBytes m).1, (memberBytes m).2.map id stringOf) = m :=
    Prod.ext (stringOf_utf8 m.1) (Json.Value.map_cancel (fun _ => rfl) stringOf_utf8 m.2)
  have hadd (o : JsonObject ℤ) (m : String × Element ℤ) :
      o.add (stringOf (memberBytes m).1) ((memberBytes m).2.map id stringOf) = o.add m.1 m.2 := by
    rw [(Prod.mk.inj (hback m)).1, (Prod.mk.inj (hback m)).2]
  simp only [smallGson, parseBuffers_text hn h, List.foldl_map, hadd]

lemma scalar_utf8 (s : String) :
    Json.Scalar integers.value id (renderString (utf8 s)) (.string (utf8 s) : Item ℤ) :=
  Json.Scalar.string (chars_escapes (utf8 s))

lemma elements_utf8 (s : String) (l : List String) :
    Json.Elements (Json.Denotes integers.value id 0) (commas ((s :: l).map fun s => renderString (utf8 s)))
      ((s :: l).map fun s => .string (utf8 s)) := by
  induction l generalizing s with
  | nil => exact Json.Elements.single (scalar_utf8 s)
  | cons s' l ih => exact Json.Elements.comma (scalar_utf8 s) (ih s')

lemma plain_denotes {v : Element ℤ} (h : Plain smallGson v) :
    Json.Denotes integers.value id 1 (elementText v) (v.map id utf8) := by
  cases h with
  | string s =>
    rw [Value.map]
    exact Or.inl (scalar_utf8 s)
  | long i =>
    have hnumber := @Json.Scalar.number _ _ integers.value (id : Bytes → Bytes) _ (Json.isNumber_decimal i)
    rw [show integers.value (Json.decimal i) = i from integerValue_decimal i] at hnumber
    rw [Value.map]
    exact Or.inl hnumber
  | bool b =>
    rw [Value.map]
    cases b with
    | true => exact Or.inl Json.Scalar.true_
    | false => exact Or.inl Json.Scalar.false_
  | strings l =>
    rw [toJsonTree, Value.map, List.map_map]
    cases l with
    | nil => exact Or.inr (Json.Container.emptyArray Json.ws_nil)
    | cons s l =>
      have hleaf : leafText ∘ Value.string = fun s => renderString (utf8 s) := rfl
      have hvalue : (fun v => Value.map id utf8 v) ∘ Value.string = fun s => (.string (utf8 s) : Item ℤ) :=
        funext fun s => by rw [Function.comp_apply, Value.map]
      rw [elementText, List.map_map, hleaf, hvalue]
      exact Or.inr (Json.Container.array (elements_utf8 s l))

lemma member_denotes {m : String × Element ℤ} (h : Plain smallGson m.2) :
    Json.Member id (Json.Denotes integers.value id 1) (memberText m) (memberBytes m) := by
  have hmember := @Json.Member.compact _ _ id _ _ _ _ _ (chars_escapes (utf8 m.1)) (plain_denotes h)
  simpa [memberText, renderString, memberBytes] using hmember

lemma members_denote {m : String × Element ℤ} {ms : List (String × Element ℤ)}
    (h : ∀ b ∈ m :: ms, Plain smallGson b.2) :
    Json.Members id (Json.Denotes integers.value id 1) (commas ((m :: ms).map memberText))
      ((m :: ms).map memberBytes) := by
  induction ms generalizing m with
  | nil => exact Json.Members.last (member_denotes (h m (by simp)))
  | cons m' ms ih =>
    exact Json.Members.cons (member_denotes (h m (by simp))) (ih fun b hb => h b (List.mem_cons_of_mem m hb))

lemma smallGson_documented : smallGson.Documented integers where
  reads {n} hn {t ms} h := ⟨_, smallGson_reads hn h, fun name => get_foldl_add name ms⟩
  writes {o} h := by
    have hden : Json.Denotes integers.value id 2 (smallGson.toJson o) (.object (o.members.map memberBytes)) := by
      rw [smallGson]
      dsimp only
      cases hmembers : o.members with
      | nil => exact Or.inr (Json.Container.emptyObject Json.ws_nil)
      | cons m ms =>
        rw [hmembers] at h
        exact Or.inr (Json.Container.object (members_denote h))
    simpa using Json.Text.mk Json.ws_nil hden Json.ws_nil
  ofLong i := rfl
  intValue _ _ := rfl
  longValue _ _ := rfl

end Small

/-! ### What is read -/

section Reads

variable {D : Type} {dbl : Doubles D} {gson : Gson D} {members : List (Bytes × Item D)} {m : WsMessage}

/-- A component as an element. -/
def element (dbl : Doubles D) : Component → Option (Element D)
  | .string s => s.map .string
  | .strings l => l.map toJsonTree
  | .number i => some (.number (dbl.ofInt i))
  | .bool b => some (.bool b)

lemma element_value (c : Component) : (element dbl c).map (fun v => v.map id utf8) = c.value dbl := by
  cases c with
  | string s => cases s <;> simp [element, Component.value, Value.map]
  | strings l =>
    cases l with
    | none => rfl
    | some l => simp [element, Component.value, toJsonTree, Value.map, Function.comp_def]
  | number i => simp [element, Component.value, Value.map]
  | bool b => simp [element, Component.value, Value.map]

lemma utf8_name {c : String × Component} (hc : c ∈ components m) : utf8 c.1 = ascii c.1 := by
  have hnames : ∀ name ∈ (components m).map Prod.fst, utf8 name = ascii name := by
    cases m <;> simp only [components, List.map] <;> decide
  exact hnames _ (List.mem_map_of_mem hc)

/-- What Gson has under the name of a component. -/
structure Finds (dbl : Doubles D) (members : List (Bytes × Item D)) (m : WsMessage) (o : JsonObject D) : Prop where
  plain {c : String × Component} (hc : c ∈ components m) (hnull : (ascii c.1, .null) ∉ members) :
    o.get c.1 = element dbl c.2
  null {c : String × Component} (hc : c ∈ components m) (hnull : (ascii c.1, .null) ∈ members) :
    element dbl c.2 = none ∧ o.get c.1 = some .null

lemma Finds.present {o : JsonObject D} (h : Finds dbl members m o) {c : String × Component} (hc : c ∈ components m)
    {v : Element D} (hv : element dbl c.2 = some v) : o.get c.1 = some v := by
  by_cases hnull : (ascii c.1, .null) ∈ members
  · rw [(h.null hc hnull).1] at hv
    cases hv
  · rw [h.plain hc hnull, hv]

variable {o : JsonObject D} {name : String}

lemma read_some {α : Type} {accessor : Primitive D → Except Thrown α} {v : Element D} {p : Primitive D} {a : α}
    (h : o.get name = some v) (hp : primitive v = .ok p) (ha : accessor p = .ok a) :
    o.read accessor name = .ok (some a) := by
  rw [JsonObject.read, h]
  dsimp only
  rw [hp]
  change (accessor p).bind _ = _
  rw [ha]
  rfl

section Found

variable (h : Finds dbl members m o)
include h

lemma Finds.string {s : Option String} (hc : (name, .string s) ∈ components m)
    (hnull : (ascii name, .null) ∉ members) : o.read (asString gson) name = .ok s := by
  have hget := h.plain hc hnull
  cases s with
  | none =>
    rw [JsonObject.read, hget]
    rfl
  | some s => exact read_some hget (primitive_string _) rfl

lemma Finds.int (hgson : gson.Documented dbl) (hrange : InRange m) {i : ℤ} (hc : (name, .number i) ∈ components m)
    (hname : name ∈ intNames) : o.read (asInt gson) name = .ok (some i) := by
  obtain ⟨hmin, hmax⟩ := (hrange _ hc i rfl).2 hname
  exact read_some (h.present hc rfl) (primitive_number _) (congrArg _ (hgson.intValue hmin hmax))

lemma Finds.long (hgson : gson.Documented dbl) (hrange : InRange m) {i : ℤ} (hc : (name, .number i) ∈ components m) :
    o.read (asLong gson) name = .ok (some i) := by
  obtain ⟨hmin, hmax⟩ := (hrange _ hc i rfl).1
  exact read_some (h.present hc rfl) (primitive_number _) (congrArg _ (hgson.longValue hmin hmax))

lemma Finds.bool {b : Bool} (hc : (name, .bool b) ∈ components m) :
    o.read (asBoolean gson) name = .ok (some b) :=
  read_some (h.present hc rfl) (primitive_bool _) rfl

lemma Finds.strings {l : List String} (hc : (name, .strings (some l)) ∈ components m) :
    o.readStrings gson name = .ok (some l) := by
  have hall : (l.map (Value.string (D := D))).mapM (fun v => do
      let p ← primitive v
      asString gson p) = Except.ok l := by
    clear hc
    induction l with
    | nil => rfl
    | cons s l ih =>
      rw [List.map_cons, List.mapM_cons, primitive_string]
      change Except.bind (List.mapM _ _) _ = _
      rw [ih]
      rfl
  rw [JsonObject.readStrings, h.present hc rfl]
  change Except.bind (List.mapM _ _) _ = _
  rw [hall]
  rfl

end Found

/-! ### What the phone makes of it -/

variable {P : Prims} {lib : Lib} {store : Store} {platform : Phone.Platform} {aesKey : Bytes}

section Handlers

end Handlers

/-- A file that is offered to the phone. -/
def offered : FileNotify := ⟨"f", some "a.png", none, 4, none, "d", [], "", 9, 0, 3⟩

end Reads

/-! ### What is sent -/

section Sends

variable {D : Type} {dbl : Doubles D} {gson : Gson D} {m : WsMessage}

/-- The messages that the phone builds. -/
inductive Builds : WsMessage → Prop
  | clipboard (encrypted : String) : Builds (.clipboard ⟨none, some encrypted, none⟩)
  | fileOffer (fileId fileName mime : String) (fileSize : ℤ) (imgHash : String) (addrs : List String) :
    Builds (.fileOffer ⟨none, some fileId, some fileName, some mime, fileSize, some imgHash, some addrs⟩)
  | fileRequest (fileId : String) (addrs : List String) : Builds (.fileRequest ⟨none, some fileId, some addrs⟩)
  | needRelay (fileId : String) : Builds (.fileRelay ⟨none, some fileId, 0, none, none⟩)
  | relayData (fileId : String) (fileSize : ℤ) (target b64 : String) :
    Builds (.fileRelay ⟨none, some fileId, fileSize, some target, some b64⟩)
  | transferResult (fileId method : String) (connectionMs transferMs : ℤ) :
    Builds (.fileTransferResult ⟨some fileId, some method, true, connectionMs, transferMs⟩)

lemma foldl_add {build : List (String × Element D)} {o : JsonObject D}
    (h : ((o.members ++ build).map Prod.fst).Nodup) :
    (build.foldl (fun o m => o.add m.1 m.2) o).members = o.members ++ build := by
  induction build generalizing o with
  | nil => simp
  | cons m build ih =>
    have hnew : m.1 ∉ o.members.map Prod.fst := by
      rw [List.map_append, List.nodup_append] at h
      exact fun hmem => h.2.2 _ hmem m.1 (by simp) rfl
    have hadd : (o.add m.1 m.2).members = o.members ++ [m] := by rw [JsonObject.add, dif_neg hnew]
    rw [List.foldl_cons, ih (by rw [hadd]; simpa using h), hadd]
    simp

/-- The elements of some components. -/
def elements (dbl : Doubles D) (cs : List (String × Component)) : List (String × Element D) :=
  cs.filterMap fun c => (element dbl c.2).map fun v => (c.1, v)

lemma elements_bytes {cs : List (String × Component)} (hsub : cs ⊆ components m) :
    (elements dbl cs).map memberBytes = fields dbl cs := by
  rw [elements, fields, List.map_filterMap]
  refine List.filterMap_congr fun c hc => ?_
  rw [← element_value, Option.map_map, Option.map_map]
  cases element dbl c.2 with
  | none => rfl
  | some v => simp [memberBytes, utf8_name (hsub hc)]

/-- A message with some of the components, the others of which are missing for a reason. -/
lemma message_text (hgson : gson.Documented dbl) {cs : List (String × Component)} (hsub : cs ⊆ components m)
    (hrest : ∀ c ∈ components m, c ∉ cs → c.2.IsDefault) {build : List (String × Element D)}
    (hbuild : ("type", .string m.type) :: build = elements dbl cs)
    (hnames : ("type" :: build.map Prod.fst).Nodup) (hplain : ∀ b ∈ build, Plain gson b.2) :
    ∃ members, Json.Text dbl.value id 2 (message gson m.type build) (.object members) ∧ Binds dbl members m := by
  obtain ⟨o, hadd, hmembers⟩ : ∃ o, build.foldl (fun o m => o.add m.1 m.2)
      (JsonObject.add "type" (.string m.type) ⟨[], by simp⟩) = o ∧
      o.members = ("type", .string m.type) :: build := by
    have htype : (JsonObject.add "type" (.string m.type) (⟨[], by simp⟩ : JsonObject D)).members =
        [("type", .string m.type)] := by simp [JsonObject.add]
    refine ⟨_, rfl, ?_⟩
    rw [foldl_add (by rw [htype]; simpa using hnames), htype, List.singleton_append]
  have hobject : ∀ b ∈ o.members, Plain gson b.2 := by
    rw [hmembers]
    intro b hb
    rcases List.mem_cons.mp hb with rfl | hb
    · exact .string _
    · exact hplain b hb
  refine ⟨fields dbl cs, ?_, binds_fields hsub hrest⟩
  have htext := hgson.writes hobject
  rw [hmembers, hbuild, elements_bytes hsub] at htext
  rw [message, hadd]
  exact htext

/-- **The text of a message that the phone builds is JSON, and the server finds the message in it.** -/
lemma builds_text (hgson : gson.Documented dbl) (h : Builds m) :
    ∃ t members, sentText gson m = some t ∧ Json.Text dbl.value id 2 t (.object members) ∧
      Binds dbl members m := by
  suffices hbuild : ∃ cs build, cs ⊆ components m ∧ (∀ c ∈ components m, c ∉ cs → c.2.IsDefault) ∧
      ("type", .string m.type) :: build = elements dbl cs ∧ ("type" :: build.map Prod.fst).Nodup ∧
      (∀ b ∈ build, Plain gson b.2) ∧ sentText gson m = some (message gson m.type build) by
    obtain ⟨cs, build, hsub, hrest, helements, hnames, hplain, htext⟩ := hbuild
    obtain ⟨members, hmembers, hbinds⟩ := message_text hgson hsub hrest helements hnames hplain
    exact ⟨_, members, htext, hmembers, hbinds⟩
  have hlong : ∀ i, Plain gson (.number (dbl.ofInt i)) := fun i => hgson.ofLong i ▸ .long i
  cases h with
  | clipboard encrypted =>
    refine ⟨[("type", .string (some "clipboard")), ("content", .string (some encrypted))],
      [("content", .string encrypted)], by simp [components], ?_, rfl, by simp, ?_, rfl⟩
    · simp [components, Component.IsDefault]
    · simp [Plain.string]
  | fileOffer fileId fileName mime fileSize imgHash addrs =>
    refine ⟨components _, [("fileId", .string fileId), ("fileName", .string fileName), ("mimeType", .string mime),
        ("fileSize", .number (dbl.ofInt fileSize)), ("checksum", .string imgHash),
        ("localAddresses", toJsonTree addrs)],
      List.Subset.refl _, fun c hc hno => absurd hc hno, rfl, by simp, ?_, ?_⟩
    · simp [Plain.string, Plain.strings, hlong]
    · rw [sentText, fileOfferText, hgson.ofLong]
      rfl
  | fileRequest fileId addrs =>
    refine ⟨components _, [("fileId", .string fileId), ("localAddresses", toJsonTree addrs)],
      List.Subset.refl _, fun c hc hno => absurd hc hno, rfl, by simp, ?_, rfl⟩
    simp [Plain.string, Plain.strings]
  | needRelay fileId =>
    refine ⟨[("type", .string (some "file_relay")), ("fileId", .string (some fileId))],
      [("fileId", .string fileId)], by simp [components], ?_, rfl, by simp, ?_, rfl⟩
    · simp [components, Component.IsDefault]
    · simp [Plain.string]
  | relayData fileId fileSize target b64 =>
    refine ⟨components _, [("fileId", .string fileId), ("fileSize", .number (dbl.ofInt fileSize)),
        ("targetDevice", .string target), ("data", .string b64)],
      List.Subset.refl _, fun c hc hno => absurd hc hno, rfl, by simp, ?_, ?_⟩
    · simp [Plain.string, hlong]
    · simp only [sentText, relayDataText, hgson.ofLong]
      rfl
  | transferResult fileId method connectionMs transferMs =>
    refine ⟨components _, [("fileId", .string fileId), ("method", .string method), ("success", .bool true),
        ("connectionMs", .number (dbl.ofInt connectionMs)), ("transferMs", .number (dbl.ofInt transferMs))],
      List.Subset.refl _, fun c hc hno => absurd hc hno, rfl, by simp, ?_, ?_⟩
    · simp [Plain.string, Plain.bool, hlong]
    · rw [sentText, transferResultText, hgson.ofLong, hgson.ofLong]
      rfl

/-! ### The steps of the phone -/

/-- What is sent is what the phone builds. -/
def AllBuilt (ds : List Did) : Prop := ∀ m, .send m ∈ ds → Builds m

variable {lib : Lib} {store : Store} {platform : Phone.Platform} {r : Phone.Reading} {p : Phone.State}

lemma allBuilt_nil : AllBuilt [] := fun m hm => by cases hm

lemma allBuilt_one {m : WsMessage} (h : Builds m) : AllBuilt [.send m] := by
  intro m' hm'
  obtain rfl : m' = m := by simpa using hm'
  exact h

lemma allBuilt_placed (d : Did) (hd : ∀ m, d ≠ .send m) {m : WsMessage} (h : Builds m) :
    AllBuilt ([d] ++ [.send m]) := by
  intro m' hm'
  rcases List.mem_append.mp hm' with hm' | hm'
  · exact absurd (List.mem_singleton.mp hm').symm (hd m')
  · exact allBuilt_one h m' hm'

lemma sendText_built (text : String) : AllBuilt (Phone.sendText platform r text p).2 := by
  unfold Phone.sendText
  dsimp only
  split_ifs
  · exact allBuilt_nil
  · cases r.encrypt text with
    | none => exact allBuilt_nil
    | some encrypted => exact allBuilt_one (.clipboard encrypted)

lemma sendImage_built (data : Bytes) (mime : String) : AllBuilt (Phone.sendImage lib r data mime p).2 := by
  unfold Phone.sendImage
  dsimp only
  split_ifs
  · exact allBuilt_nil
  · exact allBuilt_one (.fileOffer _ _ _ _ _ _)

lemma sendClipboardFromExternal_built (text : String) :
    AllBuilt (Phone.sendClipboardFromExternal platform r text p).2 := by
  unfold Phone.sendClipboardFromExternal
  split_ifs
  · exact allBuilt_nil
  · exact sendText_built text

lemma sendImageFromExternal_built (data : Bytes) (mime : String) :
    AllBuilt (Phone.sendImageFromExternal lib r data mime p).2 := by
  unfold Phone.sendImageFromExternal
  split_ifs
  · exact allBuilt_nil
  · exact sendImage_built data mime

lemma forwardToClipboardService_built (text : String) :
    AllBuilt (Phone.forwardToClipboardService platform r text p).2 := by
  unfold Phone.forwardToClipboardService
  dsimp only
  split_ifs
  · exact allBuilt_nil
  · exact sendClipboardFromExternal_built text

lemma serviceChanged_built : AllBuilt (Phone.serviceChanged lib store platform r p).2 := by
  unfold Phone.serviceChanged
  split_ifs
  · exact allBuilt_nil
  · exact allBuilt_nil
  · cases Phone.primaryClip r p with
    | none => exact allBuilt_nil
    | some clip =>
      dsimp only
      cases hcheck : Phone.checkAndSendImageClipboard lib store r clip p with
      | some next =>
        unfold Phone.checkAndSendImageClipboard at hcheck
        split_ifs at hcheck
        split at hcheck
        · cases hcheck
        · split_ifs at hcheck
          obtain rfl := Option.some.inj hcheck
          exact sendImage_built _ _
      | none =>
        dsimp only
        split
        · exact allBuilt_nil
        · exact sendText_built _

lemma readSelectedOrLaunch_built : AllBuilt (Phone.readSelectedOrLaunch platform r p).2 := by
  unfold Phone.readSelectedOrLaunch
  split
  · exact forwardToClipboardService_built _
  · exact allBuilt_nil

lemma accessibilityChanged_built : AllBuilt (Phone.accessibilityChanged lib platform r p).2 := by
  unfold Phone.accessibilityChanged
  split
  · exact allBuilt_nil
  · exact readSelectedOrLaunch_built
  · split
    · exact forwardToClipboardService_built _
    · unfold Phone.forwardImageToClipboardService
      split
      · exact sendImageFromExternal_built _ _
      · exact allBuilt_nil
    · exact readSelectedOrLaunch_built

lemma announcementPost_built : AllBuilt (Phone.announcementPost platform r p).2 := by
  unfold Phone.announcementPost
  split
  · exact forwardToClipboardService_built _
  · split
    · exact forwardToClipboardService_built _
    · exact allBuilt_nil

lemma readClipboard_built : AllBuilt (Phone.readClipboard lib platform r p).2 := by
  unfold Phone.readClipboard
  split
  · exact allBuilt_nil
  · split
    · exact sendImageFromExternal_built _ _
    · split
      · exact sendClipboardFromExternal_built _
      · exact allBuilt_nil

lemma message_built (localAddresses : List String) (m : WsMessage) (c : Service) :
    AllBuilt (Android.handleMessage lib store localAddresses m c).2 := by
  unfold Android.handleMessage
  split
  · exact allBuilt_nil
  · unfold Android.handleFileNotify
    split_ifs
    · exact allBuilt_nil
    · exact allBuilt_one (.fileRequest _ _)
  · unfold Android.handleFilePeerInfo
    split
    · exact allBuilt_nil
    · split_ifs
      · exact allBuilt_nil
      · exact allBuilt_nil
  · unfold Android.handleFileRelayRequest
    split
    · exact allBuilt_nil
    · split
      · exact allBuilt_nil
      · exact allBuilt_one (.relayData _ _ _ _)
  · unfold Android.handleFileRelayData
    split
    · exact allBuilt_nil
    · exact allBuilt_nil
  · exact allBuilt_nil

lemma service_built (e : Android.Event) (c : Service) : AllBuilt (Android.step lib store c e).2 := by
  cases e with
  | message localAddresses m => exact message_built localAddresses m c
  | image addrs fileId mime data => exact allBuilt_one (.fileOffer _ _ _ _ _ _)
  | transferEnd i a =>
    rw [Android.step, transferEnd]
    cases c.transfers[i]? with
    | none => exact allBuilt_nil
    | some state =>
      dsimp only
      by_cases hsender : state.isSender = true
      · rw [if_pos hsender]
        exact allBuilt_nil
      · rw [if_neg hsender]
        cases received store a with
        | some r => exact allBuilt_nil
        | none =>
          dsimp only
          split_ifs
          · exact allBuilt_one (.needRelay _)
          · exact allBuilt_nil
  | relayEnd i written =>
    rw [Android.step, relayEnd]
    cases c.relayed[i]? with
    | none => exact allBuilt_nil
    | some r =>
      dsimp only
      cases lib.base64Decode r.b64Data with
      | none => exact allBuilt_nil
      | some data =>
        dsimp only
        split_ifs
        · exact allBuilt_nil
        · exact allBuilt_nil
  | post main =>
    rw [Android.step, onFileReceived]
    cases c.posted with
    | nil => exact allBuilt_nil
    | cons r posted =>
      dsimp only
      split_ifs
      · exact allBuilt_nil
      · exact allBuilt_placed (.setImage _ _) (by simp) (.transferResult _ _ _ _)
      · exact allBuilt_placed (.setFile _ _) (by simp) (.transferResult _ _ _ _)
  | cleanup => exact allBuilt_nil

/-- **Every step of the phone** sends what the phone builds. -/
lemma step_built (p : Phone.State) (e : Phone.Event) : AllBuilt (Phone.step lib store platform p e).2 := by
  cases e with
  | copy clip => exact allBuilt_nil
  | text plaintext => exact allBuilt_nil
  | transfer e =>
    cases e with
    | image addrs fileId mime data => exact allBuilt_nil
    | _ => exact service_built _ _
  | state x => exact allBuilt_nil
  | announcement => exact allBuilt_nil
  | serviceCall r =>
    rw [Phone.step]
    split_ifs
    · exact allBuilt_nil
    · exact serviceChanged_built
  | accessibilityCall r =>
    rw [Phone.step]
    split_ifs
    · exact allBuilt_nil
    · exact accessibilityChanged_built
  | reader r =>
    rw [Phone.step]
    split_ifs
    · exact allBuilt_nil
    · exact readClipboard_built
  | announced r =>
    rw [Phone.step]
    split_ifs
    · exact allBuilt_nil
    · exact announcementPost_built

/-- **Every message of the phone reaches the server as it is.** In every run, the text of each message that
the phone sends is JSON, and the server finds the message in it and no other. -/
theorem phone_sends (hgson : gson.Documented dbl) (hdbl : Exact dbl) {p : Phone.State} {es : List Phone.Event}
    (hsend : .send m ∈ Run.outs (Phone.step lib store platform) p es) (hsmall : ShortNumbers m) :
    ∃ t members, sentText gson m = some t ∧ Json.Text dbl.value id 2 t (.object members) ∧
      ∀ m', ShortNumbers m' → (Binds dbl members m' ↔ m' = m) := by
  obtain ⟨pre, e, post, rfl, hmem⟩ := Run.mem_outs.mp hsend
  obtain ⟨t, members, htext, hmembers, hbinds⟩ := builds_text hgson (step_built _ e m hmem)
  exact ⟨t, members, htext, hmembers, fun m' hsmall' => binds_iff hdbl hbinds hsmall hsmall'⟩

/-- The report on an image that was received. -/
theorem phone_sends_result : ∃ t members,
    sentText smallGson (.fileTransferResult ⟨some "", some "lan", true, 1, 1⟩) = some t ∧
      Json.Text integers.value id 2 t (.object members) ∧
      ∀ m', ShortNumbers m' →
        (Binds integers members m' ↔ m' = .fileTransferResult ⟨some "", some "lan", true, 1, 1⟩) := by
  have hsend : Did.send (.fileTransferResult ⟨some "", some "lan", true, 1, 1⟩) ∈
      Run.outs (Phone.step Reoffer.pngLib Reoffer.bothLevels Reoffer.pngPlatform) (Reoffer.ready "")
        [.transfer (.post ⟨true, false⟩)] := by decide
  exact phone_sends smallGson_documented exact_integers hsend (by simp [ShortNumbers, components])

end Sends

end SyncClipboard.PhoneMessages
