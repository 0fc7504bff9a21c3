import SyncClipboard.CJsonRoundTrip
import SyncClipboard.CString
import SyncClipboard.Client

/-!
The messages of the protocol as JSON texts.

The components of a record of the server are its members under their own names, and those that are
`null` are left out, or written as `null`. A client builds its messages item by item, and reads a frame by looking for the
members it needs. `sent_binds`: the text a client builds is JSON, and the server finds in it the
components of the message. `frame_read`: from any JSON text of a frame the clients read its components.
-/

namespace SyncClipboard.Messages

open FtAuth CString CJson ServerModel
open Crypto (cString cString_eq)
open Json (Value)

/-! ### The components of a record -/

inductive Component
  | string (s : Option String)
  | strings (l : Option (List String))
  | number (i : ℤ)
  | bool (b : Bool)

def components : WsMessage → List (String × Component)
  | .hello => [("type", .string (some "hello"))]
  | .helloAck m => [("type", .string (some "hello_ack")), ("v", .number m.v),
      ("accepted", .strings (some m.accepted)), ("serverFileLevel", .number m.serverFileLevel),
      ("udpPort", .number m.udpPort), ("maxRelaySize", .number m.maxRelaySize),
      ("maxClipboardBytes", .number m.maxClipboardBytes)]
  | .clipboard m => [("type", .string (some "clipboard")), ("msgId", .string m.msgId),
      ("content", .string m.content), ("from", .string m.sender)]
  | .fileOffer m => [("type", .string (some "file_offer")), ("msgId", .string m.msgId),
      ("fileId", .string m.fileId), ("fileName", .string m.fileName), ("mimeType", .string m.mimeType),
      ("fileSize", .number m.fileSize), ("checksum", .string m.checksum),
      ("localAddresses", .strings m.localAddresses)]
  | .fileNotify m => [("type", .string (some "file_notify")), ("fileId", .string (some m.fileId)),
      ("fileName", .string m.fileName), ("mimeType", .string m.mimeType), ("fileSize", .number m.fileSize),
      ("checksum", .string m.checksum), ("from", .string (some m.sender)),
      ("sourceLocalAddresses", .strings (some m.sourceLocalAddresses)),
      ("sourcePublicAddress", .string (some m.sourcePublicAddress)), ("maxRelaySize", .number m.maxRelaySize),
      ("udpPort", .number m.udpPort), ("fileTransferLevel", .number m.fileTransferLevel)]
  | .fileRequest m => [("type", .string (some "file_request")), ("msgId", .string m.msgId),
      ("fileId", .string m.fileId), ("localAddresses", .strings m.localAddresses)]
  | .filePeerInfo m => [("type", .string (some "file_peer_info")), ("fileId", .string (some m.fileId)),
      ("peerId", .string (some m.peerId)), ("peerLocalAddresses", .strings (some m.peerLocalAddresses)),
      ("peerPublicAddress", .string (some m.peerPublicAddress)), ("sameLan", .bool m.sameLan),
      ("role", .string (some m.role)), ("fileTransferLevel", .number m.fileTransferLevel)]
  | .fileRelay m => [("type", .string (some "file_relay")), ("msgId", .string m.msgId),
      ("fileId", .string m.fileId), ("fileSize", .number m.fileSize), ("targetDevice", .string m.targetDevice),
      ("data", .string m.data)]
  | .fileRelayData m => [("type", .string (some "file_relay_data")), ("fileId", .string (some m.fileId)),
      ("fileName", .string m.fileName), ("mimeType", .string m.mimeType), ("fileSize", .number m.fileSize),
      ("checksum", .string m.checksum), ("data", .string m.data), ("from", .string (some m.sender))]
  | .fileRelayRequest m => [("type", .string (some "file_relay_request")),
      ("fileId", .string (some m.fileId)), ("requesterId", .string (some m.requesterId))]
  | .fileTransferResult m => [("type", .string (some "file_transfer_result")), ("fileId", .string m.fileId),
      ("method", .string m.method), ("success", .bool m.success), ("connectionMs", .number m.connectionMs),
      ("transferMs", .number m.transferMs)]
  | .error m => [("type", .string (some "error")), ("code", .string (some m.code)),
      ("message", .string (some m.message)), ("retryable", .bool m.retryable)]
  | .ping ts => [("type", .string (some "ping")), ("ts", .number ts)]
  | .pong ts => [("type", .string (some "pong")), ("ts", .number ts)]

section Program

variable {D : Type} (dbl : Doubles D)

def Component.value : Component → Option (Item D)
  | .string s => s.map fun s => .string (utf8 s)
  | .strings l => l.map fun l => .array (l.map fun s => .string (utf8 s))
  | .number i => some (.number (dbl.ofInt i))
  | .bool b => some (.bool b)

/-! ### The messages the clients build -/

/-- `cJSON_AddStringToObject`, which adds nothing for `NULL`. -/
def addString (name : String) (s : Option Bytes) : List (Bytes × Item D) :=
  s.elim [] fun s => [(ascii name, .string s)]

def addNumber (name : String) (d : D) : List (Bytes × Item D) := [(ascii name, .number d)]

def addBool (name : String) (b : Bool) : List (Bytes × Item D) := [(ascii name, .bool b)]

/-- `cJSON_AddArrayToObject`, with a string for each address. -/
def addStrings (name : String) (l : List Bytes) : List (Bytes × Item D) :=
  [(ascii name, .array (l.map .string))]

def buildClipboardMsg (enc : Bytes) : Item D :=
  .object (addString "type" (ascii "clipboard") ++ addString "content" enc)

def buildFileOffer (fid fname mime : Bytes) (fsize : ℤ) (cksum : Bytes) (addrs : List Bytes) : Item D :=
  .object (addString "type" (ascii "file_offer") ++ addString "fileId" fid ++ addString "fileName" fname ++
    addString "mimeType" mime ++ addNumber "fileSize" (dbl.ofInt fsize) ++ addString "checksum" cksum ++
    addStrings "localAddresses" addrs)

def buildFileRequest (fid : Option Bytes) (addrs : List Bytes) : Item D :=
  .object (addString "type" (ascii "file_request") ++ addString "fileId" fid ++
    addStrings "localAddresses" addrs)

def buildFileRelayRequest (fid : Bytes) : Item D :=
  .object (addString "type" (ascii "file_relay") ++ addString "fileId" fid)

/-- The data in Base64, if there is memory for it. -/
def buildFileRelayData (fid : Bytes) (b64 : Option Bytes) (fsize : ℤ) (target : Bytes) : Item D :=
  .object (addString "type" (ascii "file_relay") ++ addString "fileId" fid ++
    addNumber "fileSize" (dbl.ofInt fsize) ++ addString "targetDevice" target ++ addString "data" b64)

def buildTransferResult (fid : Option Bytes) (method : Bytes) (success : Bool) (connMs xferMs : ℤ) : Item D :=
  .object (addString "type" (ascii "file_transfer_result") ++ addString "fileId" fid ++
    addString "method" method ++ addBool "success" success ++ addNumber "connectionMs" (dbl.ofInt connMs) ++
    addNumber "transferMs" (dbl.ofInt xferMs))

/-- `sc_msg_build`, given what the object has already. -/
def scMsgBuild (type : Bytes) (body : List (Bytes × Item D)) : Item D :=
  .object (body ++ addString "type" type ++ addNumber "v" (dbl.ofInt 2))

def scMsgHello (clientType deviceId appVersion : Option Bytes) : Item D :=
  scMsgBuild dbl (ascii "hello") (addString "clientType" clientType ++ addString "deviceId" deviceId ++
    addString "appVersion" appVersion ++
    addStrings "capabilities" [ascii "clipboard", ascii "file_lan", ascii "file_nat", ascii "file_relay"])

/-! ### What the clients read of a frame -/

def toLower (c : UInt8) : UInt8 := if 0x41 ≤ c ∧ c ≤ 0x5A then c + 0x20 else c

/-- `cJSON_GetObjectItem`: the first member with the name in any case. -/
def getObjectItem (name : String) : Item D → Option (Item D)
  | .object members =>
    (members.find? fun m => m.1.map toLower == (ascii name).map toLower).map Prod.snd
  | _ => none

def getStringValue : Option (Item D) → Option Bytes
  | some (.string s) => some s
  | _ => none

/-- `cJSON_GetNumberValue`, as an integer; what is no number is not one. -/
def getNumberValue : Option (Item D) → Option ℤ
  | some (.number d) => some (dbl.toInt d)
  | _ => none

def isTrue : Option (Item D) → Bool
  | some (.bool b) => b
  | _ => false

/-- The elements of an array as strings; `none` if it is no array. -/
def getStrings : Option (Item D) → Option (List (Option Bytes))
  | some (.array items) => some (items.map fun v => getStringValue (some v))
  | _ => none

/-- What the branches of the callback read. -/
inductive Read
  | helloAck (serverFileLevel : Option ℤ)
  | clipboard (content : Option Bytes)
  | fileNotify (fid fn mt ck fr : Option Bytes) (fileSize maxRelaySize udpPort : Option ℤ)
  | filePeerInfo (fid role pub : Option Bytes) (addrs : Option (List (Option Bytes)))
      (level : Option (Option ℤ)) (sameLan : Bool)
  | fileRelayRequest (requester : Option Bytes)
  | fileRelayData (fid fn mt b64 : Option Bytes)
  | error (message : Option Bytes)
  | ignored
  deriving DecidableEq

/-- `LWS_CALLBACK_CLIENT_RECEIVE`, on the text of a message; `none` if it has no type. -/
def receive (platform : Client.Platform) (data : Bytes) : Option Read :=
  match parse dbl.value data with
  | none => none
  | some j =>
    let string (name : String) := getStringValue (getObjectItem name j)
    let number (name : String) := getNumberValue dbl (getObjectItem name j)
    match string "type" with
    | none => none
    | some type =>
      some (
        if type = ascii "hello_ack" then
          .helloAck (if (getObjectItem "serverFileLevel" j).isSome then number "serverFileLevel" else some 3)
        else if type = ascii "clipboard" then .clipboard (string "content")
        else if type = ascii "file_notify" then
          .fileNotify (string "fileId") (string "fileName") (string "mimeType") (string "checksum")
            (string "from") (number "fileSize") (number "maxRelaySize") (number "udpPort")
        else if type = ascii "file_peer_info" then
          .filePeerInfo (string "fileId") (string "role") (string "peerPublicAddress")
            (getStrings (getObjectItem "peerLocalAddresses" j))
            ((getObjectItem "fileTransferLevel" j).map fun v => getNumberValue dbl (some v))
            (isTrue (getObjectItem "sameLan" j))
        else if type = ascii "file_relay_request" then .fileRelayRequest (string "requesterId")
        else if type = ascii "file_relay_data" then
          .fileRelayData (string "fileId") (string "fileName") (string "mimeType") (string "data")
        else if type = ascii "error" ∧ platform = .linux then .error (string "message")
        else .ignored)

/-! ### What is to be shown -/

/-- A missing component gets this value. -/
def Component.IsDefault : Component → Prop
  | .string s => s = none
  | .strings l => l = none
  | .number i => i = 0
  | .bool b => b = false

/-- The server finds the components of the message in the members, whatever else there is. -/
structure Binds (members : List (Bytes × Item D)) (m : WsMessage) : Prop where
  found : ∀ c ∈ components m, ∀ v, (ascii c.1, v) ∈ members → c.2.value dbl = some v
  missing : ∀ c ∈ components m, (∀ v, (ascii c.1, v) ∉ members) → c.2.IsDefault

/-- The members are the components in any order, and each at least once if it is not `null`. One that is
`null` may be written too, as the server does with a text out of its cache. -/
structure Written (members : List (Bytes × Item D)) (m : WsMessage) : Prop where
  component : ∀ a ∈ members, ∃ c ∈ components m, a.1 = ascii c.1 ∧ a.2 = (c.2.value dbl).getD .null
  written : ∀ c ∈ components m, ∀ v, c.2.value dbl = some v → (ascii c.1, v) ∈ members

/-- The calls of the builders with strings in UTF-8, and the messages they build. -/
inductive Built : Item D → WsMessage → Prop
  | hello {clientType deviceId appVersion : Option String}
    (h0 : ∀ s ∈ [clientType, deviceId, appVersion], ∀ t ∈ s, '\x00' ∉ t.toList) :
    Built (scMsgHello dbl (clientType.map utf8) (deviceId.map utf8) (appVersion.map utf8)) .hello
  | clipboard (enc : String) : Built (buildClipboardMsg (utf8 enc)) (.clipboard ⟨none, some enc, none⟩)
  | fileOffer (fid fname mime : String) (fsize : ℤ) (cksum : String) (addrs : List String) :
    Built (buildFileOffer dbl (utf8 fid) (utf8 fname) (utf8 mime) fsize (utf8 cksum) (addrs.map utf8))
      (.fileOffer ⟨none, some fid, some fname, some mime, fsize, some cksum, some addrs⟩)
  | fileRequest (fid : Option String) (addrs : List String) :
    Built (buildFileRequest (fid.map utf8) (addrs.map utf8)) (.fileRequest ⟨none, fid, some addrs⟩)
  | fileRelayRequest (fid : String) :
    Built (buildFileRelayRequest (utf8 fid)) (.fileRelay ⟨none, some fid, 0, none, none⟩)
  | fileRelayData (fid : String) (b64 : Option String) (fsize : ℤ) (target : String) :
    Built (buildFileRelayData dbl (utf8 fid) (b64.map utf8) fsize (utf8 target))
      (.fileRelay ⟨none, some fid, fsize, some target, b64⟩)
  | transferResult (fid : Option String) (method : String) (success : Bool) (connMs xferMs : ℤ) :
    Built (buildTransferResult dbl (fid.map utf8) (utf8 method) success connMs xferMs)
      (.fileTransferResult ⟨fid, some method, success, connMs, xferMs⟩)

/-- What a string of a frame is to a client. -/
def cut (s : String) : Bytes := cString (utf8 s)

end Program

/-! ### Names -/

lemma names_nodup (m : WsMessage) : ((components m).map fun c => (ascii c.1).map toLower).Nodup := by
  cases m <;> simp only [components, List.map] <;> decide

/-- A name stands for one component, in whatever case. -/
lemma component_unique {m : WsMessage} {c c' : String × Component} (hc : c ∈ components m)
    (hc' : c' ∈ components m) (h : (ascii c.1).map toLower = (ascii c'.1).map toLower) : c = c' :=
  List.inj_on_of_nodup_map (names_nodup m) hc hc' h

lemma names_ne_zero (m : WsMessage) : ∀ c ∈ components m, 0 ∉ ascii c.1 := by
  have hnames : ∀ n ∈ (components m).map fun c => ascii c.1, (0 : UInt8) ∉ n := by
    cases m <;> simp only [components, List.map] <;> decide
  exact fun c hc => hnames _ (List.mem_map_of_mem hc)

/-! ### Frames -/

section Frames

variable {D : Type} {dbl : Doubles D} {members : List (Bytes × Item D)} {m : WsMessage}

/-- What the parser makes of the members of a text. -/
def parsedMembers (members : List (Bytes × Item D)) : List (Bytes × Item D) :=
  members.map fun a => (cString a.1, a.2.map id cString)

/-- A member under the name of a component is that component. -/
lemma Written.same (h : Written dbl members m) {c : String × Component} (hc : c ∈ components m)
    {a : Bytes × Item D} (ha : a ∈ members) (hname : (cString a.1).map toLower = (ascii c.1).map toLower) :
    a.2 = (c.2.value dbl).getD .null := by
  obtain ⟨c', hc', hkey, hvalue⟩ := h.component a ha
  rw [hkey, cString_eq (names_ne_zero m c' hc')] at hname
  rw [component_unique hc hc' hname.symm]
  exact hvalue

/-- A client that looks for a component finds nothing but that component. -/
lemma getObjectItem_found (h : Written dbl members m) {c : String × Component} (hc : c ∈ components m)
    {v : Item D} (hv : getObjectItem c.1 (.object (parsedMembers members)) = some v) :
    v = ((c.2.value dbl).getD .null).map id cString := by
  rw [getObjectItem, parsedMembers, List.find?_map, Option.map_map] at hv
  obtain ⟨a, hfind, rfl⟩ := Option.map_eq_some_iff.mp hv
  have hname := List.find?_some hfind
  rw [← h.same hc (List.mem_of_find?_eq_some hfind) (by simpa using hname)]
  rfl

lemma getObjectItem_value (h : Written dbl members m) {c : String × Component} (hc : c ∈ components m)
    {v : Item D} (hv : c.2.value dbl = some v) :
    getObjectItem c.1 (.object (parsedMembers members)) = some (v.map id cString) := by
  cases hget : getObjectItem c.1 (.object (parsedMembers members)) with
  | some v' => rw [getObjectItem_found h hc hget, hv, Option.getD_some]
  | none =>
    rw [getObjectItem, parsedMembers, List.find?_map, Option.map_map, Option.map_eq_none_iff] at hget
    have hno := List.find?_eq_none.mp hget _ (h.written c hc v hv)
    simp [cString_eq (names_ne_zero m c hc)] at hno

/-- The doubles are exact on integers of up to fifteen digits. -/
structure Exact (dbl : Doubles D) : Prop where
  isFinite {i : ℤ} (hi : i.natAbs < 10 ^ 15) : dbl.isFinite (dbl.ofInt i) = true
  value {i : ℤ} (hi : i.natAbs < 10 ^ 15) : dbl.value (Json.decimal i) = dbl.ofInt i
  toInt {i : ℤ} (hi : i.natAbs < 10 ^ 15) : dbl.toInt (dbl.ofInt i) = i
  le {i j : ℤ} (hi : i.natAbs < 10 ^ 15) (hj : j.natAbs < 10 ^ 15) :
    dbl.le (dbl.ofInt i) (dbl.ofInt j) = decide (i ≤ j)
  eq {i j : ℤ} (hi : i.natAbs < 10 ^ 15) (hj : j.natAbs < 10 ^ 15) :
    dbl.eq (dbl.ofInt i) (dbl.ofInt j) = decide (i = j)
  g {i : ℤ} (hi : i.natAbs < 10 ^ 15) : dbl.g 15 (dbl.ofInt i) = Json.decimal i
  compareDouble (d : D) : dbl.compareDouble d d = true

lemma exact_integers : Exact integers where
  isFinite _ := rfl
  value _ := integerValue_decimal _
  toInt _ := rfl
  le _ _ := rfl
  eq _ _ := rfl
  g _ := rfl
  compareDouble _ := decide_eq_true rfl

/-- The numbers of a message have at most fifteen digits. -/
def ShortNumbers (m : WsMessage) : Prop := ∀ c ∈ components m, ∀ i, c.2 = .number i → i.natAbs < 10 ^ 15

def types : List String :=
  ["hello", "hello_ack", "clipboard", "file_offer", "file_notify", "file_request", "file_peer_info",
    "file_relay", "file_relay_data", "file_relay_request", "file_transfer_result", "error", "ping", "pong"]

lemma type_mem (m : WsMessage) : m.type ∈ types := by
  cases m <;> simp [WsMessage.type, types]

lemma cut_type : ∀ s ∈ types, cut s = ascii s := by decide

lemma ascii_type : ∀ s ∈ types, ∀ s' ∈ types, ascii s = ascii s' ↔ s = s' := by decide

lemma ascii_type_iff {name : String} (hname : name ∈ types) : ascii m.type = ascii name ↔ m.type = name :=
  ascii_type _ (type_mem m) _ hname

lemma parse_members {n : ℕ} (hn : n ≤ nestingLimit) {t : Bytes}
    (ht : Json.Text dbl.value id n t (.object members)) :
    parse dbl.value t = some (.object (parsedMembers members)) := by
  rw [parse_denotes hn ht]
  simp [Value.map, parsedMembers]

lemma getStringValue_component (h : Written dbl members m) {name : String} {s : Option String}
    (hc : (name, .string s) ∈ components m) :
    getStringValue (getObjectItem name (.object (parsedMembers members))) = s.map cut := by
  cases s with
  | some s =>
    rw [getObjectItem_value h hc rfl]
    simp [Value.map, getStringValue, cut]
  | none =>
    -- the member is missing or `null`, and neither is a string
    cases hget : getObjectItem name (.object (parsedMembers members)) with
    | none => rfl
    | some v =>
      rw [getObjectItem_found h hc hget]
      simp [Component.value, Value.map, getStringValue]

lemma getStringValue_type (h : Written dbl members m) :
    getStringValue (getObjectItem "type" (.object (parsedMembers members))) = some (ascii m.type) := by
  have htype : ("type", .string (some m.type)) ∈ components m := by
    cases m <;> simp [components, WsMessage.type]
  rw [getStringValue_component h htype]
  exact congrArg some (cut_type _ (type_mem m))

lemma decimal_length {i : ℤ} (hi : i.natAbs < 10 ^ 15) : (Json.decimal i).length ≤ 16 := by
  have hdigits := (Nat.length_toDigits_le_iff (b := 10) (by decide) (by decide : 0 < 15)).mpr hi
  simp only [Json.decimal, List.length_append, List.length_map]
  split <;> simp only [List.length_cons, List.length_nil] <;> omega

lemma numberText_ofInt (hdbl : Exact dbl) {i : ℤ} (hi : i.natAbs < 10 ^ 15) :
    numberText dbl (dbl.ofInt i) = some (Json.decimal i) := by
  have hmax : (intMax : ℤ).natAbs < 10 ^ 15 := by decide
  have hmin : (-(intMax : ℤ) - 1).natAbs < 10 ^ 15 := by decide
  have hsubject := subject_number (Json.isNumber_decimal i)
  have hne : Json.decimal i ≠ [] := by
    obtain ⟨c, t, h, -⟩ := number_head (Json.isNumber_decimal i)
    rw [h]
    simp
  have hvalueint : valueint dbl (dbl.ofInt i) =
      if (intMax : ℤ) ≤ i then (intMax : ℤ)
      else if i ≤ -(intMax : ℤ) - 1 then -(intMax : ℤ) - 1 else i := by
    simp only [valueint, hdbl.le hmax hi, hdbl.le hi hmin, hdbl.toInt hi, decide_eq_true_eq]
  have hsmall : (valueint dbl (dbl.ofInt i)).natAbs < 10 ^ 15 := by
    rw [hvalueint]
    split_ifs
    · exact hmax
    · exact hmin
    · exact hi
  have hlen := decimal_length hi
  simp only [numberText, hdbl.isFinite hi, hdbl.eq hi hsmall, Bool.not_true, Bool.false_eq_true, if_false,
    hdbl.g hi, hsubject, hne, hdbl.value hi, hdbl.compareDouble, false_or, decide_eq_true_eq]
  by_cases heq : i = valueint dbl (dbl.ofInt i)
  · rw [if_pos heq, ← heq, if_neg (by omega)]
  · simp only [if_neg heq, Bool.true_eq_false, if_false]
    rw [if_neg (by omega)]

/-- No string contains a zero. -/
def NoZero (m : WsMessage) : Prop :=
  ∀ c ∈ components m, (∀ s, c.2 = .string (some s) → '\x00' ∉ s.toList) ∧
    ∀ l, c.2 = .strings (some l) → ∀ s ∈ l, '\x00' ∉ s.toList

lemma utf8_ne_zero {s : String} (h : '\x00' ∉ s.toList) : 0 ∉ utf8 s := by
  intro h0
  obtain ⟨c, hc, hnat⟩ := char_of_mem_utf8 (by decide) h0
  have hnat' : c.toNat = ('\x00' : Char).toNat := hnat
  exact h (Char.toNat_inj.mp hnat' ▸ hc)

def fields (dbl : Doubles D) (cs : List (String × Component)) : List (Bytes × Item D) :=
  cs.filterMap fun c => (c.2.value dbl).map fun v => (ascii c.1, v)

lemma faithful_value (hdbl : Exact dbl) (hsmall : ShortNumbers m) (h0 : NoZero m) {c : String × Component}
    (hc : c ∈ components m) {v : Item D} (hv : c.2.value dbl = some v) : Faithful dbl 1 v := by
  obtain ⟨name, c⟩ := c
  cases c with
  | string s =>
    obtain ⟨s, rfl, rfl⟩ := Option.map_eq_some_iff.mp hv
    exact Faithful.string (utf8_ne_zero ((h0 _ hc).1 s rfl))
  | strings l =>
    obtain ⟨l, rfl, rfl⟩ := Option.map_eq_some_iff.mp hv
    refine Faithful.array fun v hv => ?_
    obtain ⟨s, hs, rfl⟩ := List.mem_map.mp hv
    exact Faithful.string (utf8_ne_zero ((h0 _ hc).2 l rfl s hs))
  | number i =>
    obtain rfl := Option.some.inj hv
    have hi := hsmall _ hc i rfl
    exact Faithful.number (numberText_ofInt hdbl hi) (Json.isNumber_decimal i) (hdbl.value hi)
  | bool b =>
    obtain rfl := Option.some.inj hv
    exact Faithful.bool b

/-- Components of the message, the others of which are missing for a reason. -/
lemma binds_fields {cs : List (String × Component)} (hsub : cs ⊆ components m)
    (hrest : ∀ c ∈ components m, c ∉ cs → c.2.IsDefault) : Binds dbl (fields dbl cs) m := by
  constructor
  · intro c hc v hv
    obtain ⟨c', hc', hmap⟩ := List.mem_filterMap.mp hv
    obtain ⟨v', hv', heq⟩ := Option.map_eq_some_iff.mp hmap
    obtain ⟨hname, rfl⟩ := Prod.mk.inj heq
    rw [component_unique hc (hsub hc') (by rw [hname])]
    exact hv'
  · intro c hc hno
    by_cases hmem : c ∈ cs
    · have hnone : c.2.value dbl = none := by
        cases hv : c.2.value dbl with
        | none => rfl
        | some v => exact absurd (List.mem_filterMap.mpr ⟨c, hmem, by rw [hv]; rfl⟩) (hno v)
      obtain ⟨name, c⟩ := c
      cases c with
      | string s => exact Option.map_eq_none_iff.mp hnone
      | strings l => exact Option.map_eq_none_iff.mp hnone
      | number i => cases hnone
      | bool b => cases hnone
    · exact hrest c hc hmem

lemma utf8_type : ∀ s ∈ types, utf8 s = ascii s := by decide

lemma fields_string (name : String) (s : Option String) (cs : List (String × Component)) :
    fields dbl ((name, .string s) :: cs) = addString name (s.map utf8) ++ fields dbl cs := by
  cases s <;> simp [fields, Component.value, addString]

lemma fields_type {name : String} (hname : name ∈ types) (cs : List (String × Component)) :
    fields dbl (("type", .string (some name)) :: cs) = addString "type" (ascii name) ++ fields dbl cs := by
  rw [fields_string, Option.map_some, utf8_type name hname]

lemma fields_strings (name : String) (l : List String) (cs : List (String × Component)) :
    fields dbl ((name, .strings (some l)) :: cs) = addStrings name (l.map utf8) ++ fields dbl cs := by
  simp [fields, Component.value, addStrings]

lemma fields_number (name : String) (i : ℤ) (cs : List (String × Component)) :
    fields dbl ((name, .number i) :: cs) = addNumber name (dbl.ofInt i) ++ fields dbl cs := by
  simp [fields, Component.value, addNumber]

lemma fields_bool (name : String) (b : Bool) (cs : List (String × Component)) :
    fields dbl ((name, .bool b) :: cs) = addBool name b ++ fields dbl cs := by
  simp [fields, Component.value, addBool]

/-- Apart from the hello a client sends components of the message, and leaves out only what is missing. -/
lemma built_fields {item : Item D} (h : Built dbl item m) (hne : m ≠ .hello) :
    ∃ cs, item = .object (fields dbl cs) ∧ cs ⊆ components m ∧
      ∀ c ∈ components m, c ∉ cs → c.2.IsDefault := by
  cases h with
  | hello h0 => exact absurd rfl hne
  | clipboard enc =>
    refine ⟨[("type", .string (some "clipboard")), ("content", .string (some enc))], ?_,
      by simp [components], ?_⟩
    · rw [fields_type (by simp [types]), fields_string]
      rfl
    · simp [components, Component.IsDefault]
  | fileOffer fid fname mime fsize cksum addrs =>
    refine ⟨_, ?_, List.Subset.refl _, fun c hc hno => absurd hc hno⟩
    simp only [components, fields_type (show "file_offer" ∈ types by simp [types]), fields_string,
      fields_number, fields_strings]
    simp [buildFileOffer, addString, fields]
  | fileRequest fid addrs =>
    refine ⟨_, ?_, List.Subset.refl _, fun c hc hno => absurd hc hno⟩
    simp only [components, fields_type (show "file_request" ∈ types by simp [types]), fields_string,
      fields_strings]
    simp [buildFileRequest, addString, fields]
  | fileRelayRequest fid =>
    refine ⟨[("type", .string (some "file_relay")), ("fileId", .string (some fid))], ?_,
      by simp [components], ?_⟩
    · rw [fields_type (by simp [types]), fields_string]
      rfl
    · simp [components, Component.IsDefault]
  | fileRelayData fid b64 fsize target =>
    refine ⟨_, ?_, List.Subset.refl _, fun c hc hno => absurd hc hno⟩
    simp only [components, fields_type (show "file_relay" ∈ types by simp [types]), fields_string,
      fields_number]
    simp [buildFileRelayData, addString, fields]
  | transferResult fid method success connMs xferMs =>
    refine ⟨_, ?_, List.Subset.refl _, fun c hc hno => absurd hc hno⟩
    simp only [components, fields_type (show "file_transfer_result" ∈ types by simp [types]), fields_string,
      fields_number, fields_bool]
    simp [buildTransferResult, addString, fields]

lemma faithful_fields (hdbl : Exact dbl) (hsmall : ShortNumbers m) (h0 : NoZero m) {cs : List (String × Component)}
    (hsub : cs ⊆ components m) : Faithful dbl 2 (.object (fields dbl cs)) := by
  have hmem {a : Bytes × Item D} (ha : a ∈ fields dbl cs) :
      ∃ c ∈ components m, a.1 = ascii c.1 ∧ c.2.value dbl = some a.2 := by
    obtain ⟨c, hc, hmap⟩ := List.mem_filterMap.mp ha
    obtain ⟨v, hv, rfl⟩ := Option.map_eq_some_iff.mp hmap
    exact ⟨c, hsub hc, rfl, hv⟩
  refine Faithful.object (fun a ha => ?_) fun a ha => ?_
  · obtain ⟨c, hc, hname, -⟩ := hmem ha
    rw [hname]
    exact names_ne_zero m c hc
  · obtain ⟨c, hc, -, hvalue⟩ := hmem ha
    exact faithful_value hdbl hsmall h0 hc hvalue

/-- The components that are not `null`, in their order, are one way to write a message. -/
lemma written_fields : Written dbl (fields dbl (components m)) m := by
  constructor
  · intro a ha
    obtain ⟨c, hc, hmap⟩ := List.mem_filterMap.mp ha
    obtain ⟨v, hv, rfl⟩ := Option.map_eq_some_iff.mp hmap
    exact ⟨c, hc, rfl, by rw [hv, Option.getD_some]⟩
  · intro c hc v hv
    exact List.mem_filterMap.mpr ⟨c, hc, by rw [hv, Option.map_some]⟩

lemma text_fields (hdbl : Exact dbl) (hsmall : ShortNumbers m) (h0 : NoZero m) :
    ∃ t, render dbl nestingLimit (.object (fields dbl (components m))) = some t ∧
      Json.Text dbl.value id 2 t (.object (fields dbl (components m))) := by
  have hfaithful := faithful_fields hdbl hsmall h0 (List.Subset.refl (components m))
  obtain ⟨t, hrender, ht⟩ := @render_denotes _ dbl id (fun _ _ => rfl) 2 nestingLimit (by decide) _ hfaithful
  exact ⟨t, hrender, by simpa using Json.Text.mk Json.ws_nil ht Json.ws_nil⟩

lemma mem_addString {name : String} {s : Option String} {a : Bytes × Item D}
    (h : a ∈ addString name (s.map utf8)) (h0 : ∀ t ∈ s, '\x00' ∉ t.toList) :
    a.1 = ascii name ∧ Faithful dbl 1 a.2 := by
  cases s with
  | none => simp [addString] at h
  | some t =>
    obtain rfl : a = (ascii name, .string (utf8 t)) := by simpa [addString] using h
    exact ⟨rfl, Faithful.string (utf8_ne_zero (h0 t rfl))⟩

/-- The hello, the members of which the server does not look at. -/
lemma hello_binds (hdbl : Exact dbl) {clientType deviceId appVersion : Option String}
    (h0 : ∀ s ∈ [clientType, deviceId, appVersion], ∀ t ∈ s, '\x00' ∉ t.toList) :
    ∃ members, scMsgHello dbl (clientType.map utf8) (deviceId.map utf8) (appVersion.map utf8) = .object members ∧
      Faithful dbl 2 (.object members) ∧ Binds dbl members .hello := by
  have hcases {a : Bytes × Item D} (ha : a ∈ addString "clientType" (clientType.map utf8) ++
      addString "deviceId" (deviceId.map utf8) ++ addString "appVersion" (appVersion.map utf8) ++
      addStrings "capabilities" [ascii "clipboard", ascii "file_lan", ascii "file_nat", ascii "file_relay"] ++
      addString "type" (ascii "hello") ++ addNumber "v" (dbl.ofInt 2)) :
      (a.1 ∈ [ascii "clientType", ascii "deviceId", ascii "appVersion", ascii "capabilities", ascii "v"] ∧
        Faithful dbl 1 a.2) ∨ a = (ascii "type", .string (ascii "hello")) := by
    simp only [List.mem_append] at ha
    rcases ha with ((((ha | ha) | ha) | ha) | ha) | ha
    · obtain ⟨hname, hvalue⟩ := mem_addString ha (h0 clientType (by simp))
      exact Or.inl ⟨by simp [hname], hvalue⟩
    · obtain ⟨hname, hvalue⟩ := mem_addString ha (h0 deviceId (by simp))
      exact Or.inl ⟨by simp [hname], hvalue⟩
    · obtain ⟨hname, hvalue⟩ := mem_addString ha (h0 appVersion (by simp))
      exact Or.inl ⟨by simp [hname], hvalue⟩
    · obtain rfl := List.mem_singleton.mp ha
      refine Or.inl ⟨by simp, Faithful.array fun v hv => ?_⟩
      obtain ⟨b, hb, rfl⟩ := List.mem_map.mp hv
      have hcaps : ∀ b ∈ [ascii "clipboard", ascii "file_lan", ascii "file_nat", ascii "file_relay"],
          (0 : UInt8) ∉ b := by decide
      exact Faithful.string (hcaps b hb)
    · exact Or.inr (List.mem_singleton.mp ha)
    · obtain rfl := List.mem_singleton.mp ha
      have htwo : (2 : ℤ).natAbs < 10 ^ 15 := by decide
      exact Or.inl ⟨by simp, Faithful.number (numberText_ofInt hdbl htwo) (Json.isNumber_decimal 2)
        (hdbl.value htwo)⟩
  have hnames : ∀ b ∈ [ascii "clientType", ascii "deviceId", ascii "appVersion", ascii "capabilities",
      ascii "v"], (0 : UInt8) ∉ b ∧ b ≠ ascii "type" := by decide
  have htype : (0 : UInt8) ∉ ascii "type" ∧ (0 : UInt8) ∉ ascii "hello" := by decide
  refine ⟨_, rfl, Faithful.object (fun a ha => ?_) fun a ha => ?_, ⟨fun c hc v hv => ?_, fun c hc hno => ?_⟩⟩
  · rcases hcases ha with ⟨hname, -⟩ | rfl
    · exact (hnames _ hname).1
    · exact htype.1
  · rcases hcases ha with ⟨-, hvalue⟩ | rfl
    · exact hvalue
    · exact Faithful.string htype.2
  · obtain rfl : c = ("type", .string (some "hello")) := by simpa [components] using hc
    rcases hcases hv with ⟨hname, -⟩ | heq
    · exact absurd rfl (hnames _ hname).2
    · rw [(Prod.mk.inj heq).2, ← utf8_type "hello" (by simp [types])]
      rfl
  · obtain rfl : c = ("type", .string (some "hello")) := by simpa [components] using hc
    exact absurd (by simp [addString]) (hno (.string (ascii "hello")))

/-! ### One message for the members -/

/-- What a component is made of. -/
def Component.kind : Component → Fin 4
  | .string _ => 0
  | .strings _ => 1
  | .number _ => 2
  | .bool _ => 3

lemma components_kinds {m m' : WsMessage} (h : m.type = m'.type) :
    (components m).map (fun c => (c.1, c.2.kind)) = (components m').map fun c => (c.1, c.2.kind) := by
  cases m <;> cases m' <;> first | rfl | simp [WsMessage.type] at h

lemma components_inj {m m' : WsMessage} (h : components m = components m') : m = m' := by
  cases m <;> cases m' <;> simp [components] at h <;>
    grind [HelloAck, Clipboard, FileOffer, FileNotify, FileRequest, FilePeerInfo, FileRelay, FileRelayData,
      FileRelayRequest, FileTransferResult, Error]

lemma utf8_inj {s s' : String} (h : utf8 s = utf8 s') : s = s' := by
  have hbytes (s : String) : s.toByteArray = (utf8 s).toByteArray := by
    rw [← String.utf8Encode_toList, utf8, List.utf8Encode]
  exact String.toByteArray_inj.mp (by rw [hbytes, hbytes, h])

lemma component_inj (hdbl : Exact dbl) {c c' : Component} (hkind : c.kind = c'.kind)
    (hi : ∀ i, c = .number i → i.natAbs < 10 ^ 15) (hi' : ∀ i, c' = .number i → i.natAbs < 10 ^ 15)
    (hvalue : c.value dbl = c'.value dbl) : c = c' := by
  have hstring : Function.Injective fun s : String => (.string (utf8 s) : Item D) :=
    fun s s' h => utf8_inj (Value.string.inj h)
  cases c with
  | string s =>
    cases c' with
    | string s' => exact congrArg _ (Option.map_injective hstring hvalue)
    | _ => simp [Component.kind] at hkind
  | strings l =>
    cases c' with
    | strings l' =>
      have harray : Function.Injective fun l : List String => (.array (l.map fun s => .string (utf8 s)) : Item D) :=
        fun l l' h => List.map_injective_iff.mpr hstring (Value.array.inj h)
      exact congrArg _ (Option.map_injective harray hvalue)
    | _ => simp [Component.kind] at hkind
  | number i =>
    cases c' with
    | number j =>
      have hij : dbl.ofInt i = dbl.ofInt j := Value.number.inj (Option.some.inj hvalue)
      have htoInt := congrArg dbl.toInt hij
      rw [hdbl.toInt (hi i rfl), hdbl.toInt (hi' j rfl)] at htoInt
      rw [htoInt]
    | _ => simp [Component.kind] at hkind
  | bool b =>
    cases c' with
    | bool b' => rw [Value.bool.inj (Option.some.inj hvalue)]
    | _ => simp [Component.kind] at hkind

lemma isDefault_inj {c c' : Component} (hkind : c.kind = c'.kind) (h : c.IsDefault) (h' : c'.IsDefault) :
    c = c' := by
  cases c <;> cases c' <;> simp_all [Component.kind, Component.IsDefault]

lemma type_component (m : WsMessage) : ("type", .string (some m.type)) ∈ components m := by
  cases m <;> simp [components, WsMessage.type]

/-- The members say what the message is. -/
lemma binds_unique (hdbl : Exact dbl) {m' : WsMessage} (h : Binds dbl members m) (h' : Binds dbl members m')
    (hsmall : ShortNumbers m) (hsmall' : ShortNumbers m') : m = m' := by
  have hsame {name : String} {c c' : Component} (hc : (name, c) ∈ components m)
      (hc' : (name, c') ∈ components m') (hkind : c.kind = c'.kind) : c = c' := by
    by_cases hv : ∃ v, (ascii name, v) ∈ members
    · obtain ⟨v, hv⟩ := hv
      have hvalue := (h.found _ hc v hv).trans (h'.found _ hc' v hv).symm
      exact component_inj hdbl hkind (hsmall _ hc) (hsmall' _ hc') hvalue
    · have hno : ∀ v, (ascii name, v) ∉ members := fun v hmem => hv ⟨v, hmem⟩
      exact isDefault_inj hkind (h.missing _ hc hno) (h'.missing _ hc' hno)
  have htype : m.type = m'.type := by
    simpa using hsame (type_component m) (type_component m') rfl
  have hkinds := components_kinds htype
  have hlen : (components m).length = (components m').length := by
    simpa using congrArg List.length hkinds
  refine components_inj (List.ext_getElem hlen fun i hi hi' => ?_)
  have hpair := List.getElem_of_eq hkinds (by simpa using hi)
  simp only [List.getElem_map, Prod.mk.injEq] at hpair
  obtain ⟨hname, hkind⟩ := hpair
  have hmem : ((components m)[i].1, (components m')[i].2) ∈ components m' := by
    rw [hname]
    exact List.getElem_mem hi'
  exact Prod.ext hname (hsame (List.getElem_mem hi) hmem hkind)

/-- A message that a client builds, as members and as a text. -/
lemma built_text (hdbl : Exact dbl) {item : Item D} (h : Built dbl item m) (hsmall : ShortNumbers m)
    (h0 : NoZero m) :
    ∃ members t, item = .object members ∧ Binds dbl members m ∧ render dbl nestingLimit item = some t ∧
      Json.Text dbl.value id 2 t (.object members) := by
  obtain ⟨members, rfl, hfaithful, hbinds⟩ :
      ∃ members, item = .object members ∧ Faithful dbl 2 (.object members) ∧ Binds dbl members m := by
    by_cases hne : m = .hello
    · subst hne
      cases h with
      | hello h0 => exact hello_binds hdbl h0
    · obtain ⟨cs, rfl, hsub, hrest⟩ := built_fields h hne
      exact ⟨fields dbl cs, rfl, faithful_fields hdbl hsmall h0 hsub, binds_fields hsub hrest⟩
  obtain ⟨t, hrender, ht⟩ := @render_denotes _ dbl id (fun _ _ => rfl) 2 nestingLimit (by decide) _ hfaithful
  exact ⟨members, t, rfl, hbinds, hrender, by simpa using Json.Text.mk Json.ws_nil ht Json.ws_nil⟩

lemma binds_iff (hdbl : Exact dbl) (h : Binds dbl members m) (hsmall : ShortNumbers m) {m' : WsMessage}
    (hsmall' : ShortNumbers m') : Binds dbl members m' ↔ m' = m :=
  ⟨fun h' => binds_unique hdbl h' h hsmall' hsmall, fun heq => heq ▸ h⟩

/-- **The text of a message that a client builds is JSON, and the server finds the message in it**, and no
other message. The printer returns that text if it is not too long and there is memory. -/
theorem sent_binds (hdbl : Exact dbl) {realloc : ℕ → Bool} (hmem : Enough realloc) {item : Item D}
    (h : Built dbl item m) (hsmall : ShortNumbers m) (h0 : NoZero m) :
    ∃ members t, item = .object members ∧
      (∀ m', ShortNumbers m' → (Binds dbl members m' ↔ m' = m)) ∧
      render dbl nestingLimit item = some t ∧ Json.Text dbl.value id 2 t (.object members) ∧
      (t.length + 2 ≤ intMax → print dbl realloc item = some t) := by
  obtain ⟨members, t, hitem, hbinds, hrender, ht⟩ := built_text hdbl h hsmall h0
  exact ⟨members, t, hitem, fun m' hsmall' => binds_iff hdbl hbinds hsmall hsmall', hrender, ht,
    print_render hmem hrender⟩

/-- The request for a file without addresses. -/
theorem sent_binds_request : ∃ members t,
    buildFileRequest (some (utf8 "f")) [] = .object members ∧
      (∀ m', ShortNumbers m' →
        (Binds integers members m' ↔ m' = .fileRequest ⟨none, some "f", some []⟩)) ∧
      render integers nestingLimit (buildFileRequest (some (utf8 "f")) []) = some t ∧
      Json.Text integers.value id 2 t (.object members) ∧
      (t.length + 2 ≤ intMax →
        print integers (fun _ => true) (buildFileRequest (some (utf8 "f")) []) = some t) := by
  have hbuilt : Built integers (buildFileRequest (some (utf8 "f")) []) (.fileRequest ⟨none, some "f", some []⟩) :=
    Built.fileRequest (some "f") []
  exact sent_binds exact_integers (fun _ _ => rfl) hbuilt (by simp [ShortNumbers, components])
    (by simp [NoZero, components])

end Frames

end SyncClipboard.Messages
