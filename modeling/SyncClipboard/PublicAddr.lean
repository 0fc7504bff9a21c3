import SyncClipboard.Acts
import SyncClipboard.CString

/-!
The public address of a peer, from the server to the clients.

The server knows a peer by the remote address of its WebSocket and writes that address without a
port. The C clients take an address apart at its last colon and the Android client at every
colon, so neither finds a port and neither tries to traverse the NAT.
-/

namespace SyncClipboard.PublicAddr

open ServerModel Dispatcher Views Acts FtAuth CString

/-! ### Addresses -/

/-- An IPv4 address, as the four bytes of `in_addr`. -/
@[ext] structure Ipv4 where
  a : UInt8
  b : UInt8
  c : UInt8
  d : UInt8
  deriving DecidableEq

/-- `InetAddress.getHostAddress()` -/
def Ipv4.hostAddress (ip : Ipv4) : String :=
  ip.a.toNat.repr ++ "." ++ ip.b.toNat.repr ++ "." ++ ip.c.toNat.repr ++ "." ++ ip.d.toNat.repr

/-- `struct sockaddr_in`, the port in host order. -/
structure SockAddr where
  addr : Ipv4
  port : ℕ
  deriving DecidableEq

/-! ### The C clients -/

/-- One number of a dotted address: at most 255, without leading zeros. -/
def octet (s : Bytes) : Option UInt8 :=
  if s ≠ [] ∧ s.all isDigit ∧ (s.head? = some 48 → s.length = 1) ∧ decimal s ≤ 255 then
    some (UInt8.ofNat (decimal s))
  else none

/-- `inet_pton(AF_INET, …)` -/
def inetPton (s : Bytes) : Option Ipv4 :=
  match s.splitOn 46 with
  | [a, b, c, d] =>
    (octet a).bind fun a => (octet b).bind fun b => (octet c).bind fun c =>
      (octet d).map fun d => ⟨a, b, c, d⟩
  | _ => none

/-- `ft_parse_addr`; `none` is the result -1. The port is what `htons` keeps of the `int`. -/
def ftParseAddr (w : ℕ) (s : Bytes) : Option SockAddr :=
  match strrchr 58 (s.take 63) with
  | none => none
  | some (ip, port) =>
    (inetPton ip).map fun addr => ⟨addr, (atoi w port % 2 ^ 16).toNat⟩

/-- What `ft_nat_punch_start` does: the datagrams it sends, and the socket it returns with the
address that socket is connecting to. -/
structure Punch (Sock : Type) where
  datagrams : List (SockAddr × Bytes)
  sock : Option (Sock × SockAddr)

/-- `ft_nat_punch_start`, given what `socket` returns for the TCP and for the UDP socket. -/
def ftNatPunchStart {Sock : Type} (w : ℕ) (tcp udp : Option Sock) (peerPublicAddr : Bytes) :
    Punch Sock :=
  match ftParseAddr w peerPublicAddr with
  | none => ⟨[], none⟩
  | some peer =>
    match tcp with
    | none => ⟨[], none⟩
    | some sock =>
      ⟨if udp.isSome then List.replicate 3 (peer, ascii "PUNCH") else [], some (sock, peer)⟩

/-! ### The Android client -/

/-- `String.toInt()`, for ASCII digits; `none` is a `NumberFormatException`. -/
def toInt (s : List Char) : Option ℤ :=
  let number (t : List Char) : Option ℕ :=
    if t ≠ [] ∧ t.all Char.isDigit then
      some (t.foldl (fun n c => 10 * n + (c.toNat - 48)) 0)
    else none
  let value : Option ℤ :=
    match s with
    | '-' :: t => (number t).map fun n => -(n : ℤ)
    | '+' :: t => (number t).map fun n => (n : ℤ)
    | t => (number t).map fun n => (n : ℤ)
  value.filter fun v => decide (-(2 ^ 31) ≤ v) && decide (v < 2 ^ 31)

/-- The NAT branch of `tryParallelConnect`: the address it connects to. Anything else ends the
thread, by its guard or by an exception. -/
def natBranch (natAddr : String) : Option (String × ℤ) :=
  match natAddr.toList.splitOn ':' with
  | [peerIp, peerPort] =>
    ((toInt peerPort).filter fun p => decide (0 ≤ p) && decide (p ≤ 65535)).map fun p =>
      (String.ofList peerIp, p)
  | _ => none

/-- With a port, both take the address. -/
example :
    ftParseAddr 64 (utf8 "203.0.113.7:9000") = some ⟨⟨203, 0, 113, 7⟩, 9000⟩ ∧
      natBranch "203.0.113.7:9000" = some ("203.0.113.7", 9000) := by
  decide +kernel

/-! ### What the server writes -/

lemma toDigits_no_colon (n : ℕ) : ':' ∉ Nat.toDigits 10 n := by
  intro h
  have hdigit := Nat.isDigit_of_mem_toDigits (by omega) (by omega) h
  simp [Char.isDigit] at hdigit

lemma hostAddress_no_colon (ip : Ipv4) : ':' ∉ ip.hostAddress.toList := by
  simp [Ipv4.hostAddress, toDigits_no_colon]

lemma toDigits_no_dot (n : ℕ) : '.' ∉ Nat.toDigits 10 n := by
  intro h
  have hdigit := Nat.isDigit_of_mem_toDigits (by omega) (by omega) h
  simp [Char.isDigit] at hdigit

lemma foldl_toDigits (b : UInt8) :
    (Nat.toDigits 10 b.toNat).foldl (fun n c => 10 * n + (c.toNat - 48)) 0 = b.toNat := by
  have hall : ∀ n : Fin 256,
      (Nat.toDigits 10 n.val).foldl (fun n c => 10 * n + (c.toNat - 48)) 0 = n.val := by
    decide +kernel
  exact hall ⟨b.toNat, b.toNat_lt⟩

lemma toDigits_byte_inj {b b' : UInt8} (h : Nat.toDigits 10 b.toNat = Nat.toDigits 10 b'.toNat) :
    b = b' := by
  apply UInt8.toNat_inj.mp
  rw [← foldl_toDigits b, ← foldl_toDigits b', h]

lemma hostAddress_splitOn (ip : Ipv4) : ip.hostAddress.toList.splitOn '.' =
    [Nat.toDigits 10 ip.a.toNat, Nat.toDigits 10 ip.b.toNat, Nat.toDigits 10 ip.c.toNat,
      Nat.toDigits 10 ip.d.toNat] := by
  have hdot : ".".toList = ['.'] := rfl
  simp only [Ipv4.hostAddress, String.toList_append, Nat.toList_repr, hdot, List.append_assoc,
    List.nil_append, List.cons_append]
  rw [List.splitOn_append_cons_self_of_not_mem (toDigits_no_dot _),
    List.splitOn_append_cons_self_of_not_mem (toDigits_no_dot _),
    List.splitOn_append_cons_self_of_not_mem (toDigits_no_dot _),
    List.splitOn_eq_singleton (toDigits_no_dot _)]

lemma hostAddress_injective {ip ip' : Ipv4} (h : ip.hostAddress = ip'.hostAddress) : ip = ip' := by
  have hsplit := hostAddress_splitOn ip
  rw [h, hostAddress_splitOn ip'] at hsplit
  simp only [List.cons.injEq, and_true] at hsplit
  obtain ⟨ha, hb, hc, hd⟩ := hsplit
  exact (Ipv4.ext (toDigits_byte_inj ha) (toDigits_byte_inj hb) (toDigits_byte_inj hc)
    (toDigits_byte_inj hd)).symm

lemma natBranch_of_no_colon {s : String} (h : ':' ∉ s.toList) : natBranch s = none := by
  simp [natBranch, List.splitOn_eq_singleton h]

lemma ftParseAddr_of_no_colon {s : String} (h : ':' ∉ s.toList) (w : ℕ) :
    ftParseAddr w (utf8 s) = none := by
  have hno : (58 : UInt8) ∉ (utf8 s).take 63 := by
    intro hmem
    obtain ⟨c, hc, hval⟩ := char_of_mem_utf8 (by decide) (List.mem_of_mem_take hmem)
    have hcolon : c = ':' := Char.toNat_inj.mp hval
    exact h (hcolon ▸ hc)
  simp [ftParseAddr, strrchr_eq_none_iff.mpr hno]

variable {cfg : Config}

variable (cfg) in
/-- Every stored offer carries the remote address of the session that made it. -/
def Addressed (st : Server) : Prop :=
  ∀ f o, st.activeOffers f = some o → o.senderPublicAddress = publicAddr cfg o.senderSessionId

lemma written_addressed {F : String} {st : Server} {e : Event} {o : Offer}
    (h : written cfg F st e = some (some o)) :
    o.senderPublicAddress = publicAddr cfg o.senderSessionId := by
  unfold written at h
  split at h
  · obtain ⟨cs, -, hw⟩ := Option.bind_eq_some_iff.mp h
    split_ifs at hw
    cases hw
    rfl
  · obtain ⟨cs, -, hw⟩ := Option.bind_eq_some_iff.mp h
    split_ifs at hw
    cases hw
  · cases h

lemma step_addressed (st : Server) (e : Event) (h : Addressed cfg st) :
    Addressed cfg (step cfg st e).1 := by
  intro f o ho
  rw [step_entry] at ho
  cases hw : written cfg f st e with
  | some w =>
    rw [hw, Option.getD_some] at ho
    exact written_addressed (hw.trans (congrArg some ho))
  | none =>
    rw [hw, Option.getD_none] at ho
    split at ho
    · exact h f o (Option.filter_eq_some_iff.mp ho).1
    · exact h f o ho

lemma exec_addressed (es : List Event) : Addressed cfg (Run.exec (step cfg) init es) :=
  Run.exec_inv step_addressed (fun _ _ h => by cases h) es

/-! ### From the server to the clients -/

/-- Every client makes of the address the IPv4 address and a port, and tries to connect. -/
def Usable (w : ℕ) (ip : Ipv4) (addr : String) : Prop :=
  ∃ port : ℕ, 1 ≤ port ∧ port ≤ 65535 ∧
    ftParseAddr w (utf8 addr) = some ⟨ip, port⟩ ∧
    natBranch addr = some (ip.hostAddress, (port : ℤ)) ∧
    ∀ tcp udp : Option ℕ, tcp.isSome → (ftNatPunchStart w tcp udp (utf8 addr)).sock.isSome

/-- No client makes anything of the address. -/
def Rejected (w : ℕ) (addr : String) : Prop :=
  ftParseAddr w (utf8 addr) = none ∧ natBranch addr = none ∧
    ∀ tcp udp : Option ℕ, ftNatPunchStart w tcp udp (utf8 addr) = ⟨[], none⟩

lemma rejected_hostAddress (w : ℕ) (ip : Ipv4) : Rejected w ip.hostAddress := by
  have hparse := ftParseAddr_of_no_colon (hostAddress_no_colon ip) w
  refine ⟨hparse, natBranch_of_no_colon (hostAddress_no_colon ip), fun tcp udp => ?_⟩
  simp [ftNatPunchStart, hparse]

lemma Rejected.not_usable {w : ℕ} {addr : String} (h : Rejected w addr) (ip : Ipv4) :
    ¬ Usable w ip addr := by
  rintro ⟨port, -, -, hparse, -⟩
  rw [h.1] at hparse
  cases hparse

/-- The addresses in the information the server writes for the two peers of a request are
usable. -/
def BothUsable (w : ℕ) (cfg : Config) (r : SessionId) (cs : ClientSession) (fileId : String)
    (m : FileRequest) (offer : Offer) (receiver sender : Ipv4) : Prop :=
  ∀ ps pr, peerInfoForSender cfg r cs fileId m offer = .filePeerInfo ps →
    peerInfoForReceiver cfg r fileId offer = .filePeerInfo pr →
    Usable w receiver ps.peerPublicAddress ∧ Usable w sender pr.peerPublicAddress

section Request

variable {r : SessionId} {offer : Offer} {receiver sender : Ipv4}
  (hlevel : 2 ≤ cfg.fileTransferLevel)
  (hr : (cfg.session r).remoteAddress = some receiver.hostAddress)
  (ho : offer.senderPublicAddress = sender.hostAddress) (hne : receiver ≠ sender)
include hr ho hne

lemma not_sameLan : sameLan cfg r offer = false := by
  have hstr : receiver.hostAddress ≠ sender.hostAddress := fun h => hne (hostAddress_injective h)
  simp [sameLan, publicAddr, hr, ho, hstr]

include hlevel

lemma publicAddress_forSender {cs : ClientSession} {fileId : String} {m : FileRequest}
    {p : FilePeerInfo} (h : peerInfoForSender cfg r cs fileId m offer = .filePeerInfo p) :
    p.peerPublicAddress = receiver.hostAddress := by
  cases h
  simp [not_sameLan hr ho hne, hlevel, publicAddr, hr]

lemma publicAddress_forReceiver {fileId : String} {p : FilePeerInfo}
    (h : peerInfoForReceiver cfg r fileId offer = .filePeerInfo p) :
    p.peerPublicAddress = sender.hostAddress := by
  cases h
  simp [not_sameLan hr ho hne, hlevel, ho]

end Request

/-- **No public address is usable.** At level two and above, whatever has happened on the server
and whatever a request for a stored offer says: if its receiver and the sender of the offer have
different IPv4 addresses, then the addresses the server writes for the two are not usable, and
every one it sends them is rejected by every client. -/
theorem public_address_rejected (w : ℕ) (cfg : Config) (es : List Event) (r : SessionId)
    (cs : ClientSession) (fileId : String) (m : FileRequest) (offer : Offer) (receiver sender : Ipv4)
    (net : Net) (now : ℤ) (hlevel : 2 ≤ cfg.fileTransferLevel)
    (hcs : getSession r (Run.exec (step cfg) init es).sessions = some cs)
    (hid : m.fileId = some fileId)
    (ho : (Run.exec (step cfg) init es).activeOffers fileId = some offer)
    (hr : (cfg.session r).remoteAddress = some receiver.hostAddress)
    (hs : (cfg.session offer.senderSessionId).remoteAddress = some sender.hostAddress)
    (hne : receiver ≠ sender) :
    ¬ BothUsable w cfg r cs fileId m offer receiver sender ∧
    ∀ x p b, Act.send x (.filePeerInfo p) b ∈
      (step cfg (Run.exec (step cfg) init es) (.text r (some (.fileRequest m)) now net)).2 →
      Rejected w p.peerPublicAddress := by
  have hpublic : offer.senderPublicAddress = sender.hostAddress := by
    rw [exec_addressed es fileId offer ho, publicAddr, hs, Option.getD_some]
  constructor
  · intro husable
    obtain ⟨ps, hps⟩ : ∃ ps, peerInfoForSender cfg r cs fileId m offer = .filePeerInfo ps := ⟨_, rfl⟩
    have hforSender := (husable ps _ hps rfl).1
    rw [publicAddress_forSender hlevel hr hpublic hne hps] at hforSender
    exact (rejected_hostAddress w receiver).not_usable receiver hforSender
  · intro x p b hsend
    rcases mem_handleTextMessage hsend with ⟨-, herr⟩ | ⟨cs', hcs', hmem⟩
    · cases herr
    · obtain rfl : cs = cs' := Option.some.inj (hcs.symm.trans hcs')
      generalize hf : WsMessage.filePeerInfo p = f at hmem
      have hsends := handle_sends hmem
      cases hsends with
      | toSender hg ho' =>
        obtain rfl := Option.some.inj (hid.symm.trans hg)
        obtain rfl := Option.some.inj (ho.symm.trans ho')
        rw [publicAddress_forSender hlevel hr hpublic hne hf.symm]
        exact rejected_hostAddress w receiver
      | toReceiver hg ho' =>
        obtain rfl := Option.some.inj (hid.symm.trans hg)
        obtain rfl := Option.some.inj (ho.symm.trans ho')
        rw [publicAddress_forReceiver hlevel hr hpublic hne hf.symm]
        exact rejected_hostAddress w sender
      | error e => cases hf

/-- A laptop and a phone of one user, behind different routers. -/
def twoRouters : Config :=
  ⟨2, 8081, 1000, fun sid =>
    if sid = "laptop" then ⟨some "alice", some "laptop", some "203.0.113.7"⟩
    else ⟨some "alice", some "phone", some "198.51.100.20"⟩⟩

/-- Both have connected, and the laptop has offered a file. -/
def laptopOffered : List Event :=
  [.established "laptop" 0 allOk, .established "phone" 1 allOk,
    .text "laptop" (some (.fileOffer ⟨none, some "f", some "a.png", some "image/png", 3, none,
      some ["192.168.1.5:9000"]⟩)) 2 allOk]

def laptopOffer : Offer :=
  ⟨"f", some "a.png", some "image/png", 3, none, "laptop", "laptop", "alice",
    some ["192.168.1.5:9000"], "203.0.113.7", 2⟩

def phoneRequest : FileRequest := ⟨none, some "f", some ["10.0.0.2:9001"]⟩

/-- The phone asks for the file, and neither is told an address it can use. -/
theorem phone_request_rejected :
    ¬ BothUsable 64 twoRouters "phone" ⟨"phone", true, true, "alice", "phone"⟩ "f" phoneRequest
      laptopOffer ⟨198, 51, 100, 20⟩ ⟨203, 0, 113, 7⟩ :=
  (public_address_rejected 64 twoRouters laptopOffered "phone" _ "f" phoneRequest laptopOffer
    ⟨198, 51, 100, 20⟩ ⟨203, 0, 113, 7⟩ allOk 3 (by decide) (by decide +kernel) rfl
    (by decide +kernel) (by decide +kernel) (by decide +kernel) (by decide)).1

/-- The receiver of the laptop's file is told `203.0.113.7`, and nothing can be made of it. -/
theorem bare_address_not_parsed :
    ¬ ∀ (w : ℕ) (cfg : Config) (es : List Event) (r : SessionId) (cs : ClientSession)
      (fileId : String) (m : FileRequest) (offer : Offer) (receiver sender : Ipv4),
      2 ≤ cfg.fileTransferLevel →
      getSession r (Run.exec (step cfg) init es).sessions = some cs → m.fileId = some fileId →
      (Run.exec (step cfg) init es).activeOffers fileId = some offer →
      (cfg.session r).remoteAddress = some receiver.hostAddress →
      (cfg.session offer.senderSessionId).remoteAddress = some sender.hostAddress →
      receiver ≠ sender → BothUsable w cfg r cs fileId m offer receiver sender := by
  intro h
  have hphone := h 64 twoRouters laptopOffered "phone" ⟨"phone", true, true, "alice", "phone"⟩ "f"
    phoneRequest laptopOffer ⟨198, 51, 100, 20⟩ ⟨203, 0, 113, 7⟩ (by decide) (by decide +kernel) rfl
    (by decide +kernel) (by decide +kernel) (by decide +kernel) (by decide)
  obtain ⟨-, port, -, -, hparse, -⟩ := hphone _ _ rfl rfl
  revert hparse
  have hnone : ftParseAddr 64 (utf8 "203.0.113.7") = none := by decide +kernel
  have haddr : (if sameLan twoRouters "phone" laptopOffer then "" else
      if 2 ≤ twoRouters.fileTransferLevel then laptopOffer.senderPublicAddress else "") =
      "203.0.113.7" := by decide +kernel
  rw [haddr, hnone]
  simp

end SyncClipboard.PublicAddr
