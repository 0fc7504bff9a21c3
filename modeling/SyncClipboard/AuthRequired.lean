import SyncClipboard.Announced
import SyncClipboard.Config
import SyncClipboard.FtLan

/-!
The file transfers of a client that has been started with a configuration file.

`main` does not look at what `config_load` returns, and a race for a connection that has no key skips
the handshake. So a client without a key transfers files with anybody, and one with a malformed key
transfers them under the bytes that `sscanf` finds in it (`no_unauthenticated_iff`).
-/

namespace SyncClipboard.AuthRequired

open FtAuth FtLan Client Config

/-! ### The threads on the network -/

variable (H : Bytes → Bytes → Bytes)

/-- `receiver_thread`, with the polls of its race and what comes on the connection. -/
def receiverThread (env : Env) (fileId keyHex frame : Bytes) (listen : Bool)
    (conn : List (Option Sock)) (nat : Option Sock) (polls : List Poll) : List Act :=
  match ftLanTransferAuth H env fileId keyHex false listen conn nat polls [] with
  | (none, log) => log
  | (some c, log) => log ++ [.file c frame, .close c]

/-- What a thread meets: the peers, the sockets of its connects and of the punching, the polls of its
first race and of a sender's later ones, and the bytes of the file. -/
structure Net where
  env : Env
  conn : ℕ → Option Sock
  nat : Option Sock
  polls : List Poll
  calls : List (List Poll)
  frame : Bytes

/-- What a thread does on the network. -/
def transfer (keyHex : Bytes) (st : Xfer) (net : Net) : List Act :=
  let listen := decide (st.listenFd ≠ invalidSock)
  let conn := (List.range st.peerAddrs.length).map net.conn
  let nat := if natPunch st = [] then none else net.nat
  if st.isSender then
    senderThread H net.env (CString.utf8 st.fileId) keyHex net.frame listen conn nat net.polls
      net.calls
  else
    receiverThread H net.env (CString.utf8 st.fileId) keyHex net.frame listen conn nat net.polls

/-! ### The program -/

structure Program where
  cfg : ClientConfig
  node : Announced.Node

/-- `main` goes on with the record, whatever the result was. -/
def main (platform : Platform) (file : Option Bytes) : Program :=
  ⟨(configLoad platform file).1, .start⟩

def options (platform : Platform) (cfg : ClientConfig) : Options :=
  ⟨platform, cfg.fileTransferLevel, cfg.maxTransferSize⟩

/-- What a thread has done when it ends. -/
structure Transfer where
  st : Xfer
  net : Net
  log : List Act

def transfers (p : Program) (e : Resources.Event) (net : Net) : List Transfer :=
  match e with
  | .threadEnd i _ =>
    match p.node.client.threads[i]? with
    | none => []
    | some t => if t.started then [⟨t.st, net, transfer H p.cfg.aesKey t.st net⟩] else []
  | _ => []

variable (lib : Lib) (platform : Platform)

/-- An event comes with what a thread met, if it is the end of one. -/
def step (p : Program) (e : Resources.Event × Net) : Program × List Transfer :=
  (⟨p.cfg, (Announced.step lib (options platform p.cfg) p.node e.1).1⟩, transfers H p e.1 e.2)

/-! ### Handshakes -/

/-- The handshake of a transfer on a socket, after what the log says. -/
def handshake (keyHex : Bytes) (st : Xfer) (env : Env) (log : List Act) (c : Sock) : Auth :=
  if st.isSender then ftAuthSend H (env log c) (CString.utf8 st.fileId) keyHex
  else ftAuthRecv H (env log c) (CString.utf8 st.fileId) keyHex

/-- The socket has completed the handshake with result 0. -/
def Completed (keyHex : Bytes) (st : Xfer) (env : Env) (log : List Act) (c : Sock) : Prop :=
  ∃ pre post, log = pre ++ .wire c (handshake H keyHex st env pre c).sent :: post ∧
    (handshake H keyHex st env pre c).code = 0

/-- A file comes after the handshake on its socket. -/
def Authenticated (keyHex : Bytes) (st : Xfer) (env : Env) (log : List Act) : Prop :=
  Run.Legal (fun pre a => ∀ c bs, a = .file c bs → Completed H keyHex st env pre c) log

/-- In every run, files come after the handshake on their sockets, and with a key that `config_load`
rejects there are none. -/
def NoUnauthenticated (file : Option Bytes) : Prop :=
  ∀ es, ∀ o ∈ Run.outs (step H lib platform) (main platform file) es,
    Authenticated H (configLoad platform file).1.aesKey o.st o.net.env o.log ∧
      (keyReasons (configLoad platform file).1.aesKey ≠ [] → ∀ c bs, Act.file c bs ∉ o.log)

/-- The key is long enough and `sscanf` finds numbers in it. -/
def Readable (keyHex : Bytes) : Prop := 64 ≤ keyHex.length ∧ (parseKey 32 keyHex).isSome = true

instance (keyHex : Bytes) : Decidable (Readable keyHex) := inferInstanceAs (Decidable (_ ∧ _))

variable {H lib platform}

lemma ftComputeHmac_isSome_iff (hH : ∀ k m, (H k m).length = 32) {fileId keyHex : Bytes} :
    (ftComputeHmac H fileId keyHex).isSome = true ↔ Readable keyHex := by
  unfold ftComputeHmac Readable
  by_cases hlen : 64 ≤ keyHex.length
  · have hklen : min (keyHex.length / 2) 32 = 32 := by omega
    dsimp only
    rw [hklen]
    cases parseKey 32 keyHex <;> simp [hH, hlen]
  · have hklen : min (keyHex.length / 2) 32 < 32 := by omega
    dsimp only
    cases parseKey (min (keyHex.length / 2) 32) keyHex with
    | none => simp [hlen]
    | some key => simp [hlen, hklen]

lemma handshake_code_ne (hH : ∀ k m, (H k m).length = 32) {keyHex : Bytes} (h : ¬ Readable keyHex)
    (st : Xfer) (env : Env) (log : List Act) (c : Sock) :
    (handshake H keyHex st env log c).code ≠ 0 := by
  have hnone : ftComputeHmac H (CString.utf8 st.fileId) keyHex = none := by
    rw [← Option.not_isSome_iff_eq_none, ftComputeHmac_isSome_iff hH]
    exact h
  unfold handshake
  cases st.isSender with
  | true => simp [ftAuthSend, hnone]
  | false =>
    simp only [Bool.false_eq_true, if_false, ftAuthRecv, hnone]
    split
    · simp
    · split_ifs <;> simp [refuse]

/-! ### With a key -/

lemma authenticated_append {keyHex : Bytes} {st : Xfer} {env : Env} {log new : List Act}
    (h : Authenticated H keyHex st env log) (hnew : ∀ c bs, Act.file c bs ∉ new) :
    Authenticated H keyHex st env (log ++ new) := by
  refine Run.legal_append h fun pre a post heq c bs hfile => ?_
  exact absurd (heq ▸ hfile ▸ by simp) (hnew c bs)

/-- A race with a key: whoever wins has completed the handshake. -/
lemma tryAuthenticate_earns (keyHex : Bytes) (st : Xfer) (env : Env) :
    Earns ⟨tryAuthenticate H env (CString.utf8 st.fileId) keyHex st.isSender, true⟩
      (Authenticated H keyHex st env) (Completed H keyHex st env) where
  authenticate c log hlog := by
    have hhs : (if st.isSender then ftAuthSend H (env log c) (CString.utf8 st.fileId) keyHex
        else ftAuthRecv H (env log c) (CString.utf8 st.fileId) keyHex) =
        handshake H keyHex st env log c := rfl
    simp only [tryAuthenticate, hhs]
    by_cases hcode : (handshake H keyHex st env log c).code = 0
    · rw [if_pos hcode]
      exact ⟨authenticated_append hlog (by simp), fun _ => ⟨log, [], rfl, hcode⟩⟩
    · rw [if_neg hcode]
      exact ⟨authenticated_append hlog (by simp), by simp⟩
  close c log hlog := authenticated_append hlog (by simp)
  keep c c' log hdone := by
    obtain ⟨pre, post, rfl, hcode⟩ := hdone
    exact ⟨pre, post ++ [.close c'], by simp, hcode⟩

lemma authenticated_file {keyHex : Bytes} {st : Xfer} {env : Env} {log : List Act}
    (h : Authenticated H keyHex st env log) {c : Sock} (hdone : Completed H keyHex st env log c)
    (frame : Bytes) : Authenticated H keyHex st env (log ++ [.file c frame, .close c]) := by
  have hsent : Authenticated H keyHex st env (log ++ [.file c frame]) := by
    refine Run.legal_snoc h ?_
    intro c' bs hfile
    cases hfile
    exact hdone
  have hno : ∀ c' bs, Act.file c' bs ∉ [Act.close c] := by simp
  have hclosed := authenticated_append hsent hno
  rwa [List.append_assoc] at hclosed

lemma race_authenticated {keyHex : Bytes} (hkey : keyHex ≠ []) {st : Xfer} {env : Env}
    {log : List Act} (h : Authenticated H keyHex st env log) (listen : Bool)
    (conn : List (Option Sock)) (nat : Option Sock) (polls : List Poll) :
    Authenticated H keyHex st env (ftLanTransferAuth H env (CString.utf8 st.fileId) keyHex
        st.isSender listen conn nat polls log).2 ∧
      ∀ c ∈ (ftLanTransferAuth H env (CString.utf8 st.fileId) keyHex st.isSender listen conn nat
          polls log).1,
        Completed H keyHex st env (ftLanTransferAuth H env (CString.utf8 st.fileId) keyHex
          st.isSender listen conn nat polls log).2 c := by
  unfold ftLanTransferAuth
  rw [if_neg hkey]
  exact (tryAuthenticate_earns keyHex st env).lanTransfer listen conn nat polls h

lemma sendLoop_authenticated {keyHex : Bytes} (hkey : keyHex ≠ []) {st : Xfer}
    (hst : st.isSender = true) {env : Env} (frame : Bytes) (listen : Bool)
    (calls : List (List Poll)) {sock : Option Sock} {log : List Act}
    (h : Authenticated H keyHex st env log)
    (hsock : ∀ c ∈ sock, Completed H keyHex st env log c) :
    Authenticated H keyHex st env
      (sendLoop H env (CString.utf8 st.fileId) keyHex frame listen calls sock log) := by
  induction calls generalizing sock log with
  | nil =>
    cases sock with
    | none => exact h
    | some c => exact authenticated_file h (hsock c rfl) frame
  | cons polls calls ih =>
    cases sock with
    | none => exact h
    | some c =>
      have hsent := authenticated_file h (hsock c rfl) frame
      unfold sendLoop
      dsimp only
      split_ifs
      · have hrace := race_authenticated hkey hsent true [] none polls
        rw [hst] at hrace
        exact ih hrace.1 hrace.2
      · exact hsent

lemma transfer_authenticated {keyHex : Bytes} (hkey : keyHex ≠ []) (st : Xfer) (net : Net) :
    Authenticated H keyHex st net.env (transfer H keyHex st net) := by
  have hnil : Authenticated H keyHex st net.env [] := fun pre a post heq => by simp at heq
  unfold transfer
  dsimp only
  generalize decide (st.listenFd ≠ invalidSock) = listen
  generalize (List.range st.peerAddrs.length).map net.conn = conn
  generalize (if natPunch st = [] then none else net.nat) = nat
  have hrace := race_authenticated hkey hnil listen conn nat net.polls
  by_cases hst : st.isSender = true
  · rw [if_pos hst]
    rw [hst] at hrace
    exact sendLoop_authenticated hkey hst net.frame listen net.calls hrace.1 hrace.2
  · rw [if_neg hst]
    rw [Bool.eq_false_iff.mpr hst] at hrace
    unfold receiverThread
    split
    · next log heq => rw [heq] at hrace; exact hrace.1
    · next c log heq =>
      rw [heq] at hrace
      exact authenticated_file hrace.1 (hrace.2 c rfl) net.frame

lemma outs_transfer (file : Option Bytes) (es : List (Resources.Event × Net)) :
    ∀ o ∈ Run.outs (step H lib platform) (main platform file) es,
      o.log = transfer H (configLoad platform file).1.aesKey o.st o.net := by
  refine Run.outs_inv (I := fun p : Program => p.cfg = (configLoad platform file).1) ?_ rfl es
  rintro p ⟨e, net⟩ hcfg
  refine ⟨hcfg, fun o ho => ?_⟩
  simp only [step, transfers] at ho
  split at ho
  · split at ho
    · simp at ho
    · split_ifs at ho
      · obtain rfl := List.mem_singleton.mp ho
        exact congrArg (fun cfg : ClientConfig => transfer H cfg.aesKey _ net) hcfg
      · simp at ho
  · simp at ho

/-! ### Without a handshake -/

/-- A peer that connects at once. -/
def connects (env : Env) : Net :=
  ⟨env, fun _ => some 3, none, [⟨none, fun _ => .connected, .idle⟩], [], [1, 2, 3]⟩

/-- Before anything was announced, a peer info without an id starts a receiver. -/
def firstTransfer (net : Net) : List (Resources.Event × Net) := [
  (.message ⟨-1, []⟩ (.filePeerInfo ⟨"", "laptop", ["192.168.0.2:40002"], "", true, "receiver", 3⟩),
    net),
  (.threadStart 0, net),
  (.threadEnd 0 ⟨none, 0, 0⟩, net)]

/-- The receiver of such a transfer. -/
structure FirstReceiver (st : Xfer) : Prop where
  isSender : st.isSender = false
  fileId : st.fileId = ""
  peers : st.peerAddrs.length = 1
  natPunch : natPunch st = []

variable (H lib platform) in
lemma firstTransfer_out (p : Program) (hnode : p.node = .start) (net : Net) :
    ∃ st, FirstReceiver st ∧
      ⟨st, net, transfer H p.cfg.aesKey st net⟩ ∈
        Run.outs (step H lib platform) p (firstTransfer net) := by
  refine ⟨withPeer (options platform p.cfg)
    ⟨"", "laptop", ["192.168.0.2:40002"], "", true, "receiver", 3⟩ .zero, ⟨rfl, rfl, rfl, rfl⟩, ?_⟩
  simp [firstTransfer, Run.outs, step, transfers, Announced.step, hnode, Announced.Node.start,
    Client.start, onMessage, onFilePeerInfo, Xfer.zero, threadStart, withPeer]

lemma transfer_without_key {st : Xfer} (h : FirstReceiver st) (env : Env) :
    transfer H [] st (connects env) = [.file 3 [1, 2, 3], .close 3] := by
  simp [transfer, h.isSender, h.peers, h.natPunch, connects, receiverThread, ftLanTransferAuth,
    ftLanTransfer, lanTransfer, loop, turn, probeAccepted, probeSlots, probeSlot, List.range_succ]

lemma transfer_with_key {keyHex : Bytes} (hkey : keyHex ≠ []) {st : Xfer} (h : FirstReceiver st)
    {env : Env} (hcode : (ftAuthRecv H (env [] 3) (CString.utf8 st.fileId) keyHex).code = 0) :
    Act.file 3 [1, 2, 3] ∈ transfer H keyHex st (connects env) := by
  simp [transfer, h.isSender, h.peers, h.natPunch, connects, receiverThread, ftLanTransferAuth,
    hkey, lanTransfer, loop, turn, probeAccepted, probeSlots, probeSlot, List.range_succ,
    tryAuthenticate, hcode]

/-- A peer that shows the proof for the key. -/
def provesKey (H : Bytes → Bytes → Bytes) (fileId keyHex : Bytes) : Env :=
  fun _ _ => ⟨[4], fun _ => [authFrame ((ftComputeHmac H fileId keyHex).getD [])]⟩

lemma ftComputeHmac_length {fileId keyHex hmac : Bytes}
    (h : ftComputeHmac H fileId keyHex = some hmac) : hmac.length = 32 := by
  unfold ftComputeHmac at h
  dsimp only at h
  split at h
  · cases h
  · split_ifs at h with hshort hlen
    obtain rfl := Option.some.inj h
    exact hlen

lemma provesKey_code (hH : ∀ k m, (H k m).length = 32) {keyHex : Bytes} (h : Readable keyHex)
    (fileId : Bytes) (log : List Act) (c : Sock) :
    (ftAuthRecv H (provesKey H fileId keyHex log c) fileId keyHex).code = 0 := by
  have hsome : (ftComputeHmac H fileId keyHex).isSome = true := (ftComputeHmac_isSome_iff hH).mpr h
  obtain ⟨hmac, hhmac⟩ := Option.isSome_iff_exists.mp hsome
  rw [ftAuthRecv_code hhmac (ftComputeHmac_length hhmac)]
  refine ⟨?_, rfl⟩
  have hne : authFrame hmac ≠ [] := by simp [authFrame, ascii]
  simp [provesKey, hhmac, Pieces.available_cons hne]

variable (lib platform) in
/-- Without a key, or with one that is readable, there is a run in which a file comes. -/
lemma exists_transfer (hH : ∀ k m, (H k m).length = 32) {file : Option Bytes}
    (hread : (configLoad platform file).1.aesKey ≠ [] →
      Readable (configLoad platform file).1.aesKey) :
    ∃ es, ∃ o ∈ Run.outs (step H lib platform) (main platform file) es,
      Act.file 3 [1, 2, 3] ∈ o.log := by
  by_cases hkey : (configLoad platform file).1.aesKey = []
  · obtain ⟨st, hst, hout⟩ := firstTransfer_out H lib platform (main platform file) rfl
      (connects fun _ _ => ⟨[], fun _ => []⟩)
    refine ⟨_, _, hout, ?_⟩
    show _ ∈ transfer H (configLoad platform file).1.aesKey st _
    rw [hkey, transfer_without_key hst]
    simp
  · obtain ⟨st, hst, hout⟩ := firstTransfer_out H lib platform (main platform file) rfl
      (connects (provesKey H (CString.utf8 "") (configLoad platform file).1.aesKey))
    refine ⟨_, _, hout, transfer_with_key hkey hst ?_⟩
    rw [hst.fileId]
    exact provesKey_code hH (hread hkey) (CString.utf8 "") [] 3

lemma no_transfer (hH : ∀ k m, (H k m).length = 32) {keyHex : Bytes} (hkey : keyHex ≠ [])
    (hunread : ¬ Readable keyHex) (st : Xfer) (net : Net) (c : Sock) (bs : Bytes) :
    Act.file c bs ∉ transfer H keyHex st net := by
  intro hfile
  -- a file comes after a handshake, and none can succeed
  obtain ⟨pre, post, -, hdone⟩ := Run.legal_of_mem (transfer_authenticated hkey st net) hfile
  obtain ⟨pre', post', -, hcode⟩ := hdone c bs rfl
  exact handshake_code_ne hH hunread st net.env pre' c hcode

/-- **No unauthenticated transfer.** For every content of the configuration file, files come after a
completed handshake in every run, and not at all with a key that `config_load` rejects, if and only
if the key is well formed, or there is one in which `sscanf` does not find 32 numbers. -/
theorem no_unauthenticated_iff (hH : ∀ k m, (H k m).length = 32) (lib : Lib) (platform : Platform)
    (file : Option Bytes) :
    NoUnauthenticated H lib platform file ↔
      ValidKey (configLoad platform file).1.aesKey ∨
        (configLoad platform file).1.aesKey ≠ [] ∧
          ¬ Readable (configLoad platform file).1.aesKey := by
  constructor
  · intro hall
    by_contra hcond
    push Not at hcond
    obtain ⟨hinvalid, hread⟩ := hcond
    have hreasons : keyReasons (configLoad platform file).1.aesKey ≠ [] :=
      fun hnil => hinvalid (keyReasons_eq_nil.mp hnil)
    obtain ⟨es, o, ho, hfile⟩ := exists_transfer lib platform hH hread
    exact (hall es o ho).2 hreasons 3 [1, 2, 3] hfile
  · intro hcond es o ho
    have hkey : (configLoad platform file).1.aesKey ≠ [] := by
      rcases hcond with hvalid | hother
      · intro hnil
        rw [hnil] at hvalid
        exact absurd hvalid (by decide)
      · exact hother.1
    rw [outs_transfer file es o ho]
    refine ⟨transfer_authenticated hkey o.st o.net, fun hreasons => ?_⟩
    rcases hcond with hvalid | hother
    · exact absurd (keyReasons_eq_nil.mpr hvalid) hreasons
    · exact no_transfer hH hkey hother.2 o.st o.net

/-- A configuration file, up to its key. -/
def sampleFile : Bytes :=
  ascii "server_host = 192.168.1.100\nserver_key = unused\nusername = u\npassword = p\n" ++
    ascii "device_id = desk\n# aes_key\n"

theorem sampleFile_with_key :
    NoUnauthenticated sampleHmac Resources.sampleLib .linux
      (some (sampleFile ++ ascii "aes_key = " ++ sampleKeyHex)) :=
  (no_unauthenticated_iff sampleHmac_length Resources.sampleLib .linux
    (some (sampleFile ++ ascii "aes_key = " ++ sampleKeyHex))).mpr (.inl (by decide +kernel))

/-- A file is announced, its receiver runs, and a peer connects. -/
def sampleRun : List (Resources.Event × Net) :=
  [.message ⟨5, []⟩ (.fileNotify (Announced.sampleNotify Resources.sampleId)),
    .message ⟨6, []⟩ (.filePeerInfo (Announced.samplePeer Resources.sampleId)), .threadStart 0,
    .threadEnd 0 ⟨some [1, 2, 3], 10, 20⟩].map fun e => (e, connects fun _ _ => ⟨[], fun _ => []⟩)

/-- The key is missing and the file is rejected, and still the program receives from anybody. -/
theorem sampleFile_without_key :
    (configLoad .linux (some sampleFile)).2 = -1 ∧
      ¬ NoUnauthenticated sampleHmac Resources.sampleLib .linux (some sampleFile) := by
  refine ⟨by decide +kernel, fun hall => ?_⟩
  have hlogs : (Run.outs (step sampleHmac Resources.sampleLib .linux)
      (main .linux (some sampleFile)) sampleRun).map Transfer.log =
      [[.file 3 [1, 2, 3], .close 3]] := by
    decide +kernel
  obtain ⟨o, ho, hlog⟩ := List.mem_map.mp (hlogs ▸ List.mem_singleton.mpr rfl)
  obtain ⟨pre, post, hnil, -⟩ :=
    (hall sampleRun o ho).1 [] (.file 3 [1, 2, 3]) [.close 3] hlog 3 [1, 2, 3] rfl
  simp at hnil

end SyncClipboard.AuthRequired
