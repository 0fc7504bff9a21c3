import SyncClipboard.LevelInv

/-!
The file transfer levels of the server and of both clients, from end to end.

The level of a client is never told to anybody: a sender that allows no relay is asked for the file
and sends it, and a client punches towards a peer that does not. So a method is used as soon as the
ends that look at it allow it, and the levels at which this is always every end are those of
`gateHolds_iff`.

A client punches when it calls `ft_nat_punch_start`. With the addresses that the server sends, this returns
before it has a socket (`PublicAddr`).
-/

namespace SyncClipboard.LevelGate

open ServerModel Client Parties LevelInv
open Dispatcher hiding step

/-- A method is used only if all three allow it. -/
structure Gated (net : Setup) (os : List Out) : Prop where
  offer : ∀ r m, .client r (.send (.fileOffer m)) ∈ os →
    1 ≤ min net.cfg.fileTransferLevel (net.level .sender)
  punch : ∀ r addr port, .client r (.natPunch addr port) ∈ os →
    2 ≤ min net.cfg.fileTransferLevel (min (net.level .sender) (net.level .receiver))
  sent : ∀ r m, .client r (.send (.fileRelay m)) ∈ os → m.data ≠ none →
    3 ≤ min net.cfg.fileTransferLevel (min (net.level .sender) (net.level .receiver))
  relayed : ∀ t m b, .server (.send t (.fileRelayData m) b) ∈ os →
    3 ≤ min net.cfg.fileTransferLevel (min (net.level .sender) (net.level .receiver))

/-- On these platforms and at these levels the gate holds in every run. -/
def GateHolds (pS pR : Platform) (s cS cR : ℤ) : Prop :=
  ∀ net : Setup, net.cfg.fileTransferLevel = s →
    (net.opt .sender).platform = pS → (net.opt .receiver).platform = pR →
    net.level .sender = cS → net.level .receiver = cR →
    ∀ ls : List Label, (∀ l ∈ ls, InRole l) → Gated net (Run.outs (step net) (begin net) ls)

/-! ### A transfer at given levels

A laptop sends an image to a desktop behind another address: under Linux from the clipboard, under
Windows from a file. Every state on the way is written out for all levels at once, up to the two
messages that introduce the clients to each other. -/

structure Case where
  pS : Platform
  pR : Platform
  s : ℤ
  cS : ℤ
  cR : ℤ

/-- The hash of the bytes 1, 2, 3. -/
def imageHash : String := "039058c6f2c0cb492c533b0a4d14ef77cc0f78abccced5287d84a1a2011cfb81"

/-- The two devices; the library functions are right where they are used. -/
def couple (k : Case) : Setup where
  cfg :=
    { fileTransferLevel := k.s
      udpPort := 9000
      maxRelaySize := 1000
      session := fun sid =>
        if sid = "laptop" then ⟨some "user", some "laptop", some "192.0.2.1"⟩
        else ⟨some "user", some "desktop", some "198.51.100.7"⟩ }
  sid
    | .sender => "laptop"
    | .receiver => "desktop"
  sid_ne := by decide
  lib :=
    { sha256 := fun _ => imageHash
      base64Encode := fun _ => "AQID"
      base64Decode := fun _ => some [1, 2, 3]
      bmpToPng := fun _ => none }
  opt
    | .sender => ⟨k.pS, k.cS, 500⟩
    | .receiver => ⟨k.pR, k.cR, 500⟩

def held : Platform → Held
  | .linux => ⟨some ("image/png", [1, 2, 3]), none, true, none⟩
  | .windows => ⟨none, some ("C:\\clipboard.png", some [1, 2, 3]), true, none⟩

/-- The laptop offers, the desktop is notified and asks for the file. -/
def request (pS : Platform) : List Label :=
  [.copy .sender ⟨5, ["10.0.0.2:4000"]⟩ "f" (held pS),
    .toServer 0 0 allOk, .toClient 0 ⟨6, ["10.0.0.3:4000"]⟩, .toServer 0 0 allOk]

def laptop : ClientSession := ⟨"laptop", true, true, "user", "laptop"⟩

def desktop : ClientSession := ⟨"desktop", true, true, "user", "desktop"⟩

def theOffer : FileOffer :=
  ⟨none, some "f", some "clipboard.png", some "image/png", 3, some imageHash, some ["10.0.0.2:4000"]⟩

def theNotice (s : ℤ) : FileNotify :=
  ⟨"f", some "clipboard.png", some "image/png", 3, some imageHash, "laptop", ["10.0.0.2:4000"],
    if 2 ≤ s then "192.0.2.1" else "", if 3 ≤ s then 1000 else 0, if 2 ≤ s then 9000 else 0, s⟩

def theRequest : FileRequest := ⟨none, some "f", some ["10.0.0.3:4000"]⟩

def peerInfo (s : ℤ) : Role → FilePeerInfo
  | .sender => ⟨"f", "desktop", ["10.0.0.3:4000"], "198.51.100.7", false, "sender", s⟩
  | .receiver => ⟨"f", "laptop", ["10.0.0.2:4000"], "192.0.2.1", false, "receiver", s⟩

def stored : Offer :=
  ⟨"f", some "clipboard.png", some "image/png", 3, some imageHash, "laptop", "laptop", "user",
    some ["10.0.0.2:4000"], "192.0.2.1", 0⟩

/-- The server before and after the offer. -/
def idleServer : Server := ⟨[laptop, desktop], fun _ => none, fun _ => none⟩

def offerServer : Server := { idleServer with activeOffers := registerOffer stored fun _ => none }

def connected (s : ℤ) : State := { Client.start with serverFileLevel := s }

def offering (pS : Platform) (s : ℤ) : State :=
  { connected s with
    xfer := { Xfer.zero with
      fileId := "f"
      fileName := "clipboard.png"
      mimeType := "image/png"
      fileSize := 3
      checksum := imageHash
      data := some [1, 2, 3]
      isSender := true
      listenFd := 5
      phase := 1 }
    lastImgHash := if pS = .linux then imageHash else ""
    lastFileHash := if pS = .windows then imageHash else "" }

def asking (s : ℤ) : State :=
  { connected s with
    xfer := { Xfer.zero with
      fileId := "f"
      fileName := "clipboard.png"
      mimeType := "image/png"
      checksum := imageHash
      fromDevice := "laptop"
      fileSize := 3
      maxRelaySize := if 3 ≤ s then 1000 else 0
      udpPort := if 2 ≤ s then 9000 else 0
      listenFd := 6
      phase := 1 } }

def offerSent (pS : Platform) (s : ℤ) : Sys where
  server := idleServer
  client := Function.update (fun _ => connected s) .sender (offering pS s)
  toServer := [(.sender, .fileOffer theOffer)]
  toClient := []

def noticeSent (pS : Platform) (s : ℤ) : Sys where
  server := offerServer
  client := (offerSent pS s).client
  toServer := []
  toClient := [(.receiver, .fileNotify (theNotice s))]

def requestSent (pS : Platform) (s : ℤ) : Sys where
  server := offerServer
  client := Function.update (noticeSent pS s).client .receiver (asking s)
  toServer := [(.receiver, .fileRequest theRequest)]
  toClient := []

def introduced (pS : Platform) (s : ℤ) : Sys where
  server := offerServer
  client := (requestSent pS s).client
  toServer := []
  toClient := [(.sender, .filePeerInfo (peerInfo s .sender)),
    (.receiver, .filePeerInfo (peerInfo s .receiver))]

variable {k : Case}

lemma effective_couple {r : Role} (hs : 1 ≤ k.s) (hc : 1 ≤ (couple k).level r) :
    ¬ effectiveFileLevel ((couple k).opt r) (connected k.s) ≤ 0 := by
  have hlevel : (connected k.s).serverFileLevel = k.s := rfl
  have hopt : ((couple k).opt r).fileTransferLevel = (couple k).level r := rfl
  unfold effectiveFileLevel
  split_ifs <;> omega

lemma step_toServer {net : Setup} {y : Sys} {i : ℕ} {r : Role} {m : WsMessage} {now : ℤ}
    {link : Net} {st : Server} {acts : List Act} (hi : y.toServer[i]? = some (r, m))
    (h : Dispatcher.step net.cfg y.server (.text (net.sid r) (some m) now link) = (st, acts)) :
    step net y (.toServer i now link) =
      ({ y with
        server := st
        toServer := y.toServer.eraseIdx i
        toClient := y.toClient ++ delivered net acts }, acts.map .server) := by
  simp only [step, hi, serverDoes, h]

lemma step_toClient {net : Setup} {y : Sys} {i : ℕ} {r : Role} {m : WsMessage} {l : Listening}
    {p : State × List Did} (hi : y.toClient[i]? = some (r, m))
    (h : onMessage net.lib (net.opt r) l m (y.client r) = p) :
    step net y (.toClient i l) = clientDoes { y with toClient := y.toClient.eraseIdx i } r p := by
  simp only [step, hi, h]

/-- A message of a registered session, with the result of its handler. -/
lemma text_of_handle {cfg : Config} {link : Net} {now : ℤ} {sid : SessionId} {cs : ClientSession}
    {msg : WsMessage} {st st' : Server} {acts : List Act}
    (hg : getSession sid st.sessions = some cs)
    (h : handle cfg link now sid cs msg st = ⟨st', acts, none⟩) :
    Dispatcher.step cfg st (.text sid (some msg) now link) = (st', acts) := by
  simp only [Dispatcher.step, react, handleTextMessage, dispatch, hg, h]

lemma getSession_laptop : getSession "laptop" [laptop, desktop] = some laptop := by decide

lemma getSession_desktop : getSession "desktop" [laptop, desktop] = some desktop := by
  decide

lemma copy_step (hs : 1 ≤ k.s) (hcS : 1 ≤ k.cS) :
    (step (couple k) (begin (couple k)) (.copy .sender ⟨5, ["10.0.0.2:4000"]⟩ "f"
      (held k.pS))).1 = offerSent k.pS k.s := by
  have heff := effective_couple (r := .sender) hs hcS
  have hhash : imageHash ≠ "" := by decide
  have hmime : strncpy 63 "image/png" = "image/png" := by decide
  have hname : imageName "image/png" = "clipboard.png" := by decide
  have hfile : fileNameOf ⟨.windows, k.cS, 500⟩ "C:\\clipboard.png" = "clipboard.png" := by
    simp only [fileNameOf]
    decide
  have hshort : strncpy 255 "clipboard.png" = "clipboard.png" := by decide
  have htype : mimeFromExtension ⟨.windows, k.cS, 500⟩ "clipboard.png" = "image/png" := by
    simp only [mimeFromExtension]
    decide
  have hcopy : clipboardChange (couple k).lib ((couple k).opt .sender) ⟨5, ["10.0.0.2:4000"]⟩ "f"
      (held k.pS) (connected k.s) =
      (offering k.pS k.s, [.close 0, .send (.fileOffer theOffer)]) := by
    obtain ⟨pS, pR, s, cS, cR⟩ := k
    rw [clipboardChange]
    simp only [if_neg heff]
    cases pS
    · simp only [held, couple, offerImage, connected, Client.start, if_neg hhash, hmime, hname,
        Nat.lt_irrefl, if_false, offer]
      rfl
    · simp only [held, couple, offerFile, connected, Client.start, if_neg hhash, hfile, hshort,
        htype, hmime, Nat.lt_irrefl, or_false, offer]
      rfl
  show (clientDoes _ _ (clipboardChange _ _ _ _ _ (connected k.s))).1 = _
  rw [hcopy]
  rfl

lemma notify_step (hs : 1 ≤ k.s) :
    (step (couple k) (offerSent k.pS k.s) (.toServer 0 0 allOk)).1 = noticeSent k.pS k.s := by
  have h0 : ¬ (couple k).cfg.fileTransferLevel ≤ 0 := by
    show ¬ k.s ≤ 0
    omega
  have h1 : 1 ≤ (couple k).cfg.fileTransferLevel := hs
  have hnotice : notifyOf (couple k).cfg "laptop" laptop "f" theOffer =
      .fileNotify (theNotice k.s) := by
    simp only [notifyOf, if_pos h1]
    rfl
  have hhandle : handle (couple k).cfg allOk 0 "laptop" laptop (.fileOffer theOffer) idleServer =
      ⟨offerServer, [.send "desktop" (.fileNotify (theNotice k.s)) true], none⟩ := by
    rw [← hnotice]
    simp only [handle, handleFileOffer, if_neg h0]
    rfl
  rw [step_toServer (r := .sender) rfl (text_of_handle getSession_laptop hhandle)]
  rfl

lemma request_step (hs : 1 ≤ k.s) (hcR : 1 ≤ k.cR) :
    (step (couple k) (noticeSent k.pS k.s) (.toClient 0 ⟨6, ["10.0.0.3:4000"]⟩)).1 =
      requestSent k.pS k.s := by
  have heff := effective_couple (r := .receiver) hs hcR
  have hid : strncpy 63 "f" = "f" := by decide
  have hname : strncpy 255 "clipboard.png" = "clipboard.png" := by decide
  have hmime : strncpy 63 "image/png" = "image/png" := by decide
  have hhash : strncpy 64 imageHash = imageHash := by decide
  have hfrom : strncpy 127 "laptop" = "laptop" := by decide
  have hmsg : onMessage (couple k).lib ((couple k).opt .receiver) ⟨6, ["10.0.0.3:4000"]⟩
      (.fileNotify (theNotice k.s)) (connected k.s) =
      (asking k.s, [.close 0, .send (.fileRequest theRequest)]) := by
    simp only [onMessage, onFileNotify, if_neg heff, theNotice, Option.getD_some, hid, hname, hmime,
      hhash, hfrom]
    rfl
  rw [step_toClient (r := .receiver) rfl hmsg]
  rfl

lemma introduce_step (hs : 2 ≤ k.s) :
    (step (couple k) (requestSent k.pS k.s) (.toServer 0 0 allOk)).1 = introduced k.pS k.s := by
  have h1 : 1 ≤ (couple k).cfg.fileTransferLevel := by
    show 1 ≤ k.s
    omega
  have h2 : 2 ≤ (couple k).cfg.fileTransferLevel := hs
  have hsender : peerInfoForSender (couple k).cfg "desktop" desktop "f" theRequest stored =
      .filePeerInfo (peerInfo k.s .sender) := by
    simp only [peerInfoForSender, if_pos h1, if_pos h2]
    rfl
  have hreceiver : peerInfoForReceiver (couple k).cfg "desktop" "f" stored =
      .filePeerInfo (peerInfo k.s .receiver) := by
    simp only [peerInfoForReceiver, if_pos h1, if_pos h2]
    rfl
  have hhandle : handle (couple k).cfg allOk 0 "desktop" desktop (.fileRequest theRequest) offerServer =
      ⟨offerServer, [.send "laptop" (.filePeerInfo (peerInfo k.s .sender)) true,
        .send "desktop" (.filePeerInfo (peerInfo k.s .receiver)) true], none⟩ := by
    rw [← hsender, ← hreceiver]
    rfl
  rw [step_toServer (r := .receiver) rfl (text_of_handle getSession_desktop hhandle)]
  rfl

lemma request_exec (hs : 2 ≤ k.s) (hcS : 1 ≤ k.cS) (hcR : 1 ≤ k.cR) :
    Run.exec (step (couple k)) (begin (couple k)) (request k.pS) = introduced k.pS k.s := by
  have hs1 : 1 ≤ k.s := by omega
  simp only [request, Run.exec_cons, Run.exec_nil, copy_step hs1 hcS, notify_step hs1,
    request_step hs1 hcR, introduce_step hs]

/-! ### What happens from there -/

/-- The copy of `g_xfer` that a client's thread gets. -/
def threadXfer (pS : Platform) (opt : Options) (s : ℤ) (r : Role) : Xfer :=
  withPeer opt (peerInfo s r) ((introduced pS s).client r).xfer

lemma threadXfer_eff (pS : Platform) {opt : Options} {s n : ℤ} (hs : n ≤ s) (hc : n ≤ opt.fileTransferLevel)
    (r : Role) : n ≤ (threadXfer pS opt s r).effFileLevel := by
  have hlevel : (peerInfo s r).fileTransferLevel = s := by cases r <;> rfl
  simp only [threadXfer, withPeer, hlevel]
  split_ifs <;> omega

def joined (pS : Platform) (opt : Options) (s : ℤ) (r : Role) : State :=
  { (introduced pS s).client r with
    xfer := if (threadXfer pS opt s r).isSender then threadXfer pS opt s r
      else { threadXfer pS opt s r with listenFd := invalidSock }
    threads := [⟨threadXfer pS opt s r, false⟩] }

lemma onMessage_peerInfo (pS : Platform) (lib : Lib) (opt : Options) (l : Listening) (s : ℤ) (r : Role) :
    onMessage lib opt l (.filePeerInfo (peerInfo s r)) ((introduced pS s).client r) =
      (joined pS opt s r, []) := by
  cases r <;> rfl

/-- Where the message to a client is in `introduced`. -/
def place : Role → ℕ
  | .sender => 0
  | .receiver => 1

lemma introduced_at (pS : Platform) (s : ℤ) (r : Role) :
    (introduced pS s).toClient[place r]? = some (r, .filePeerInfo (peerInfo s r)) := by
  cases r <;> rfl

lemma natPunch_threadXfer (pS : Platform) {opt : Options} {s : ℤ} (hs : 2 ≤ s) (hc : 2 ≤ opt.fileTransferLevel)
    (r : Role) : ∃ addr port, natPunch (threadXfer pS opt s r) = [.natPunch addr port] := by
  have heff := threadXfer_eff pS hs hc r
  have hlan : (threadXfer pS opt s r).sameLan = false := by cases r <;> rfl
  have haddr : (threadXfer pS opt s r).peerPublicAddr ≠ "" := by
    have hsender : strncpy 63 "198.51.100.7" ≠ "" := by decide
    have hreceiver : strncpy 63 "192.0.2.1" ≠ "" := by decide
    cases r
    · exact hsender
    · exact hreceiver
  exact ⟨_, _, if_pos ⟨hlan, haddr, heff⟩⟩

/-- A client punches when it and the server allow it, whatever the other allows. -/
lemma punches (hs : 2 ≤ k.s) (r : Role) (hc : 2 ≤ (couple k).level r) :
    ∃ addr port, .client r (.natPunch addr port) ∈
      Run.outs (step (couple k)) (introduced k.pS k.s) [.toClient (place r) ⟨0, []⟩, .threadStart r 0] := by
  obtain ⟨addr, port, hpunch⟩ := natPunch_threadXfer k.pS hs hc r
  have hstart : (threadStart 0 (joined k.pS ((couple k).opt r) k.s r)).2 = [.natPunch addr port] := hpunch
  refine ⟨addr, port, ?_⟩
  rw [Run.outs_cons, step_toClient (introduced_at k.pS k.s r) (onMessage_peerInfo k.pS _ _ _ k.s r),
    Run.outs_cons]
  simp [step, clientDoes, hstart]

/-- The desktop gets no connection and asks for the relay. -/
def giveUp : List Label :=
  [.toClient 1 ⟨0, []⟩, .threadStart .receiver 0, .threadEnd .receiver 0 ⟨none, 0, 0⟩]

def relay : List Label := [.toServer 0 0 allOk, .toClient 1 ⟨0, []⟩]

def relayRequest : FileRelay := ⟨none, some "f", 0, none, none⟩

/-- The desktop while its thread runs, and after it. -/
def running (pS : Platform) (opt : Options) (s : ℤ) : State :=
  { joined pS opt s .receiver with
    threads := [⟨threadXfer pS opt s .receiver, true⟩]
    activeCount := 1 }

def ended (pS : Platform) (opt : Options) (s : ℤ) : State := { joined pS opt s .receiver with threads := [] }

def relayAsked (pS : Platform) (opt : Options) (s : ℤ) : Sys where
  server := offerServer
  client := Function.update (introduced pS s).client .receiver (ended pS opt s)
  toServer := [(.receiver, .fileRelay relayRequest)]
  toClient := [(.sender, .filePeerInfo (peerInfo s .sender))]

lemma threadEnd_running (pS : Platform) (lib : Lib) (opt : Options) {s : ℤ} (hs : 3 ≤ s)
    (hc : 3 ≤ opt.fileTransferLevel) :
    threadEnd lib opt 0 ⟨none, 0, 0⟩ (running pS opt s) =
      (ended pS opt s, [.send (.fileRelay relayRequest), .close 6]) := by
  have heff := threadXfer_eff pS hs hc .receiver
  have hsize : (threadXfer pS opt s .receiver).fileSize ≤ (threadXfer pS opt s .receiver).maxRelaySize := by
    show (3 : ℤ) ≤ if 3 ≤ s then 1000 else 0
    rw [if_pos hs]
    omega
  have hend : receiverEnd ⟨none, 0, 0⟩ (threadXfer pS opt s .receiver) =
      [.send (.fileRelay relayRequest), .close 6] := by
    simp only [receiverEnd, if_pos (And.intro heff hsize)]
    rfl
  rw [← hend]
  rfl

lemma giveUp_exec (hs : 3 ≤ k.s) (hcR : 3 ≤ k.cR) :
    Run.exec (step (couple k)) (introduced k.pS k.s) giveUp =
      relayAsked k.pS ((couple k).opt .receiver) k.s := by
  have hjoin : step (couple k) (introduced k.pS k.s) (.toClient 1 ⟨0, []⟩) = _ :=
    step_toClient (introduced_at k.pS k.s .receiver) (onMessage_peerInfo k.pS _ _ _ k.s .receiver)
  have hstart : threadStart 0 (joined k.pS ((couple k).opt .receiver) k.s .receiver) =
      (running k.pS ((couple k).opt .receiver) k.s,
        natPunch (threadXfer k.pS ((couple k).opt .receiver) k.s .receiver)) := rfl
  have hpunch : ∀ st, sent .receiver (natPunch st) = [] := by
    intro st
    unfold natPunch
    split_ifs <;> rfl
  have hend := threadEnd_running k.pS (couple k).lib ((couple k).opt .receiver) hs hcR
  simp only [giveUp, Run.exec_cons, Run.exec_nil, hjoin]
  simp only [step, clientDoes, Function.update_self, hstart, Function.update_idem, hend, hpunch]
  rfl

/-- The laptop sends the file to the server when the server and the desktop allow it. -/
lemma sends_file (hs : 3 ≤ k.s) (hcR : 3 ≤ k.cR) :
    .client .sender (.send (.fileRelay ⟨none, some "f", 3, some "desktop", some "AQID"⟩)) ∈
      Run.outs (step (couple k)) (introduced k.pS k.s) (giveUp ++ relay) := by
  have h3 : ¬ (couple k).cfg.fileTransferLevel < 3 := by
    show ¬ k.s < 3
    omega
  have hhandle : handle (couple k).cfg allOk 0 "desktop" desktop (.fileRelay relayRequest) offerServer =
      ⟨offerServer, [.send "laptop" (.fileRelayRequest ⟨"f", "desktop"⟩) true], none⟩ := by
    simp only [handle, handleFileRelay, if_neg h3]
    rfl
  rw [Run.outs_append, giveUp_exec hs hcR, relay, Run.outs_cons, Run.outs_cons,
    step_toServer (r := .receiver) rfl (text_of_handle getSession_desktop hhandle)]
  refine List.mem_append_right _ (List.mem_append_right _ (List.mem_append_left _ ?_))
  exact List.mem_singleton.mpr rfl

/-! ### The levels at which the gate holds -/

/-- What the runs above show of the gate. -/
lemma gated_of_holds (h : GateHolds k.pS k.pR k.s k.cS k.cR) (ls : List Label)
    (hls : ∀ l ∈ ls, InRole l) (hs : 2 ≤ k.s) (hcS : 1 ≤ k.cS) (hcR : 1 ≤ k.cR) :
    Gated (couple k) (Run.outs (step (couple k)) (begin (couple k)) (request k.pS) ++
      Run.outs (step (couple k)) (introduced k.pS k.s) ls) := by
  have hrequest : ∀ l ∈ request k.pS, InRole l := by simp [request, InRole]
  have hg := h (couple k) rfl rfl rfl rfl rfl (request k.pS ++ ls) fun l hl =>
    (List.mem_append.mp hl).elim (hrequest l) (hls l)
  rwa [Run.outs_append, request_exec hs hcS hcR] at hg

/-- The client that allows less is passed over: one allows to punch and the other only the local
network. -/
lemma not_holds_of_punch (hs : 2 ≤ k.s) (hmin : min k.cS k.cR = 1) (hmax : 2 ≤ max k.cS k.cR) :
    ¬ GateHolds k.pS k.pR k.s k.cS k.cR := by
  intro h
  obtain ⟨r, hr⟩ : ∃ r, 2 ≤ (couple k).level r := by
    by_cases hc : 2 ≤ k.cS
    · exact ⟨.sender, hc⟩
    · have hc' : 2 ≤ k.cR := by omega
      exact ⟨.receiver, hc'⟩
  obtain ⟨addr, port, hmem⟩ := punches hs r hr
  have hg := gated_of_holds h [.toClient (place r) ⟨0, []⟩, .threadStart r 0]
    (by simp [InRole]) hs (by omega) (by omega)
  have h2 : 2 ≤ min k.s (min k.cS k.cR) := hg.punch r addr port (List.mem_append_right _ hmem)
  omega

/-- The sender that does not allow the relay is passed over. -/
lemma not_holds_of_relay (hs : 3 ≤ k.s) (hcS : 1 ≤ k.cS) (hlow : k.cS ≤ 2) (hcR : 3 ≤ k.cR) :
    ¬ GateHolds k.pS k.pR k.s k.cS k.cR := by
  intro h
  have hg := gated_of_holds h (giveUp ++ relay) (by simp [giveUp, relay, InRole]) (by omega)
    hcS (by omega)
  have h3 : 3 ≤ min k.s (min k.cS k.cR) :=
    hg.sent .sender _ (List.mem_append_right _ (sends_file hs hcR)) (by simp)
  omega

/-- **The level gate from end to end.** It holds in every run exactly where no client allows more
than the other, with the server's consent, while the other allows something: to punch, or, as
the receiver, the relay. -/
theorem gateHolds_iff (pS pR : Platform) (s cS cR : ℤ) :
    GateHolds pS pR s cS cR ↔
      ¬ (2 ≤ s ∧ min cS cR = 1 ∧ 2 ≤ max cS cR) ∧ ¬ (3 ≤ s ∧ cS = 2 ∧ 3 ≤ cR) := by
  constructor
  · intro h
    refine ⟨fun hp => ?_, fun hr => ?_⟩
    · exact not_holds_of_punch (k := ⟨pS, pR, s, cS, cR⟩) hp.1 hp.2.1 hp.2.2 h
    · obtain ⟨hs, hcS, hcR⟩ := hr
      have h1 : 1 ≤ cS := by omega
      have h2 : cS ≤ 2 := by omega
      exact not_holds_of_relay (k := ⟨pS, pR, s, cS, cR⟩) hs h1 h2 hcR h
  · rintro ⟨hpunch, hrelay⟩ net rfl - - rfl rfl ls hls
    have hall : ∀ o ∈ Run.outs (step net) (begin net) ls, Allowed net o := run_allowed hls
    have hrelays : Relays net → 3 ≤ min net.cfg.fileTransferLevel
        (min (net.level .sender) (net.level .receiver)) := by
      rintro ⟨hs, hcS, hcR⟩
      omega
    refine ⟨?_, ?_, ?_, ?_⟩
    · intro r m hmem
      obtain ⟨hs, hcS⟩ := hall _ hmem
      omega
    · intro r addr port hmem
      obtain ⟨⟨hs, hcS⟩, hcR, hs2, hr2⟩ := hall _ hmem
      cases r <;> omega
    · exact fun r m hmem _ => hrelays (hall _ hmem)
    · exact fun t m b hmem => hrelays (hall _ hmem)

/-- A sender that allows only the local network relays its file through the server. -/
theorem localSender_relays : ¬ GateHolds .linux .linux 3 1 3 :=
  not_holds_of_relay (k := ⟨.linux, .linux, 3, 1, 3⟩) (by decide) (by decide) (by decide) (by decide)

end SyncClipboard.LevelGate
