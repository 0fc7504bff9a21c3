import SyncClipboard.Acts
import SyncClipboard.Parties
import Mathlib.Order.Defs.LinearOrder

/-!
What lies behind every message, thread and output of a transfer, in terms of the file transfer
levels: the server looks at its own, and each client at the smaller of its own and the server's.
-/

namespace SyncClipboard.LevelInv

open ServerModel Acts Client Parties
open Dispatcher hiding step

variable (net : Setup)

/-! ### What each end looks at -/

/-- The sender and the server allow offers. -/
def Offers : Prop := 1 ≤ net.cfg.fileTransferLevel ∧ 1 ≤ net.level .sender

/-- The server and the receiver allow the relay. -/
def Relays : Prop :=
  3 ≤ net.cfg.fileTransferLevel ∧ 1 ≤ net.level .sender ∧ 3 ≤ net.level .receiver

/-- What lies behind a message on its way to the server; `started` says that the sender has offered
something. -/
def Up (started : Prop) (r : Role) : WsMessage → Prop
  | .fileOffer _ => r = .sender ∧ Offers net ∧ started
  | .fileRequest _ => Offers net ∧ 1 ≤ net.level .receiver ∧ started
  | .fileRelay _ => Relays net
  | _ => True

/-- What lies behind a message on its way to a client. -/
def Down (started : Prop) (r : Role) : WsMessage → Prop
  | .helloAck m => m.serverFileLevel = net.cfg.fileTransferLevel
  | .fileNotify _ => r = .receiver ∧ Offers net ∧ started
  | .filePeerInfo m => m.fileTransferLevel = net.cfg.fileTransferLevel ∧ Offers net ∧
      1 ≤ net.level .receiver ∧ started
  | .fileRelayRequest _ => Relays net
  | .fileRelayData _ => Relays net
  | _ => True

/-- What lies behind a thread. -/
structure ThreadOk (r : Role) (st : Xfer) : Prop where
  offers : Offers net
  receiver : 1 ≤ net.level .receiver
  eff : st.effFileLevel = min net.cfg.fileTransferLevel (net.level r)
  isSender : r = .sender → st.isSender = true

/-- What lies behind an output. -/
def Allowed : Out → Prop
  | .client _ (.send (.fileOffer _)) => Offers net
  | .client r (.natPunch _ _) => Offers net ∧ 1 ≤ net.level .receiver ∧
      2 ≤ net.cfg.fileTransferLevel ∧ 2 ≤ net.level r
  | .client _ (.send (.fileRelay _)) => Relays net
  | .server (.send _ (.fileRelayData _) _) => Relays net
  | _ => True

def Started (y : Sys) : Prop := (y.client .sender).xfer.isSender = true

structure Inv (y : Sys) : Prop where
  level : ∀ r, (y.client r).serverFileLevel = net.cfg.fileTransferLevel
  up : ∀ e ∈ y.toServer, Up net (Started y) e.1 e.2
  down : ∀ e ∈ y.toClient, Down net (Started y) e.1 e.2
  threads : ∀ r, ∀ t ∈ (y.client r).threads, ThreadOk net r t.st
  data : (y.client .receiver).xfer.data = none

variable {net}

lemma Up.mono {p q : Prop} (hpq : p → q) {r : Role} {m : WsMessage} (h : Up net p r m) :
    Up net q r m := by
  cases m with
  | fileOffer m => exact ⟨h.1, h.2.1, hpq h.2.2⟩
  | fileRequest m => exact ⟨h.1, h.2.1, hpq h.2.2⟩
  | _ => exact h

lemma Down.mono {p q : Prop} (hpq : p → q) {r : Role} {m : WsMessage} (h : Down net p r m) :
    Down net q r m := by
  cases m with
  | fileNotify m => exact ⟨h.1, h.2.1, hpq h.2.2⟩
  | filePeerInfo m => exact ⟨h.1, h.2.1, h.2.2.1, hpq h.2.2.2⟩
  | _ => exact h

/-! ### The clients -/

variable (net) in
/-- A call of a client function that is in order. -/
structure CallOk (y : Sys) (r : Role) (p : State × List Did) : Prop where
  level : p.1.serverFileLevel = net.cfg.fileTransferLevel
  threads : ∀ t ∈ p.1.threads, ThreadOk net r t.st
  data : r = .receiver → p.1.xfer.data = none
  started : Started y → Started (clientDoes y r p).1
  sends : ∀ m, .send m ∈ p.2 → Up net (Started (clientDoes y r p).1) r m
  punches : ∀ addr port, .natPunch addr port ∈ p.2 → Allowed net (.client r (.natPunch addr port))

lemma mem_sent {r : Role} {ds : List Did} {e : Role × WsMessage} :
    e ∈ sent r ds ↔ e.1 = r ∧ .send e.2 ∈ ds := by
  obtain ⟨r', m⟩ := e
  simp only [sent, List.mem_filterMap]
  constructor
  · rintro ⟨d, hd, he⟩
    cases d <;> simp at he
    obtain ⟨rfl, rfl⟩ := he
    exact ⟨rfl, hd⟩
  · rintro ⟨rfl, hd⟩
    exact ⟨_, hd, rfl⟩

/-- What lies behind a message lies behind sending it. -/
lemma allowed_of_up {p : Prop} {r : Role} {m : WsMessage} (h : Up net p r m) :
    Allowed net (.client r (.send m)) := by
  cases m with
  | fileOffer m => exact h.2.1
  | fileRelay m => exact h
  | _ => trivial

lemma Inv.clientDoes {y : Sys} (h : Inv net y) {r : Role} {p : State × List Did}
    (hp : CallOk net y r p) :
    Inv net (clientDoes y r p).1 ∧ ∀ o ∈ (clientDoes y r p).2, Allowed net o := by
  have hclient : ∀ r', (Parties.clientDoes y r p).1.client r' = if r' = r then p.1 else y.client r' := by
    intro r'
    simp [Parties.clientDoes, Function.update_apply]
  refine ⟨⟨?_, ?_, ?_, ?_, ?_⟩, ?_⟩
  · intro r'
    rw [hclient]
    split_ifs
    · exact hp.level
    · exact h.level r'
  · intro e he
    rcases List.mem_append.mp he with he | he
    · exact (h.up e he).mono hp.started
    · obtain ⟨rfl, hm⟩ := mem_sent.mp he
      exact hp.sends e.2 hm
  · exact fun e he => (h.down e he).mono hp.started
  · intro r'
    rw [hclient]
    split_ifs with hr
    · exact hr ▸ hp.threads
    · exact h.threads r'
  · rw [hclient]
    split_ifs with hr
    · exact hp.data hr.symm
    · exact h.data
  · intro o ho
    obtain ⟨d, hd, rfl⟩ := List.mem_map.mp ho
    cases d with
    | send m => exact allowed_of_up (hp.sends m hd)
    | natPunch addr port => exact hp.punches addr port hd
    | _ => trivial

lemma started_sender {y : Sys} {p : State × List Did} :
    Started (clientDoes y .sender p).1 ↔ p.1.xfer.isSender = true := by
  simp [Started, clientDoes]

lemma started_receiver {y : Sys} {p : State × List Did} :
    Started (clientDoes y .receiver p).1 ↔ Started y := by
  simp [Started, clientDoes, Function.update_of_ne]

/-- A client that keeps its level, its threads and `g_xfer`, and sends what it may. -/
lemma Inv.keeps {y : Sys} (h : Inv net y) {r : Role} {c : State} {ds : List Did}
    (hlevel : c.serverFileLevel = (y.client r).serverFileLevel)
    (hthreads : c.threads = (y.client r).threads) (hxfer : c.xfer = (y.client r).xfer)
    (hsends : ∀ m, .send m ∈ ds → ∀ q : Prop, Up net q r m)
    (hpunch : ∀ addr port, .natPunch addr port ∉ ds) : CallOk net y r (c, ds) where
  level := hlevel.trans (h.level r)
  threads := by
    rw [hthreads]
    exact h.threads r
  data hr := by
    subst hr
    rw [hxfer]
    exact h.data
  started hs := by
    cases r with
    | sender =>
      rw [started_sender, hxfer]
      exact hs
    | receiver => exact started_receiver.mpr hs
  sends m hm := hsends m hm _
  punches addr port hd := absurd hd (hpunch addr port)

lemma Inv.newXfer {y : Sys} (h : Inv net y) {c : State} {ds : List Did}
    (hlevel : c.serverFileLevel = (y.client .sender).serverFileLevel)
    (hthreads : c.threads = (y.client .sender).threads) (hxfer : c.xfer.isSender = true)
    (hsends : ∀ m, .send m ∈ ds → Up net True .sender m)
    (hpunch : ∀ addr port, .natPunch addr port ∉ ds) : CallOk net y .sender (c, ds) where
  level := hlevel.trans (h.level .sender)
  threads := by
    rw [hthreads]
    exact h.threads .sender
  data hr := by cases hr
  started _ := started_sender.mpr hxfer
  sends m hm := (hsends m hm).mono fun _ => started_sender.mpr hxfer
  punches addr port hd := absurd hd (hpunch addr port)

lemma mem_closeListen {x : Xfer} {d : Did} (h : d ∈ closeListen x) : ∃ fd, d = .close fd := by
  unfold closeListen at h
  split_ifs at h
  · exact ⟨_, List.mem_singleton.mp h⟩
  · simp at h

lemma effective_pos {y : Sys} (h : Inv net y) {r : Role}
    (heff : ¬ effectiveFileLevel (net.opt r) (y.client r) ≤ 0) :
    1 ≤ net.cfg.fileTransferLevel ∧ 1 ≤ net.level r := by
  have hlevel := h.level r
  have hopt : (net.opt r).fileTransferLevel = net.level r := rfl
  unfold effectiveFileLevel at heff
  split_ifs at heff <;> omega

lemma offer_ok {y : Sys} (h : Inv net y) (ho : Offers net) (l : Listening) (x : Xfer) {c : State}
    (hlevel : c.serverFileLevel = (y.client .sender).serverFileLevel)
    (hthreads : c.threads = (y.client .sender).threads) : CallOk net y .sender (offer l x c) := by
  refine h.newXfer hlevel hthreads rfl ?_ ?_
  · intro m hm
    rcases List.mem_append.mp hm with hm | hm
    · obtain ⟨fd, hfd⟩ := mem_closeListen hm
      cases hfd
    · cases List.mem_singleton.mp hm
      exact ⟨rfl, ho, trivial⟩
  · intro addr port hm
    rcases List.mem_append.mp hm with hm | hm
    · obtain ⟨fd, hfd⟩ := mem_closeListen hm
      cases hfd
    · cases List.mem_singleton.mp hm

lemma offerImage_ok {y : Sys} (h : Inv net y) (ho : Offers net) (l : Listening)
    (uuid mime : String) (img : List UInt8) :
    CallOk net y .sender
      (offerImage net.lib (net.opt .sender) l uuid mime img (y.client .sender)) := by
  unfold offerImage
  split
  · exact h.keeps rfl rfl rfl (by simp) (by simp)
  · dsimp only
    split
    · exact h.keeps rfl rfl rfl (by simp) (by simp)
    · split
      · exact offer_ok h ho l _ rfl rfl
      · split
        · refine h.newXfer rfl rfl rfl ?_ ?_
          · intro m hm
            obtain ⟨fd, hfd⟩ := mem_closeListen hm
            cases hfd
          · intro addr port hm
            obtain ⟨fd, hfd⟩ := mem_closeListen hm
            cases hfd
        · exact offer_ok h ho l _ rfl rfl

lemma offerFile_ok {y : Sys} (h : Inv net y) (ho : Offers net) (l : Listening) (uuid path : String)
    (content : Option (List UInt8)) (loaded : Bool) :
    CallOk net y .sender
      (offerFile net.lib (net.opt .sender) l uuid path content loaded (y.client .sender)) := by
  have hskip : CallOk net y .sender (y.client .sender, []) :=
    h.keeps rfl rfl rfl (by simp) (by simp)
  unfold offerFile
  cases content with
  | none => exact hskip
  | some data =>
    dsimp only
    split
    · exact hskip
    · split
      · split
        · exact hskip
        · exact offer_ok h ho l _ rfl rfl
      · split
        · exact hskip
        · split
          · exact h.keeps rfl rfl rfl (by simp) (by simp)
          · exact offer_ok h ho l _ rfl rfl

lemma clipboardChange_ok {y : Sys} (h : Inv net y) (r : Role) (l : Listening) (uuid : String)
    (held : Held) (hrole : r = .receiver → held.image = none ∧ held.file = none) :
    CallOk net y r (clipboardChange net.lib (net.opt r) l uuid held (y.client r)) := by
  have htext : CallOk net y r (y.client r,
      held.text.elim [] fun enc => [.send (.clipboard ⟨none, some enc, none⟩)]) := by
    refine h.keeps rfl rfl rfl ?_ ?_ <;> cases held.text <;> simp [Up]
  unfold clipboardChange
  dsimp only
  split_ifs with heff
  · exact htext
  · obtain ⟨hs, hc⟩ := effective_pos h heff
    cases r with
    | sender =>
      cases himg : held.image with
      | some image => exact offerImage_ok h ⟨hs, hc⟩ l uuid image.1 image.2
      | none =>
        cases hfile : held.file with
        | some file => exact offerFile_ok h ⟨hs, hc⟩ l uuid file.1 file.2 held.loaded
        | none => exact htext
    | receiver =>
      obtain ⟨himg, hfile⟩ := hrole rfl
      rw [himg, hfile]
      exact htext

lemma onFileNotify_ok {y : Sys} (h : Inv net y) (ho : Offers net) (hs : Started y)
    (l : Listening) (m : FileNotify) :
    CallOk net y .receiver (onFileNotify (net.opt .receiver) l m (y.client .receiver)) := by
  unfold onFileNotify
  split
  · exact h.keeps rfl rfl rfl (by simp) (by simp)
  · rename_i heff
    obtain ⟨-, hc⟩ := effective_pos h heff
    refine ⟨h.level .receiver, h.threads .receiver, fun _ => rfl, started_receiver.mpr, ?_, ?_⟩
    · intro m' hm
      rcases List.mem_append.mp hm with hm | hm
      · obtain ⟨fd, hfd⟩ := mem_closeListen hm
        cases hfd
      · cases List.mem_singleton.mp hm
        exact ⟨ho, hc, started_receiver.mpr hs⟩
    · intro addr port hm
      rcases List.mem_append.mp hm with hm | hm
      · obtain ⟨fd, hfd⟩ := mem_closeListen hm
        cases hfd
      · cases List.mem_singleton.mp hm

/-- The thread looks at the smaller of the two levels its client knows. -/
lemma withPeer_ok {y : Sys} {r : Role} {m : FilePeerInfo}
    (hlevel : m.fileTransferLevel = net.cfg.fileTransferLevel) (ho : Offers net) (hc : 1 ≤ net.level .receiver) (hs : Started y) :
    ThreadOk net r (withPeer (net.opt r) m (y.client r).xfer) where
  offers := ho
  receiver := hc
  eff := by
    have hopt : (net.opt r).fileTransferLevel = net.level r := rfl
    simp only [withPeer, hlevel, hopt]
    split_ifs <;> omega
  isSender hr := by
    subst hr
    exact hs

lemma onFilePeerInfo_ok {y : Sys} (h : Inv net y) {r : Role} {m : FilePeerInfo}
    (hlevel : m.fileTransferLevel = net.cfg.fileTransferLevel) (ho : Offers net)
    (hc : 1 ≤ net.level .receiver) (hs : Started y) :
    CallOk net y r (onFilePeerInfo (net.opt r) m (y.client r)) := by
  have hskip : CallOk net y r (y.client r, []) := h.keeps rfl rfl rfl (by simp) (by simp)
  unfold onFilePeerInfo
  split
  · exact hskip
  · split
    · exact hskip
    · have hxfer : ∀ b : Bool, (if b then withPeer (net.opt r) m (y.client r).xfer
          else { withPeer (net.opt r) m (y.client r).xfer with listenFd := invalidSock }).isSender =
            (y.client r).xfer.isSender ∧
          (if b then withPeer (net.opt r) m (y.client r).xfer
          else { withPeer (net.opt r) m (y.client r).xfer with listenFd := invalidSock }).data =
            (y.client r).xfer.data := by
        intro b
        cases b <;> exact ⟨rfl, rfl⟩
      refine ⟨h.level r, ?_, ?_, ?_, by simp, by simp⟩
      · intro t ht
        rcases List.mem_append.mp ht with ht | ht
        · exact h.threads r t ht
        · cases List.mem_singleton.mp ht
          exact withPeer_ok hlevel ho hc hs
      · rintro rfl
        exact (hxfer _).2.trans h.data
      · intro _
        cases r with
        | sender => exact started_sender.mpr ((hxfer _).1.trans hs)
        | receiver => exact started_receiver.mpr hs

lemma place_calm {mt fn : String} {data : List UInt8} {d : Did} (h : d ∈ place mt fn data) :
    (∀ m, d ≠ .send m) ∧ ∀ addr port, d ≠ .natPunch addr port := by
  unfold place at h
  split_ifs at h <;> cases List.mem_singleton.mp h <;> simp

/-- A message that came from the server is handled in order. -/
lemma onMessage_ok {y : Sys} (h : Inv net y) {r : Role} {m : WsMessage}
    (hm : Down net (Started y) r m) (l : Listening) :
    CallOk net y r (onMessage net.lib (net.opt r) l m (y.client r)) := by
  have hskip : CallOk net y r (y.client r, []) := h.keeps rfl rfl rfl (by simp) (by simp)
  cases m with
  | helloAck m => exact h.keeps (hm.trans (h.level r).symm) rfl rfl (by simp) (by simp)
  | fileNotify m =>
    obtain ⟨rfl, ho, hs⟩ := hm
    exact onFileNotify_ok h ho hs l m
  | filePeerInfo m =>
    obtain ⟨hlevel, ho, hc, hs⟩ := hm
    exact onFilePeerInfo_ok h hlevel ho hc hs
  | fileRelayRequest m =>
    simp only [onMessage, onFileRelayRequest]
    split
    · exact hskip
    · split_ifs
      · exact hskip
      · refine h.keeps rfl rfl rfl ?_ (by simp)
        intro m' hm' q
        cases List.mem_singleton.mp hm'
        exact hm
  | fileRelayData m =>
    simp only [onMessage, onFileRelayData]
    split
    · exact hskip
    · obtain ⟨hl, ht, hx⟩ := remember_same net.lib (net.opt r) ‹_› (y.client r)
      refine h.keeps hl ht hx ?_ ?_
      · intro m' hm' q
        rcases List.mem_append.mp hm' with hm' | hm'
        · exact absurd rfl ((place_calm hm').1 m')
        · cases List.mem_singleton.mp hm'
          trivial
      · intro addr port hm'
        rcases List.mem_append.mp hm' with hm' | hm'
        · exact (place_calm hm').2 addr port rfl
        · cases List.mem_singleton.mp hm'
  | _ => exact hskip

/-! ### The threads -/

lemma natPunch_allowed {r : Role} {st : Xfer} (h : ThreadOk net r st) {d : Did}
    (hd : d ∈ natPunch st) : (∀ m, d ≠ .send m) ∧ Allowed net (.client r d) := by
  unfold natPunch at hd
  split_ifs at hd with hcond
  · cases List.mem_singleton.mp hd
    have heff := h.eff
    have h2 := hcond.2.2
    exact ⟨by simp, h.offers, h.receiver, by omega, by omega⟩
  · simp at hd

lemma threadStart_ok {y : Sys} (h : Inv net y) (r : Role) (i : ℕ) :
    CallOk net y r (threadStart i (y.client r)) := by
  have hskip : CallOk net y r (y.client r, []) := h.keeps rfl rfl rfl (by simp) (by simp)
  unfold threadStart
  cases hi : (y.client r).threads[i]? with
  | none => exact hskip
  | some t =>
    have ht := h.threads r t (List.mem_of_getElem? hi)
    dsimp only
    split
    · exact hskip
    · refine ⟨h.level r, ?_, ?_, ?_, ?_, ?_⟩
      · intro t' ht'
        rcases List.mem_or_eq_of_mem_set ht' with ht' | rfl
        · exact h.threads r t' ht'
        · exact ht
      · rintro rfl
        exact h.data
      · intro hs
        cases r with
        | sender => exact started_sender.mpr hs
        | receiver => exact started_receiver.mpr hs
      · exact fun m hm => absurd rfl ((natPunch_allowed ht hm).1 m)
      · exact fun addr port hm => (natPunch_allowed ht hm).2

/-- Only the receiver asks for the relay, and it looks at its own level and the server's. -/
lemma receiverEnd_up {r : Role} {st : Xfer} (h : ThreadOk net r st) (hst : st.isSender = false)
    {out : Outcome} {d : Did} (hd : d ∈ receiverEnd out st) :
    (∀ m, d = .send m → ∀ q : Prop, Up net q r m) ∧ ∀ addr port, d ≠ .natPunch addr port := by
  unfold receiverEnd at hd
  rcases List.mem_append.mp hd with hd | hd
  · cases hrec : out.received with
    | some data =>
      simp only [hrec] at hd
      rcases List.mem_append.mp hd with hd | hd
      · exact ⟨fun m hm => absurd hm ((place_calm hd).1 m), (place_calm hd).2⟩
      · cases List.mem_singleton.mp hd
        refine ⟨?_, by simp⟩
        rintro m ⟨⟩ q
        trivial
    | none =>
      simp only [hrec] at hd
      split_ifs at hd with hcond
      · cases List.mem_singleton.mp hd
        refine ⟨?_, by simp⟩
        rintro m ⟨⟩ q
        have hr : r = .receiver := by
          cases r with
          | sender => exact absurd (h.isSender rfl) (by simp [hst])
          | receiver => rfl
        subst hr
        have heff := h.eff
        have h3 := hcond.1
        exact ⟨by omega, h.offers.2, by omega⟩
      · cases List.mem_singleton.mp hd
        refine ⟨?_, by simp⟩
        rintro m ⟨⟩ q
        trivial
  · obtain ⟨fd, rfl⟩ := mem_closeListen hd
    exact ⟨by simp, by simp⟩

lemma threadEnd_ok {y : Sys} (h : Inv net y) (r : Role) (i : ℕ) (out : Outcome) :
    CallOk net y r (threadEnd net.lib (net.opt r) i out (y.client r)) := by
  have hskip : CallOk net y r (y.client r, []) := h.keeps rfl rfl rfl (by simp) (by simp)
  unfold threadEnd
  cases hi : (y.client r).threads[i]? with
  | none => exact hskip
  | some t =>
    have ht := h.threads r t (List.mem_of_getElem? hi)
    dsimp only
    split
    · exact hskip
    · -- the thread is gone, the rest is as it was
      have hgone : ∀ c : State, c.serverFileLevel = (y.client r).serverFileLevel →
          c.threads = (y.client r).threads.eraseIdx i → c.xfer = (y.client r).xfer →
          ∀ ds : List Did, (∀ m, .send m ∈ ds → ∀ q : Prop, Up net q r m) →
          (∀ addr port, .natPunch addr port ∉ ds) → CallOk net y r (c, ds) := by
        intro c hl hth hx ds hsends hpunch
        refine ⟨hl.trans (h.level r), ?_, ?_, ?_, fun m hm => hsends m hm _, ?_⟩
        · rw [hth]
          exact fun t' ht' => h.threads r t' (List.mem_of_mem_eraseIdx ht')
        · rintro rfl
          rw [hx]
          exact h.data
        · intro hs
          cases r with
          | sender =>
            rw [started_sender, hx]
            exact hs
          | receiver => exact started_receiver.mpr hs
        · exact fun addr port hm => absurd hm (hpunch addr port)
      split
      · refine hgone _ ?_ ?_ ?_ _ ?_ ?_
        · rfl
        · rfl
        · rfl
        · simp
        · simp
      · rename_i hst
        have hup : ∀ d ∈ receiverEnd out t.st,
            (∀ m, d = .send m → ∀ q : Prop, Up net q r m) ∧ ∀ addr port, d ≠ .natPunch addr port :=
          fun d hd => receiverEnd_up ht (by simpa using hst) hd
        refine hgone _ ?_ ?_ ?_ _ (fun m hm => (hup _ hm).1 m rfl)
          (fun addr port hm => (hup _ hm).2 addr port rfl) <;> cases out.received
        · rfl
        · exact (remember_same _ _ _ _).1
        · rfl
        · exact (remember_same _ _ _ _).2.1
        · rfl
        · exact (remember_same _ _ _ _).2.2

/-! ### The server -/

/-- Which messages make the server send a frame about files, and to whom. -/
def Causes (cfg : Config) (sid x : SessionId) (msg : WsMessage) : WsMessage → Prop
  | .helloAck _ => False
  | .fileNotify _ => (∃ m, msg = .fileOffer m) ∧ x ≠ sid
  | .filePeerInfo m => (∃ q, msg = .fileRequest q) ∧ m.fileTransferLevel = cfg.fileTransferLevel
  | .fileRelayRequest _ => ∃ q, msg = .fileRelay q
  | .fileRelayData _ => ∃ q, msg = .fileRelay q
  | _ => True

lemma handle_causes {cfg : Config} {link : Net} {now : ℤ} {sid : SessionId} {cs : ClientSession}
    {msg : WsMessage} {st : Server} {x : SessionId} {f : WsMessage} {b : Bool}
    (h : Act.send x f b ∈ (handle cfg link now sid cs msg st).acts) : Causes cfg sid x msg f := by
  cases handle_sends h with
  | clipboard m ht => trivial
  | notify hl hg ht => exact ⟨⟨_, rfl⟩, (mem_broadcastTargets.mp ht).2.2.2⟩
  | toSender hg ho => exact ⟨⟨_, rfl⟩, rfl⟩
  | toReceiver hg ho => exact ⟨⟨_, rfl⟩, rfl⟩
  | relayData hl hg ho hsize ht hin hu hd => exact ⟨_, rfl⟩
  | relayRequest hl hg ho hd => exact ⟨_, rfl⟩
  | error e => trivial
  | pong ts => trivial

lemma roleOf_eq {x : SessionId} {r : Role} (h : net.roleOf x = some r) : x = net.sid r := by
  unfold Setup.roleOf at h
  split_ifs at h with hs hr <;> cases h
  · exact hs
  · exact hr

/-- What lies behind a message lies behind the frames it makes the server send. -/
lemma down_of_causes {p : Prop} {r r' : Role} {m f : WsMessage} (hm : Up net p r m)
    (hf : Causes net.cfg (net.sid r) (net.sid r') m f) : Down net p r' f := by
  cases f with
  | helloAck f => exact hf.elim
  | fileNotify f =>
    obtain ⟨⟨m, rfl⟩, hne⟩ := hf
    obtain ⟨rfl, ho, hp⟩ := hm
    refine ⟨?_, ho, hp⟩
    cases r' with
    | sender => exact absurd rfl hne
    | receiver => rfl
  | filePeerInfo f =>
    obtain ⟨⟨q, rfl⟩, hlevel⟩ := hf
    exact ⟨hlevel, hm⟩
  | fileRelayRequest f =>
    obtain ⟨q, rfl⟩ := hf
    exact hm
  | fileRelayData f =>
    obtain ⟨q, rfl⟩ := hf
    exact hm
  | _ => trivial

lemma mem_delivered {as : List Act} {e : Role × WsMessage} (h : e ∈ delivered net as) :
    Act.send (net.sid e.1) e.2 true ∈ as := by
  obtain ⟨a, ha, he⟩ := List.mem_filterMap.mp h
  cases a with
  | close t code reason => simp at he
  | send t f b =>
    cases b with
    | false => simp at he
    | true =>
      obtain ⟨r, hr, rfl⟩ := Option.map_eq_some_iff.mp he
      rw [← roleOf_eq hr]
      exact ha

/-- The server handles a message that came from a client. -/
lemma Inv.serves {y : Sys} (h : Inv net y) {e : Event}
    (he : ∀ x f b, Act.send x f b ∈ (Dispatcher.step net.cfg y.server e).2 →
      ∃ r m, Up net (Started y) r m ∧ Causes net.cfg (net.sid r) x m f) :
    Inv net (serverDoes net y e).1 ∧ ∀ o ∈ (serverDoes net y e).2, Allowed net o := by
  refine ⟨⟨h.level, h.up, ?_, h.threads, h.data⟩, ?_⟩
  · intro d hd
    rcases List.mem_append.mp hd with hd | hd
    · exact h.down d hd
    · obtain ⟨r, m, hm, hc⟩ := he _ _ _ (mem_delivered hd)
      exact down_of_causes hm hc
  · intro o ho
    obtain ⟨a, ha, rfl⟩ := List.mem_map.mp ho
    cases a with
    | close t code reason => trivial
    | send x f b =>
      obtain ⟨r, m, hm, hc⟩ := he x f b ha
      cases f with
      | fileRelayData f =>
        obtain ⟨q, rfl⟩ := hc
        exact hm
      | _ => trivial

/-! ### Runs -/

lemma inv_begin : Inv net (begin net) where
  level _ := rfl
  up e he := by simp [begin] at he
  down e he := by simp [begin] at he
  threads r t ht := by simp [begin, Client.start] at ht
  data := rfl

lemma inv_step {y : Sys} (h : Inv net y) {l : Label} (hl : InRole l) :
    Inv net (step net y l).1 ∧ ∀ o ∈ (step net y l).2, Allowed net o := by
  cases l with
  | copy r l uuid held =>
    refine h.clientDoes (clipboardChange_ok h r l uuid held ?_)
    rintro rfl
    exact hl
  | toServer i now link =>
    simp only [step]
    cases hi : y.toServer[i]? with
    | none => exact ⟨h, by simp⟩
    | some e =>
      obtain ⟨r, m⟩ := e
      have hm : Up net (Started y) r m := h.up _ (List.mem_of_getElem? hi)
      have h' : Inv net { y with toServer := y.toServer.eraseIdx i } :=
        ⟨h.level, fun e he => h.up e (List.mem_of_mem_eraseIdx he), h.down, h.threads, h.data⟩
      refine h'.serves ?_
      intro x f b hsend
      refine ⟨r, m, hm, ?_⟩
      rcases mem_handleTextMessage hsend with ⟨-, rfl⟩ | ⟨cs, -, hmem⟩
      · trivial
      · exact handle_causes hmem
  | toClient i l =>
    simp only [step]
    cases hi : y.toClient[i]? with
    | none => exact ⟨h, by simp⟩
    | some e =>
      obtain ⟨r, m⟩ := e
      have hm : Down net (Started y) r m := h.down _ (List.mem_of_getElem? hi)
      have h' : Inv net { y with toClient := y.toClient.eraseIdx i } :=
        ⟨h.level, h.up, fun e he => h.down e (List.mem_of_mem_eraseIdx he), h.threads, h.data⟩
      exact h'.clientDoes (onMessage_ok h' hm l)
  | threadStart r i => exact h.clientDoes (threadStart_ok h r i)
  | threadEnd r i out => exact h.clientDoes (threadEnd_ok h r i out)
  | closed r => exact h.serves (by simp [Dispatcher.step, react])
  | evict now => exact h.serves (by simp [Dispatcher.step, react])
  | cleanup now => exact h.serves (by simp [Dispatcher.step, react])

/-- In every run, what is used is what the ends that look at it allow. -/
lemma run_allowed {ls : List Label} (hls : ∀ l ∈ ls, InRole l) :
    ∀ o ∈ Run.outs (step net) (begin net) ls, Allowed net o := by
  have hrun : Inv net (Run.exec (step net) (begin net) ls) ∧
      ∀ o ∈ [] ++ Run.outs (step net) (begin net) ls, Allowed net o := by
    refine Run.exec_outs_inv (I := fun y tr => Inv net y ∧ ∀ o ∈ tr, Allowed net o) (Q := InRole)
      ?_ ⟨inv_begin, by simp⟩ hls
    intro y tr l hl hI
    obtain ⟨hinv, hout⟩ := inv_step hI.1 hl
    exact ⟨hinv, fun o ho => (List.mem_append.mp ho).elim (hI.2 o) (hout o)⟩
  simpa using hrun.2

end SyncClipboard.LevelInv
