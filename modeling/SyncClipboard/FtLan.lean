import SyncClipboard.FtAuth

/-!
The race for a connection: the listening socket, the connects to the peer's addresses and the
punched socket are polled in turn, and the first one that passes the handshake wins.

Every turn of the polling loop is one `Poll`, with what `poll` or `select`, `accept` and `SO_ERROR`
report in it; the loop ends with the list, as it does when the time is up. How the peer of a socket
behaves may depend on everything done so far.
-/

namespace SyncClipboard.FtLan

open FtAuth

abbrev Sock := ℕ

/-- What one side does with its sockets. -/
inductive Act
  | wire (c : Sock) (bs : Bytes)
  | file (c : Sock) (bs : Bytes)
  | close (c : Sock)
  deriving DecidableEq

abbrev Env := List Act → Sock → Peer

/-- What is found about a connecting socket: nothing yet, `SO_ERROR` zero, or an error. -/
inductive Probe | idle | connected | failed
  deriving DecidableEq

structure Poll where
  accepted : Option Sock
  peers : ℕ → Probe
  nat : Probe

/-- The two races differ in what a connected socket has to pass, and in whether a failed one is
closed at once. -/
structure Mode where
  authenticate : Sock → List Act → Bool × List Act
  dropFailed : Bool

variable (H : Bytes → Bytes → Bytes)

def tryAuthenticate (env : Env) (fileId keyHex : Bytes) (isSender : Bool) (c : Sock)
    (log : List Act) : Bool × List Act :=
  let r := if isSender then ftAuthSend H (env log c) fileId keyHex
    else ftAuthRecv H (env log c) fileId keyHex
  if r.code = 0 then (true, log ++ [.wire c r.sent])
  else (false, log ++ [.wire c r.sent, .close c])

/-- One connecting socket in one turn: the slot afterwards, and the socket if it wins. -/
def probeSlot (mode : Mode) (slot : Option Sock) (probe : Probe) (log : List Act) :
    Option Sock × Option Sock × List Act :=
  match slot, probe with
  | some c, .connected =>
    let (ok, log') := mode.authenticate c log
    (none, if ok then some c else none, log')
  | some c, .failed => if mode.dropFailed then (none, none, log ++ [.close c]) else (some c, none, log)
  | slot, _ => (slot, none, log)

/-- The connecting sockets in order, until one wins. -/
def probeSlots (mode : Mode) :
    List (Option Sock) → (ℕ → Probe) → List Act → List (Option Sock) × Option Sock × List Act
  | [], _, log => ([], none, log)
  | slot :: slots, probe, log =>
    match probeSlot mode slot (probe 0) log with
    | (slot', some c, log') => (slot' :: slots, some c, log')
    | (slot', none, log') =>
      let (slots', result, log'') := probeSlots mode slots (fun i => probe (i + 1)) log'
      (slot' :: slots', result, log'')

structure Race where
  conn : List (Option Sock)
  nat : Option Sock
  result : Option Sock
  log : List Act

def probeAccepted (mode : Mode) (listen : Bool) (accepted : Option Sock) (log : List Act) :
    Option Sock × List Act :=
  match listen, accepted with
  | true, some c =>
    let (ok, log') := mode.authenticate c log
    (if ok then some c else none, log')
  | _, _ => (none, log)

def turn (mode : Mode) (listen : Bool) (poll : Poll) (r : Race) : Race :=
  match probeAccepted mode listen poll.accepted r.log with
  | (some c, log) => { r with result := some c, log := log }
  | (none, log) =>
    match probeSlots mode r.conn poll.peers log with
    | (conn, some c, log) => { r with conn := conn, result := some c, log := log }
    | (conn, none, log) =>
      let (nat, result, log) := probeSlot mode r.nat poll.nat log
      ⟨conn, nat, result, log⟩

def loop (mode : Mode) (listen : Bool) : List Poll → Race → Race
  | [], r => r
  | poll :: polls, r => if r.result = none then loop mode listen polls (turn mode listen poll r) else r

/-- A race, and the closing of the sockets that did not win. -/
def lanTransfer (mode : Mode) (listen : Bool) (conn : List (Option Sock)) (nat : Option Sock)
    (polls : List Poll) (log : List Act) : Option Sock × List Act :=
  let r := loop mode listen polls ⟨conn, nat, none, log⟩
  (r.result, r.log ++ (r.conn ++ [r.nat]).filterMap fun slot => slot.map Act.close)

def ftLanTransfer : Bool → List (Option Sock) → Option Sock → List Poll → List Act →
    Option Sock × List Act :=
  lanTransfer ⟨fun _ log => (true, log), false⟩

def ftLanTransferAuth (env : Env) (fileId keyHex : Bytes) (isSender listen : Bool)
    (conn : List (Option Sock)) (nat : Option Sock) (polls : List Poll) (log : List Act) :
    Option Sock × List Act :=
  if keyHex = [] then ftLanTransfer listen conn nat polls log
  else lanTransfer ⟨tryAuthenticate H env fileId keyHex isSender, true⟩ listen conn nat polls log

/-- The loop of `sender_thread`: the file goes to the winner, and while there is a listening socket
and time left, to the next one that connects. -/
def sendLoop (env : Env) (fileId keyHex frame : Bytes) (listen : Bool) :
    List (List Poll) → Option Sock → List Act → List Act
  | _, none, log => log
  | [], some c, log => log ++ [.file c frame, .close c]
  | polls :: calls, some c, log =>
    let log' := log ++ [.file c frame, .close c]
    if listen then
      let (sock, log'') := ftLanTransferAuth H env fileId keyHex true true [] none polls log'
      sendLoop env fileId keyHex frame listen calls sock log''
    else log'

/-- `sender_thread`, with the polls of its first race and of the later ones. -/
def senderThread (env : Env) (fileId keyHex frame : Bytes) (listen : Bool)
    (conn : List (Option Sock)) (nat : Option Sock) (polls : List Poll) (calls : List (List Poll)) :
    List Act :=
  let (sock, log) := ftLanTransferAuth H env fileId keyHex true listen conn nat polls []
  sendLoop H env fileId keyHex frame listen calls sock log

/-! ### What a race keeps -/

variable {H}

/-- A property of logs that a socket keeps when it is tried, and a property that a socket has in the
log once it wins. -/
structure Earns (mode : Mode) (I : List Act → Prop) (Good : List Act → Sock → Prop) : Prop where
  authenticate : ∀ c log, I log → I (mode.authenticate c log).2 ∧
    ((mode.authenticate c log).1 = true → Good (mode.authenticate c log).2 c)
  close : ∀ c log, I log → I (log ++ [.close c])
  keep : ∀ c c' log, Good log c → Good (log ++ [.close c']) c

variable {mode : Mode} {I : List Act → Prop} {Good : List Act → Sock → Prop} {Bad : Sock → Prop}

lemma Earns.probeSlot (h : Earns mode I Good) {log : List Act} (hlog : I log) (slot : Option Sock)
    (probe : Probe) : I (probeSlot mode slot probe log).2.2 ∧
      ∀ c ∈ (probeSlot mode slot probe log).2.1, Good (probeSlot mode slot probe log).2.2 c := by
  cases slot with
  | none => cases probe <;> exact ⟨hlog, by simp [FtLan.probeSlot]⟩
  | some c =>
    cases probe with
    | idle => exact ⟨hlog, by simp [FtLan.probeSlot]⟩
    | connected =>
      obtain ⟨hlog', hwin⟩ := h.authenticate c log hlog
      refine ⟨hlog', fun c' hc' => ?_⟩
      simp only [FtLan.probeSlot] at hc' ⊢
      split_ifs at hc' with hok
      · rw [Option.mem_some_iff] at hc'
        exact hc' ▸ hwin hok
      · simp at hc'
    | failed =>
      simp only [FtLan.probeSlot]
      split_ifs
      · exact ⟨h.close c log hlog, by simp⟩
      · exact ⟨hlog, by simp⟩

lemma Earns.probeSlots (h : Earns mode I Good) {log : List Act} (hlog : I log)
    (slots : List (Option Sock)) (probe : ℕ → Probe) :
    I (probeSlots mode slots probe log).2.2 ∧
      ∀ c ∈ (probeSlots mode slots probe log).2.1, Good (probeSlots mode slots probe log).2.2 c := by
  induction slots generalizing probe log with
  | nil => exact ⟨hlog, by simp [FtLan.probeSlots]⟩
  | cons slot slots ih =>
    have hslot := h.probeSlot hlog slot (probe 0)
    unfold FtLan.probeSlots
    rcases hp : FtLan.probeSlot mode slot (probe 0) log with ⟨slot', _ | c, log'⟩
    · rw [hp] at hslot
      exact ih hslot.1 fun i => probe (i + 1)
    · rw [hp] at hslot
      exact hslot

lemma Earns.turn (h : Earns mode I Good) (listen : Bool) (poll : Poll) {r : Race} (hlog : I r.log) :
    I (turn mode listen poll r).log ∧
      ∀ c ∈ (turn mode listen poll r).result, Good (turn mode listen poll r).log c := by
  have hacc : I (probeAccepted mode listen poll.accepted r.log).2 ∧
      ∀ c ∈ (probeAccepted mode listen poll.accepted r.log).1,
        Good (probeAccepted mode listen poll.accepted r.log).2 c := by
    unfold probeAccepted
    split
    · rename_i c _
      obtain ⟨hlog', hwin⟩ := h.authenticate c r.log hlog
      refine ⟨hlog', fun c' hc' => ?_⟩
      dsimp only at hc'
      split_ifs at hc' with hok
      · rw [Option.mem_some_iff] at hc'
        exact hc' ▸ hwin hok
      · simp at hc'
    · exact ⟨hlog, by simp⟩
  unfold FtLan.turn
  rcases ha : probeAccepted mode listen poll.accepted r.log with ⟨_ | c, log⟩ <;> rw [ha] at hacc
  · -- nobody was accepted: the connecting sockets, then the punched one
    have hslots := h.probeSlots hacc.1 r.conn poll.peers
    dsimp only
    rcases hs : FtLan.probeSlots mode r.conn poll.peers log with ⟨conn, _ | c, log'⟩ <;>
      rw [hs] at hslots
    · exact h.probeSlot hslots.1 r.nat poll.nat
    · exact hslots
  · exact hacc

lemma Earns.loop (h : Earns mode I Good) (listen : Bool) (polls : List Poll) {r : Race}
    (hlog : I r.log) (hres : ∀ c ∈ r.result, Good r.log c) :
    I (loop mode listen polls r).log ∧
      ∀ c ∈ (loop mode listen polls r).result, Good (loop mode listen polls r).log c := by
  induction polls generalizing r with
  | nil => exact ⟨hlog, hres⟩
  | cons poll polls ih =>
    unfold FtLan.loop
    split_ifs
    · obtain ⟨hlog', hres'⟩ := h.turn listen poll hlog
      exact ih hlog' hres'
    · exact ⟨hlog, hres⟩

/-- **The winner of a race** has what it takes to win. -/
theorem Earns.lanTransfer (h : Earns mode I Good) (listen : Bool) (conn : List (Option Sock))
    (nat : Option Sock) (polls : List Poll) {log : List Act} (hlog : I log) :
    I (lanTransfer mode listen conn nat polls log).2 ∧
      ∀ c ∈ (lanTransfer mode listen conn nat polls log).1,
        Good (lanTransfer mode listen conn nat polls log).2 c := by
  have hloop := h.loop listen polls (r := ⟨conn, nat, none, log⟩) hlog (by simp)
  unfold FtLan.lanTransfer
  dsimp only
  generalize FtLan.loop mode listen polls ⟨conn, nat, none, log⟩ = r at hloop ⊢
  obtain ⟨hlog', hres⟩ := hloop
  generalize r.log = log' at hlog' hres ⊢
  -- the other sockets are closed
  induction r.conn ++ [r.nat] generalizing log' with
  | nil => simpa using ⟨hlog', hres⟩
  | cons slot slots ih =>
    cases slot with
    | none => exact ih log' hlog' hres
    | some c =>
      have hnext := ih (log' ++ [.close c]) (h.close c log' hlog')
        fun c' hc' => h.keep c' c log' (hres c' hc')
      simpa using hnext

/-- A property of logs that a socket keeps when it is tried, and that rules out that a socket of
some kind wins. -/
structure Guard (mode : Mode) (I : List Act → Prop) (Bad : Sock → Prop) : Prop where
  authenticate : ∀ c log, I log → I (mode.authenticate c log).2 ∧
    ((mode.authenticate c log).1 = true → ¬ Bad c)
  close : ∀ c log, I log → I (log ++ [.close c])

/-- A socket of that kind does not win a race. -/
theorem Guard.lanTransfer (h : Guard mode I Bad) (listen : Bool) (conn : List (Option Sock))
    (nat : Option Sock) (polls : List Poll) {log : List Act} (hlog : I log) :
    I (lanTransfer mode listen conn nat polls log).2 ∧
      ∀ c ∈ (lanTransfer mode listen conn nat polls log).1, ¬ Bad c := by
  have hearns : Earns mode I fun _ c => ¬ Bad c := ⟨h.authenticate, h.close, fun _ _ _ hc => hc⟩
  exact hearns.lanTransfer listen conn nat polls hlog

end SyncClipboard.FtLan
