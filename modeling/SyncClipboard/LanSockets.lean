import SyncClipboard.FtLan
import SyncClipboard.Ledger
import SyncClipboard.PublicAddr

/-!
Who closes the sockets of a race.

Here the race of `FtLan` is seen from closer by: with the sockets that are created for the addresses, with
the array that `poll` is given and the sets of `select`, and with an account of every socket that is
opened, tried or closed. In the end all are closed but the one that is returned (`ftLanTransferAuth_accounts`),
and the array is read only where it was written. Memory is always there.
-/

namespace SyncClipboard.LanSockets

open FtAuth FtLan PublicAddr

inductive Platform | linux | windows
  deriving DecidableEq

/-- What is done with a socket. A socket that was handed in counts as opened. -/
inductive Did
  | opened (c : Sock)
  /-- a handshake, with what was sent and whether it returned 0 -/
  | tried (c : Sock) (sent : Bytes) (ok : Bool)
  | closed (c : Sock)
  deriving DecidableEq

def Did.move : Did → Ledger.Move Sock
  | .opened c => .opened c
  | .tried c _ _ => .used c
  | .closed c => .closed c

/-- The part of it that `FtLan` has. -/
def Did.act : Did → Option Act
  | .opened _ => none
  | .tried c sent _ => some (.wire c sent)
  | .closed c => some (.close c)

structure Revents where
  pollIn : Bool
  pollOut : Bool
  pollErr : Bool
  pollHup : Bool

/-- What the system reports in one turn of the loop: the time, the results of `poll` by index or those of
`select` by socket, what `accept` returns, and whether `SO_ERROR` is set. -/
structure Report where
  now : ℤ
  revents : ℕ → Revents
  rfds : Sock → Bool
  wfds : Sock → Bool
  efds : Sock → Bool
  accepted : Option Sock
  peerErr : ℕ → Bool
  natErr : Bool

/-- What a connected socket has to pass, and whether the race is the one with authentication. -/
structure Mode where
  authenticate : Sock → List Did → Bool × List Did
  auth : Bool

/-- The sockets the code has in its hands: `listen_fd`, `conn_socks`, `nat_sock` and `result`. -/
structure Race where
  conn : List (Option Sock)
  nat : Option Sock
  result : Option Sock
  log : List Did

/-- What a call gives that returns a new descriptor: none that is in use. -/
def unused (listen : Option Sock) (log : List Did) (c : Option Sock) : Option Sock :=
  c.filter fun c => decide (some c ≠ listen) &&
    decide (c ∉ (Ledger.replay (log.map Did.move)).getD ∅)

/-! ### The sockets that connect -/

/-- An address, and what `socket` returns. -/
structure Attempt where
  addr : Bytes
  socket : Option Sock

/-- The loop over the addresses; `w` is the width of a `long`. -/
def createLoop (w : ℕ) (listen : Option Sock) :
    List Attempt → List Did → List (Option Sock) × List Did
  | [], log => ([], log)
  | a :: attempts, log =>
    if ftParseAddr w a.addr = none then
      let r := createLoop w listen attempts log
      (none :: r.1, r.2)
    else match unused listen log a.socket with
      | none =>
        let r := createLoop w listen attempts log
        (none :: r.1, r.2)
      | some s =>
        let r := createLoop w listen attempts (log ++ [.opened s])
        (some s :: r.1, r.2)

/-! ### The array of poll -/

/-- `pfds` as far as it is written, and `nat_idx`. -/
def fill (listen : Option Sock) (conn : List (Option Sock)) (nat : Option Sock) :
    List (Option Sock) × Option ℕ :=
  let pfds := if listen ≠ none then [listen] else []
  let pfds := conn.foldl (fun pfds c => pfds ++ [c]) pfds
  if nat ≠ none then (pfds ++ [nat], some pfds.length) else (pfds, none)

/-- `pfds[idx].revents`; `none` where the entry was not written. -/
def readAt (pfds : List (Option Sock)) (t : Report) (idx : ℕ) : Option Revents :=
  if idx < pfds.length then some (t.revents idx) else none

/-- What is found about a connecting socket. -/
def probe (platform : Platform) (auth : Bool) (pfds : List (Option Sock)) (t : Report) (idx : ℕ)
    (c : Sock) (err : Bool) : Option Probe :=
  match platform with
  | .linux => (readAt pfds t idx).map fun r =>
    if r.pollOut || (auth && (r.pollErr || r.pollHup)) then if err then .failed else .connected
    else .idle
  | .windows => some (
    if auth && t.efds c then .failed
    else if t.wfds c then if err then .failed else .connected
    else .idle)

/-! ### One turn -/

variable (platform : Platform) (mode : Mode)

/-- One connecting socket: the slot afterwards, the socket if it wins, and the account. -/
def slotStep (slot : Option Sock) (look : Sock → Option Probe) (log : List Did) :
    Option (Option Sock × Option Sock × List Did) :=
  match slot with
  | none => some (none, none, log)
  | some c =>
    match look c with
    | none => none
    | some .idle => some (some c, none, log)
    | some .connected =>
      let r := mode.authenticate c log
      some (none, if r.1 then some c else none, r.2)
    | some .failed =>
      if mode.auth then some (none, none, log ++ [.closed c]) else some (some c, none, log)

/-- The loop over `conn_socks` from `i`, with `idx` beside it. -/
def peersLoop (pfds : List (Option Sock)) (t : Report) :
    List (Option Sock) → ℕ → ℕ → List Did → Option (List (Option Sock) × Option Sock × List Did)
  | [], _, _, log => some ([], none, log)
  | slot :: slots, i, idx, log =>
    match slotStep mode slot (fun c => probe platform mode.auth pfds t idx c (t.peerErr i)) log with
    | none => none
    | some (slot', some c, log') => some (slot' :: slots, some c, log')
    | some (slot', none, log') =>
      (peersLoop pfds t slots (i + 1) (idx + 1) log').map fun r => (slot' :: r.1, r.2)

def listenReady (pfds : List (Option Sock)) (t : Report) (l : Sock) : Option Bool :=
  match platform with
  | .linux => (readAt pfds t 0).map Revents.pollIn
  | .windows => some (t.rfds l)

/-- The accepted socket, if it wins. -/
def acceptStep (pfds : List (Option Sock)) (t : Report) (listen : Option Sock) (log : List Did) :
    Option (Option Sock × List Did) :=
  match listen with
  | none => some (none, log)
  | some l =>
    match listenReady platform pfds t l with
    | none => none
    | some false => some (none, log)
    | some true =>
      match unused listen log t.accepted with
      | none => some (none, log)
      | some c =>
        let r := mode.authenticate c (log ++ [.opened c])
        some (if r.1 then some c else none, r.2)

/-- One turn of the loop; `none` where an entry is read that was not written. -/
def turn (listen : Option Sock) (t : Report) (r : Race) : Option Race :=
  let (pfds, natIdx) := fill listen r.conn r.nat
  match acceptStep platform mode pfds t listen r.log with
  | none => none
  | some (some c, log) => some { r with result := some c, log := log }
  | some (none, log) =>
    match peersLoop platform mode pfds t r.conn 0 (if listen ≠ none then 1 else 0) log with
    | none => none
    | some (conn, some c, log) => some { r with conn := conn, result := some c, log := log }
    | some (conn, none, log) =>
      match natIdx with
      | none => some { r with conn := conn, log := log }
      | some j =>
        (slotStep mode r.nat (fun c => probe platform mode.auth pfds t j c t.natErr) log).map
          fun n => ⟨conn, n.1, n.2.1, n.2.2⟩

def loop (listen : Option Sock) : List Report → Race → Option Race
  | [], r => some r
  | t :: ts, r => if r.result = none then (turn platform mode listen t r).bind (loop listen ts) else some r

def closeLoop (slots : List (Option Sock)) (log : List Did) : List Did :=
  slots.foldl (fun log slot => match slot with
    | none => log
    | some c => log ++ [.closed c]) log

/-- A race from the creation of the sockets to its end. -/
def race (w : ℕ) (listen : Option Sock) (attempts : List Attempt) (nat : Option Sock)
    (ts : List Report) : Option (Option Sock × List Did) :=
  let log := nat.toList.map Did.opened
  let (conn, log) := createLoop w listen attempts log
  (loop platform mode listen ts ⟨conn, nat, none, log⟩).map fun r =>
    (r.result, closeLoop (r.conn ++ [r.nat]) r.log)

/-! ### The two functions -/

variable (H : Bytes → Bytes → Bytes)

/-- The handshake, after which the socket is returned or closed. -/
def tryAuthenticate (env : Env) (fileId keyHex : Bytes) (isSender : Bool) (c : Sock)
    (log : List Did) : Bool × List Did :=
  let peer := env (log.filterMap Did.act) c
  let r := if isSender then ftAuthSend H peer fileId keyHex else ftAuthRecv H peer fileId keyHex
  if r.code = 0 then (true, log ++ [.tried c r.sent true])
  else (false, log ++ [.tried c r.sent false, .closed c])

/-- One turn for every 50 ms of the timeout. -/
def ftLanTransfer (w : ℕ) (listen : Option Sock) (attempts : List Attempt) (nat : Option Sock)
    (timeoutMs : ℤ) (reports : ℕ → Report) : Option (Option Sock × List Did) :=
  race platform ⟨fun _ log => (true, log), false⟩ w listen attempts nat
    ((List.range ((timeoutMs.toNat + 49) / 50)).map reports)

/-- Turns as long as the clock, which was read as `t0` before, leaves time; after `turns` turns it leaves
none. -/
def ftLanTransferAuth (w : ℕ) (env : Env) (fileId keyHex : Bytes) (isSender : Bool)
    (listen : Option Sock) (attempts : List Attempt) (nat : Option Sock) (timeoutMs t0 : ℤ)
    (reports : ℕ → Report) (turns : ℕ) : Option (Option Sock × List Did) :=
  if keyHex = [] then ftLanTransfer platform w listen attempts nat timeoutMs reports
  else
    race platform ⟨tryAuthenticate H env fileId keyHex isSender, true⟩ w listen attempts nat
      (((List.range turns).map reports).takeWhile fun t => decide (0 < timeoutMs - (t.now - t0)))

/-! ### The account -/

variable {platform mode H}

/-- The account is in order with the sockets of the list open, and the listening socket is left alone. -/
structure Accounts (listen : Option Sock) (log : List Did) (l : List Sock) : Prop where
  holds : Ledger.Holds (log.map Did.move) l
  apart : ∀ c ∈ listen, c ∉ l
  spared : ∀ c ∈ listen, .closed c ∉ log

section Accounts

variable {listen : Option Sock} {log : List Did} {l l' : List Sock} {c : Sock}

lemma Accounts.perm (h : Accounts listen log l) (hl : l.Perm l') : Accounts listen log l' :=
  ⟨h.holds.perm hl, fun c hc hmem => h.apart c hc (hl.mem_iff.mpr hmem), h.spared⟩

lemma Accounts.opened (h : Accounts listen log l) (hc : c ∉ l) (hl : some c ≠ listen) :
    Accounts listen (log ++ [.opened c]) (c :: l) := by
  refine ⟨?_, fun c' hc' hmem => ?_, fun c' hc' hmem => ?_⟩
  · rw [List.map_append]
    exact h.holds.opened hc
  · rcases List.mem_cons.mp hmem with rfl | hmem
    · exact hl hc'.symm
    · exact h.apart c' hc' hmem
  · exact h.spared c' hc' (by simpa using hmem)

lemma Accounts.tried (h : Accounts listen log l) (hc : c ∈ l) (sent : Bytes) (ok : Bool) :
    Accounts listen (log ++ [.tried c sent ok]) l := by
  refine ⟨?_, h.apart, fun c' hc' hmem => h.spared c' hc' (by simpa using hmem)⟩
  rw [List.map_append]
  exact h.holds.used hc

lemma Accounts.closed (h : Accounts listen log (c :: l)) : Accounts listen (log ++ [.closed c]) l := by
  refine ⟨?_, fun c' hc' hmem => h.apart c' hc' (List.mem_cons_of_mem c hmem), fun c' hc' hmem => ?_⟩
  · rw [List.map_append]
    exact h.holds.closed
  · rcases List.mem_append.mp hmem with hmem | hmem
    · exact h.spared c' hc' hmem
    · have hsame : c' = c := by simpa using hmem
      exact h.apart c' hc' (by simp [hsame])

lemma Accounts.unused (h : Accounts listen log l) {c : Option Sock} {s : Sock}
    (hs : unused listen log c = some s) : s ∉ l ∧ some s ≠ listen := by
  obtain ⟨-, hfree⟩ := Option.filter_eq_some_iff.mp hs
  rw [h.holds.replay, Bool.and_eq_true, decide_eq_true_eq, decide_eq_true_eq] at hfree
  exact ⟨by simpa using hfree.2, hfree.1⟩

end Accounts

lemma filterMap_cons (slot : Option Sock) (slots : List (Option Sock)) :
    (slot :: slots).filterMap id = slot.toList ++ slots.filterMap id := by
  cases slot <;> rfl

/-- A connected socket wins or is closed. -/
def Fair (mode : Mode) (listen : Option Sock) (Won : List Did → Sock → Prop) : Prop :=
  ∀ c log l, Accounts listen log (c :: l) →
    ((mode.authenticate c log).1 = true → Accounts listen (mode.authenticate c log).2 (c :: l) ∧
      Won (mode.authenticate c log).2 c) ∧
    ((mode.authenticate c log).1 = false → Accounts listen (mode.authenticate c log).2 l)

section Race

variable {listen : Option Sock} {Won : List Did → Sock → Prop} (hfair : Fair mode listen Won)

lemma createLoop_accounts (w : ℕ) (attempts : List Attempt) {log : List Did} {l : List Sock}
    (h : Accounts listen log l) :
    Accounts listen (createLoop w listen attempts log).2
      ((createLoop w listen attempts log).1.filterMap id ++ l) := by
  induction attempts generalizing log l with
  | nil => exact h
  | cons a attempts ih =>
    unfold createLoop
    split_ifs
    · exact ih h
    · cases hs : unused listen log a.socket with
      | none => exact ih h
      | some s =>
        obtain ⟨hl, hlisten⟩ := h.unused hs
        have hrest := ih (h.opened hl hlisten)
        exact hrest.perm List.perm_middle

include hfair

lemma slotStep_accounts {slot : Option Sock} {look : Sock → Option Probe}
    (hlook : ∀ c, look c ≠ none) {log : List Did} {l : List Sock}
    (h : Accounts listen log (slot.toList ++ l)) :
    ∃ slot' win log', slotStep mode slot look log = some (slot', win, log') ∧
      Accounts listen log' (slot'.toList ++ (win.toList ++ l)) ∧ ∀ c ∈ win, Won log' c := by
  cases slot with
  | none => exact ⟨none, none, log, rfl, h, by simp⟩
  | some c =>
    simp only [slotStep]
    cases hp : look c with
    | none => exact absurd hp (hlook c)
    | some p =>
      cases p with
      | idle => exact ⟨some c, none, log, rfl, h, by simp⟩
      | connected =>
        obtain ⟨hwin, hlose⟩ := hfair c log l h
        cases hok : (mode.authenticate c log).1 with
        | true =>
          obtain ⟨hacc, hwon⟩ := hwin hok
          refine ⟨none, some c, _, by simp, hacc, fun c' hc' => ?_⟩
          rw [Option.mem_some_iff] at hc'
          exact hc' ▸ hwon
        | false => exact ⟨none, none, _, by simp, hlose hok, by simp⟩
      | failed =>
        cases hauth : mode.auth with
        | true => exact ⟨none, none, _, rfl, h.closed, by simp⟩
        | false => exact ⟨some c, none, log, rfl, h, by simp⟩

omit hfair in
lemma probe_ne_none {pfds : List (Option Sock)} {idx : ℕ} (h : idx < pfds.length) (auth : Bool)
    (t : Report) (c : Sock) (err : Bool) : probe platform auth pfds t idx c err ≠ none := by
  cases platform with
  | linux => simp [probe, readAt, h]
  | windows => simp [probe]

lemma peersLoop_accounts {pfds : List (Option Sock)} (t : Report) {slots : List (Option Sock)}
    {i idx : ℕ} (hidx : idx + slots.length ≤ pfds.length) {log : List Did} {l : List Sock}
    (h : Accounts listen log (slots.filterMap id ++ l)) :
    ∃ slots' win log', peersLoop platform mode pfds t slots i idx log = some (slots', win, log') ∧
      Accounts listen log' (slots'.filterMap id ++ (win.toList ++ l)) ∧ ∀ c ∈ win, Won log' c := by
  induction slots generalizing i idx log l with
  | nil => exact ⟨[], none, log, rfl, h, by simp⟩
  | cons slot slots ih =>
    rw [List.length_cons] at hidx
    rw [filterMap_cons, List.append_assoc] at h
    obtain ⟨slot', win, log', hstep, hacc, hwon⟩ := slotStep_accounts hfair
      (fun c => @probe_ne_none platform pfds idx (by omega) mode.auth t c (t.peerErr i)) h
    unfold peersLoop
    rw [hstep]
    cases win with
    | some c =>
      refine ⟨_, _, _, rfl, hacc.perm ?_, hwon⟩
      rw [filterMap_cons, List.append_assoc]
      exact List.Perm.append_left _ (List.perm_append_comm_assoc _ _ _)
    | none =>
      have hrest : Accounts listen log' (slots.filterMap id ++ (slot'.toList ++ l)) :=
        hacc.perm (List.perm_append_comm_assoc slot'.toList (slots.filterMap id) l)
      obtain ⟨slots', win, log'', hloop, hacc', hwon'⟩ :=
        @ih (i + 1) (idx + 1) (by omega) log' (slot'.toList ++ l) hrest
      refine ⟨_, _, _, by dsimp only; rw [hloop]; rfl, hacc'.perm ?_, hwon'⟩
      rw [filterMap_cons, List.append_assoc]
      exact ((List.perm_append_comm_assoc _ _ _).append_left _).trans
        (List.perm_append_comm_assoc _ _ _)

omit hfair in
lemma fill_length (conn : List (Option Sock)) (nat : Option Sock) :
    (if listen ≠ none then 1 else 0) + conn.length ≤ (fill listen conn nat).1.length ∧
      ∀ j ∈ (fill listen conn nat).2, j < (fill listen conn nat).1.length := by
  have hfold : ∀ pfds : List (Option Sock), conn.foldl (fun pfds c => pfds ++ [c]) pfds = pfds ++ conn := by
    induction conn with
    | nil => simp
    | cons c conn ih => simp [ih]
  simp only [fill, hfold]
  constructor
  · split_ifs <;> simp <;> omega
  · split_ifs <;> simp

omit hfair in
lemma listenReady_ne_none {l : Sock} (hlisten : listen = some l) (conn : List (Option Sock))
    (nat : Option Sock) (t : Report) :
    listenReady platform (fill listen conn nat).1 t l ≠ none := by
  have hlen := (@fill_length listen conn nat).1
  rw [hlisten] at hlen
  cases platform with
  | linux =>
    have hpos : 0 < (fill (some l) conn nat).1.length := by
      simp only [ne_eq, reduceCtorEq, not_false_eq_true, if_true] at hlen
      omega
    simp [listenReady, readAt, hlisten, hpos]
  | windows => simp [listenReady]

lemma acceptStep_accounts (conn : List (Option Sock)) (nat : Option Sock) (t : Report)
    {log : List Did} {l : List Sock} (h : Accounts listen log l) :
    ∃ win log', acceptStep platform mode (fill listen conn nat).1 t listen log = some (win, log') ∧
      Accounts listen log' (win.toList ++ l) ∧ ∀ c ∈ win, Won log' c := by
  obtain _ | s := listen
  · exact ⟨none, log, rfl, h, by simp⟩
  · have hready := @listenReady_ne_none platform (some s) s rfl conn nat t
    simp only [acceptStep]
    cases hr : listenReady platform (fill (some s) conn nat).1 t s with
    | none => exact absurd hr hready
    | some ready =>
      cases ready with
      | false => exact ⟨none, log, rfl, h, by simp⟩
      | true =>
        cases hc : unused (some s) log t.accepted with
        | none => exact ⟨none, log, rfl, h, by simp⟩
        | some c =>
          obtain ⟨hl, hlisten⟩ := h.unused hc
          obtain ⟨hwin, hlose⟩ := hfair c _ l (h.opened hl hlisten)
          cases hok : (mode.authenticate c (log ++ [.opened c])).1 with
          | true =>
            obtain ⟨hacc, hwon⟩ := hwin hok
            refine ⟨some c, _, by simp [hok], hacc, fun c' hc' => ?_⟩
            rw [Option.mem_some_iff] at hc'
            exact hc' ▸ hwon
          | false => exact ⟨none, _, by simp [hok], hlose hok, by simp⟩

/-- The sockets in the hands of the code. -/
def Race.socks (r : Race) : List Sock := r.conn.filterMap id ++ (r.nat.toList ++ r.result.toList)

/-- **One turn** reads what it has written, and keeps the account. -/
lemma turn_accounts (t : Report) {r : Race} (hr : r.result = none) (h : Accounts listen r.log r.socks) :
    ∃ r', turn platform mode listen t r = some r' ∧ Accounts listen r'.log r'.socks ∧
      ∀ c ∈ r'.result, Won r'.log c := by
  obtain ⟨conn, nat, result, log⟩ := r
  obtain rfl : result = none := hr
  obtain ⟨win, log', haccept, hacc, hwon⟩ :=
    @acceptStep_accounts platform mode listen Won hfair conn nat t log _ h
  obtain ⟨hlen, hnat⟩ := @fill_length listen conn nat
  unfold turn
  dsimp only
  rw [haccept]
  cases win with
  | some c =>
    refine ⟨_, rfl, hacc.perm (List.perm_append_comm.trans ?_), hwon⟩
    simp [Race.socks]
  | none =>
    obtain ⟨conn', win, log'', hpeers, hacc', hwon'⟩ :=
      @peersLoop_accounts platform mode listen Won hfair _ t conn 0 _ hlen log' _ hacc
    dsimp only
    rw [hpeers]
    cases win with
    | some c =>
      refine ⟨_, rfl, hacc'.perm (List.Perm.append_left _ ?_), hwon'⟩
      rw [Option.toList_none, List.append_nil]
      exact List.perm_append_comm
    | none =>
      cases hidx : (fill listen conn nat).2 with
      | none => exact ⟨_, rfl, hacc', by simp⟩
      | some j =>
        have hslot : Accounts listen log'' (nat.toList ++ conn'.filterMap id) :=
          hacc'.perm (by simpa using List.perm_append_comm)
        obtain ⟨nat', win, last, hstep, hacc'', hwon''⟩ := slotStep_accounts hfair
          (fun c => @probe_ne_none platform _ j (hnat j hidx) mode.auth t c t.natErr) hslot
        dsimp only
        rw [hstep]
        refine ⟨_, rfl, hacc''.perm ?_, hwon''⟩
        rw [← List.append_assoc]
        exact List.perm_append_comm

lemma loop_accounts (ts : List Report) {r : Race} (h : Accounts listen r.log r.socks)
    (hwon : ∀ c ∈ r.result, Won r.log c) :
    ∃ r', loop platform mode listen ts r = some r' ∧ Accounts listen r'.log r'.socks ∧
      ∀ c ∈ r'.result, Won r'.log c := by
  induction ts generalizing r with
  | nil => exact ⟨r, rfl, h, hwon⟩
  | cons t ts ih =>
    unfold loop
    by_cases hr : r.result = none
    · obtain ⟨r', hturn, hacc, hwon'⟩ := @turn_accounts platform mode listen Won hfair t r hr h
      rw [if_pos hr, hturn]
      exact ih hacc hwon'
    · rw [if_neg hr]
      exact ⟨r, rfl, h, hwon⟩

omit hfair in
lemma closeLoop_accounts {slots : List (Option Sock)} {log : List Did} {l : List Sock}
    (h : Accounts listen log (slots.filterMap id ++ l)) :
    Accounts listen (closeLoop slots log) l ∧
      ∃ post, closeLoop slots log = log ++ post ∧ ∀ d ∈ post, ∃ c, d = .closed c ∧ c ∉ l := by
  induction slots generalizing log with
  | nil => exact ⟨h, [], by simp [closeLoop], by simp⟩
  | cons slot slots ih =>
    cases slot with
    | none => exact ih h
    | some c =>
      have hc : c ∉ l := by
        have hnodup := (List.nodup_cons.mp h.holds.nodup).1
        exact fun hc => hnodup (List.mem_append.mpr (.inr hc))
      obtain ⟨hacc, post, heq, hpost⟩ := ih h.closed
      refine ⟨hacc, .closed c :: post, ?_, ?_⟩
      · refine Eq.trans heq ?_
        rw [List.append_assoc, List.singleton_append]
      · intro d hd
        rcases List.mem_cons.mp hd with rfl | hd
        · exact ⟨c, rfl, hc⟩
        · exact hpost d hd

/-- **A race** ends with all sockets closed but the one it returns. -/
theorem race_accounts (w : ℕ) (attempts : List Attempt) (nat : Option Sock)
    (hnat : ∀ c ∈ nat, some c ≠ listen) (ts : List Report) :
    ∃ result log, race platform mode w listen attempts nat ts = some (result, log) ∧
      Accounts listen log result.toList ∧
      ∀ c ∈ result, ∃ pre post, log = pre ++ post ∧ Won pre c ∧
        ∀ d ∈ post, ∃ c', d = .closed c' ∧ c' ≠ c := by
  have hstart : Accounts listen (nat.toList.map Did.opened) nat.toList := by
    have hnil : Accounts listen [] [] := ⟨Ledger.holds_nil, by simp, by simp⟩
    cases nat with
    | none => exact hnil
    | some c => exact hnil.opened (by simp) (hnat c rfl)
  have hcreate := createLoop_accounts w attempts hstart
  unfold race
  rcases hc : createLoop w listen attempts (nat.toList.map Did.opened) with ⟨conn, log⟩
  rw [hc] at hcreate
  have hbegin : Accounts listen log (Race.socks ⟨conn, nat, none, log⟩) := by
    simpa [Race.socks] using hcreate
  obtain ⟨r, hloop, hacc, hwon⟩ := @loop_accounts platform mode listen Won hfair ts
    ⟨conn, nat, none, log⟩ hbegin (by simp)
  have hrest : Accounts listen r.log ((r.conn ++ [r.nat]).filterMap id ++ r.result.toList) := by
    rw [List.filterMap_append, filterMap_cons, List.append_assoc]
    simpa [Race.socks] using hacc
  obtain ⟨hend, post, heq, hpost⟩ := closeLoop_accounts hrest
  dsimp only
  rw [hc, hloop]
  refine ⟨_, _, rfl, hend, fun c hmem => ⟨r.log, post, heq, hwon c hmem, fun d hd => ?_⟩⟩
  obtain ⟨c', rfl, hc'⟩ := hpost d hd
  refine ⟨c', rfl, ?_⟩
  rintro rfl
  exact hc' (by simpa using hmem)

end Race

/-! ### The two races -/

lemma fair_plain (listen : Option Sock) :
    Fair ⟨fun _ log => (true, log), false⟩ listen fun _ _ => True := by
  intro c log l h
  exact ⟨fun _ => ⟨h, trivial⟩, fun hok => by cases hok⟩

/-- The last thing that was done is a handshake on the socket, and it returned 0. -/
def Passed (log : List Did) (c : Sock) : Prop := ∃ pre sent, log = pre ++ [.tried c sent true]

lemma fair_tryAuthenticate (env : Env) (fileId keyHex : Bytes) (isSender : Bool)
    (listen : Option Sock) :
    Fair ⟨tryAuthenticate H env fileId keyHex isSender, true⟩ listen Passed := by
  intro c log l h
  simp only [tryAuthenticate]
  generalize (if isSender then ftAuthSend H (env (log.filterMap Did.act) c) fileId keyHex
    else ftAuthRecv H (env (log.filterMap Did.act) c) fileId keyHex) = r
  split_ifs with hcode
  · exact ⟨fun _ => ⟨h.tried (by simp) _ _, log, _, rfl⟩, fun hok => by cases hok⟩
  · refine ⟨fun hok => (by cases hok), fun _ => ?_⟩
    have htried := (h.tried (List.mem_cons_self) r.sent false).closed
    rwa [List.append_assoc] at htried

/-- What the account says in the end: it is in order and leaves the returned socket open only, so that every
other opening has its one closing, and the listening socket is never closed. -/
structure Settled (listen result : Option Sock) (log : List Did) : Prop where
  replay : Ledger.replay (log.map Did.move) = some result.toList.toFinset
  once : ∀ c, log.count (.opened c) = log.count (.closed c) + if result = some c then 1 else 0
  spared : ∀ c ∈ listen, .closed c ∉ log

lemma count_move {log : List Did} {m : Ledger.Move Sock} {d : Did} (h : ∀ x, Did.move x = m ↔ x = d) :
    (log.map Did.move).count m = log.count d := by
  rw [List.count_eq_countP, List.count_eq_countP, List.countP_map]
  exact List.countP_congr fun x _ => by simp [h]

lemma Accounts.settled {listen result : Option Sock} {log : List Did}
    (h : Accounts listen log result.toList) : Settled listen result log := by
  refine ⟨h.holds.replay, fun c => ?_, h.spared⟩
  have hcount := Ledger.count_opened h.holds.replay c
  rw [count_move (d := .opened c) fun x => by cases x <;> simp [Did.move],
    count_move (d := .closed c) fun x => by cases x <;> simp [Did.move]] at hcount
  simpa [eq_comm] using hcount

/-- **The race with authentication.** Whatever the system reports and however the handshakes go, no entry of
the array is read that was not written, the account is settled, and a socket that is returned has passed
the handshake and was not closed since. -/
theorem ftLanTransferAuth_accounts (platform : Platform) (H : Bytes → Bytes → Bytes) (w : ℕ)
    (env : Env) (fileId keyHex : Bytes) (hkey : keyHex ≠ []) (isSender : Bool)
    (listen : Option Sock) (attempts : List Attempt) (nat : Option Sock)
    (hnat : ∀ c ∈ nat, some c ≠ listen) (timeoutMs t0 : ℤ) (reports : ℕ → Report) (turns : ℕ) :
    (∃ result log, ftLanTransferAuth platform H w env fileId keyHex isSender listen attempts nat
        timeoutMs t0 reports turns = some (result, log) ∧ Settled listen result log ∧
      ∀ c ∈ result, ∃ pre sent post, log = pre ++ .tried c sent true :: post ∧
        ∀ d ∈ post, ∃ c', d = .closed c' ∧ c' ≠ c) ∧
    ∃ result log, ftLanTransfer platform w listen attempts nat timeoutMs reports =
      some (result, log) ∧ Settled listen result log := by
  constructor
  · obtain ⟨result, log, hrace, hacc, hwon⟩ := @race_accounts platform _ listen Passed
      (fair_tryAuthenticate env fileId keyHex isSender listen) w attempts nat hnat
      (((List.range turns).map reports).takeWhile fun t => decide (0 < timeoutMs - (t.now - t0)))
    refine ⟨result, log, ?_, hacc.settled, fun c hc => ?_⟩
    · rw [ftLanTransferAuth, if_neg hkey]
      exact hrace
    · obtain ⟨pre, post, rfl, ⟨before, sent, rfl⟩, hpost⟩ := hwon c hc
      exact ⟨before, sent, post, by rw [List.append_assoc, List.singleton_append], hpost⟩
  · obtain ⟨result, log, hrace, hacc, -⟩ := @race_accounts platform _ listen _ (fair_plain listen) w
      attempts nat hnat ((List.range ((timeoutMs.toNat + 49) / 50)).map reports)
    exact ⟨result, log, hrace, hacc.settled⟩

section Sample

/-- A peer that answers as it should. -/
def friend : Peer := ⟨[36], fun _ => [ascii "AKOK"]⟩

def quiet : Revents := ⟨false, false, false, false⟩

/-- There is a connection to accept, and nothing else. -/
def knock : Report where
  now := 0
  revents idx := if idx = 0 then ⟨true, false, false, false⟩ else quiet
  rfds _ := false
  wfds _ := false
  efds _ := false
  accepted := some 6
  peerErr _ := false
  natErr := false

/-- A sender that listens on 3, was given 4 and has created 5 for the second of two addresses, returns the
accepted socket 6 and has closed 4 and 5. -/
theorem ftLanTransferAuth_accounts_six :
    ∃ log, ftLanTransferAuth .linux sampleHmac 64 (fun _ _ => friend) sampleFileId sampleKeyHex true
        (some 3) [⟨ascii "nowhere", some 5⟩, ⟨ascii "10.0.0.7:9000", some 5⟩] (some 4) 3000 0
        (fun _ => knock) 2 = some (some 6, log) ∧
      Settled (some 3) (some 6) log := by
  have hnat : ∀ c ∈ some 4, some c ≠ some 3 := by decide
  obtain ⟨⟨result, log, hrun, hsettled, -⟩, -⟩ := ftLanTransferAuth_accounts .linux sampleHmac 64
    (fun _ _ => friend) sampleFileId sampleKeyHex (by decide) true (some 3)
    [⟨ascii "nowhere", some 5⟩, ⟨ascii "10.0.0.7:9000", some 5⟩] (some 4) hnat 3000 0
    (fun _ => knock) 2
  have hresult : (ftLanTransferAuth .linux sampleHmac 64 (fun _ _ => friend) sampleFileId
      sampleKeyHex true (some 3) [⟨ascii "nowhere", some 5⟩, ⟨ascii "10.0.0.7:9000", some 5⟩]
      (some 4) 3000 0 (fun _ => knock) 2).map Prod.fst = some (some 6) := by
    decide +kernel
  rw [hrun] at hresult
  cases hresult
  exact ⟨log, hrun, hsettled⟩

end Sample

/-! ### The race of FtLan -/

/-- The race of `FtLan` with the same handshakes. -/
structure Matches (mode : Mode) (coarse : FtLan.Mode) : Prop where
  authenticate : ∀ c log, coarse.authenticate c (log.filterMap Did.act) =
    ((mode.authenticate c log).1, (mode.authenticate c log).2.filterMap Did.act)
  dropFailed : coarse.dropFailed = mode.auth

/-- A race as `FtLan` has it. -/
def Race.seen (r : Race) : FtLan.Race := ⟨r.conn, r.nat, r.result, r.log.filterMap Did.act⟩

lemma createLoop_acts (w : ℕ) (listen : Option Sock) (attempts : List Attempt) {log : List Did}
    (h : log.filterMap Did.act = []) : (createLoop w listen attempts log).2.filterMap Did.act = [] := by
  induction attempts generalizing log with
  | nil => exact h
  | cons a attempts ih =>
    unfold createLoop
    split_ifs
    · exact ih h
    · cases unused listen log a.socket with
      | none => exact ih h
      | some s => exact ih (by simp [h, Did.act])

lemma closeLoop_acts (slots : List (Option Sock)) (log : List Did) :
    (closeLoop slots log).filterMap Did.act =
      log.filterMap Did.act ++ slots.filterMap fun slot => slot.map Act.close := by
  induction slots generalizing log with
  | nil => simp [closeLoop]
  | cons slot slots ih =>
    cases slot with
    | none => exact ih log
    | some c =>
      refine (ih (log ++ [.closed c])).trans ?_
      simp [Did.act]

section Coarse

variable {listen : Option Sock} {coarse : FtLan.Mode} (hmode : Matches mode coarse)

/-- What `FtLan` is told about a socket. -/
def told (slot : Option Sock) (look : Sock → Option Probe) : Probe := (slot.bind look).getD .idle

variable (platform) in
/-- What it is told about the connecting sockets. -/
def toldPeers (auth : Bool) (pfds : List (Option Sock)) (t : Report) :
    List (Option Sock) → ℕ → ℕ → ℕ → Probe
  | [], _, _, _ => .idle
  | slot :: _, i, idx, 0 => told slot fun c => probe platform auth pfds t idx c (t.peerErr i)
  | _ :: slots, i, idx, k + 1 => toldPeers auth pfds t slots (i + 1) (idx + 1) k

variable (platform) in
/-- What it is told in one turn. -/
def toldPoll (auth : Bool) (listen : Option Sock) (t : Report) (r : Race) : Poll where
  accepted := listen.bind fun l =>
    if listenReady platform (fill listen r.conn r.nat).1 t l = some true then
      unused listen r.log t.accepted
    else none
  peers := toldPeers platform auth (fill listen r.conn r.nat).1 t r.conn 0
    (if listen ≠ none then 1 else 0)
  nat := told r.nat fun c => (fill listen r.conn r.nat).2.bind fun j =>
    probe platform auth (fill listen r.conn r.nat).1 t j c t.natErr

include hmode

lemma slotStep_coarse {slot slot' win : Option Sock} {look : Sock → Option Probe}
    {log log' : List Did} (h : slotStep mode slot look log = some (slot', win, log')) :
    probeSlot coarse slot (told slot look) (log.filterMap Did.act) =
      (slot', win, log'.filterMap Did.act) := by
  cases slot with
  | none =>
    cases h
    rfl
  | some c =>
    simp only [slotStep] at h
    cases hp : look c with
    | none => simp [hp] at h
    | some p =>
      have htold : told (some c) look = p := by simp [told, hp]
      rw [htold]
      cases p with
      | idle =>
        simp only [hp] at h
        cases h
        rfl
      | connected =>
        simp only [hp] at h
        cases h
        simp only [probeSlot, hmode.authenticate]
      | failed =>
        simp only [hp] at h
        simp only [probeSlot, hmode.dropFailed]
        split_ifs at h ⊢ with hauth
        · cases h
          simp [Did.act]
        · cases h
          rfl

lemma peersLoop_coarse {pfds : List (Option Sock)} {t : Report} {slots slots' : List (Option Sock)}
    {i idx : ℕ} {win : Option Sock} {log log' : List Did}
    (h : peersLoop platform mode pfds t slots i idx log = some (slots', win, log')) :
    probeSlots coarse slots (toldPeers platform mode.auth pfds t slots i idx)
      (log.filterMap Did.act) = (slots', win, log'.filterMap Did.act) := by
  induction slots generalizing i idx log slots' with
  | nil =>
    cases h
    rfl
  | cons slot slots ih =>
    unfold peersLoop at h
    rcases hstep : slotStep mode slot
      (fun c => probe platform mode.auth pfds t idx c (t.peerErr i)) log with _ | ⟨first, _ | c, mid⟩
    · simp [hstep] at h
    · simp only [hstep, Option.map_eq_some_iff] at h
      obtain ⟨⟨rest, win', last⟩, hloop, heq⟩ := h
      cases heq
      have hrest := ih hloop
      unfold probeSlots
      rw [show toldPeers platform mode.auth pfds t (slot :: slots) i idx 0 = told slot
        fun c => probe platform mode.auth pfds t idx c (t.peerErr i) from rfl,
        slotStep_coarse hmode hstep]
      exact (congrArg (fun r => (first :: r.1, r.2.1, r.2.2)) hrest)
    · simp only [hstep] at h
      cases h
      unfold probeSlots
      rw [show toldPeers platform mode.auth pfds t (slot :: slots) i idx 0 = told slot
        fun c => probe platform mode.auth pfds t idx c (t.peerErr i) from rfl,
        slotStep_coarse hmode hstep]

lemma acceptStep_coarse {t : Report} {r : Race} {win : Option Sock} {log : List Did}
    (h : acceptStep platform mode (fill listen r.conn r.nat).1 t listen r.log = some (win, log)) :
    probeAccepted coarse listen.isSome (toldPoll platform mode.auth listen t r).accepted
      (r.log.filterMap Did.act) = (win, log.filterMap Did.act) := by
  obtain _ | l := listen
  · cases h
    rfl
  · simp only [acceptStep] at h
    rcases hready : listenReady platform (fill (some l) r.conn r.nat).1 t l with _ | _ | _
    · simp [hready] at h
    · simp only [hready] at h
      cases h
      simp [toldPoll, hready, probeAccepted]
    · simp only [hready] at h
      cases hc : unused (some l) r.log t.accepted with
      | none =>
        simp only [hc] at h
        cases h
        simp [toldPoll, hc, probeAccepted]
      | some c =>
        simp only [hc] at h
        cases h
        have hlog : (r.log ++ [Did.opened c]).filterMap Did.act = r.log.filterMap Did.act := by
          simp [Did.act]
        have hauth := hmode.authenticate c (r.log ++ [.opened c])
        rw [hlog] at hauth
        simp [toldPoll, hready, hc, probeAccepted, hauth]

lemma turn_coarse {t : Report} {r r' : Race} (hr : r.result = none)
    (h : turn platform mode listen t r = some r') :
    FtLan.turn coarse listen.isSome (toldPoll platform mode.auth listen t r) r.seen = r'.seen := by
  unfold turn at h
  dsimp only at h
  unfold FtLan.turn
  rcases haccept : acceptStep platform mode (fill listen r.conn r.nat).1 t listen r.log with
    _ | ⟨_ | c, log⟩
  · rw [haccept] at h
    cases h
  · have hacc := acceptStep_coarse hmode haccept
    rw [haccept] at h
    dsimp only at h
    rw [Race.seen, hacc]
    dsimp only
    rcases hpeers : peersLoop platform mode (fill listen r.conn r.nat).1 t r.conn 0
      (if listen ≠ none then 1 else 0) log with _ | ⟨conn, _ | c, log'⟩
    · rw [hpeers] at h
      cases h
    · have hslots : probeSlots coarse r.conn (toldPoll platform mode.auth listen t r).peers
          (log.filterMap Did.act) = (conn, none, log'.filterMap Did.act) :=
        peersLoop_coarse hmode hpeers
      rw [hpeers] at h
      rw [hslots]
      dsimp only at h ⊢
      cases hidx : (fill listen r.conn r.nat).2 with
      | none =>
        have hidle : (toldPoll platform mode.auth listen t r).nat = .idle := by
          simp [toldPoll, hidx, told]
        rw [hidx] at h
        cases h
        rw [hidle]
        cases r.nat <;> simp [probeSlot, Race.seen, hr]
      | some j =>
        rw [hidx] at h
        obtain ⟨⟨nat', win, last⟩, hstep, rfl⟩ := Option.map_eq_some_iff.mp h
        have hnat : (toldPoll platform mode.auth listen t r).nat = told r.nat
            fun c => probe platform mode.auth (fill listen r.conn r.nat).1 t j c t.natErr := by
          simp [toldPoll, hidx]
        rw [hnat, slotStep_coarse hmode hstep]
        rfl
    · have hslots : probeSlots coarse r.conn (toldPoll platform mode.auth listen t r).peers
          (log.filterMap Did.act) = (conn, some c, log'.filterMap Did.act) :=
        peersLoop_coarse hmode hpeers
      rw [hpeers] at h
      rw [hslots]
      cases h
      rfl
  · have hacc := acceptStep_coarse hmode haccept
    rw [haccept] at h
    cases h
    rw [Race.seen, hacc]
    rfl

lemma loop_coarse (ts : List Report) {r r' : Race} (h : loop platform mode listen ts r = some r') :
    ∃ polls, FtLan.loop coarse listen.isSome polls r.seen = r'.seen := by
  induction ts generalizing r with
  | nil =>
    cases h
    exact ⟨[], rfl⟩
  | cons t ts ih =>
    unfold loop at h
    by_cases hr : r.result = none
    · rw [if_pos hr] at h
      obtain ⟨mid, hturn, hloop⟩ := Option.bind_eq_some_iff.mp h
      obtain ⟨polls, hpolls⟩ := ih hloop
      refine ⟨toldPoll platform mode.auth listen t r :: polls, ?_⟩
      rw [FtLan.loop, if_pos (show r.seen.result = none from hr), turn_coarse hmode hr hturn, hpolls]
    · rw [if_neg hr] at h
      cases h
      exact ⟨[], rfl⟩

/-- **The race of `FtLan`** with what it is told returns the same socket and does the same. -/
theorem race_coarse {w : ℕ} {attempts : List Attempt} {nat : Option Sock} {ts : List Report}
    {result : Option Sock} {log : List Did}
    (h : race platform mode w listen attempts nat ts = some (result, log)) :
    ∃ polls, lanTransfer coarse listen.isSome
        (createLoop w listen attempts (nat.toList.map Did.opened)).1 nat polls [] =
      (result, log.filterMap Did.act) := by
  unfold race at h
  dsimp only at h
  obtain ⟨r, hloop, heq⟩ := Option.map_eq_some_iff.mp h
  obtain ⟨polls, hpolls⟩ := loop_coarse hmode ts hloop
  cases heq
  have hstart : (createLoop w listen attempts (nat.toList.map Did.opened)).2.filterMap Did.act = [] :=
    createLoop_acts w listen attempts (by cases nat <;> rfl)
  refine ⟨polls, ?_⟩
  rw [Race.seen, hstart] at hpolls
  rw [lanTransfer, hpolls]
  exact Prod.ext rfl (closeLoop_acts _ _).symm

end Coarse

lemma matches_tryAuthenticate (env : Env) (fileId keyHex : Bytes) (isSender : Bool) :
    Matches ⟨tryAuthenticate H env fileId keyHex isSender, true⟩
      ⟨FtLan.tryAuthenticate H env fileId keyHex isSender, true⟩ := by
  refine ⟨fun c log => ?_, rfl⟩
  simp only [tryAuthenticate, FtLan.tryAuthenticate]
  split_ifs <;> simp [Did.act]

/-- The functions of the same names in `FtLan` return the same and do the same. -/
theorem ftLanTransferAuth_coarse {w : ℕ} {env : Env} {fileId keyHex : Bytes} {isSender : Bool}
    {listen : Option Sock} {attempts : List Attempt} {nat : Option Sock} {timeoutMs t0 : ℤ}
    {reports : ℕ → Report} {turns : ℕ} {result : Option Sock} {log : List Did}
    (h : ftLanTransferAuth platform H w env fileId keyHex isSender listen attempts nat timeoutMs t0
      reports turns = some (result, log)) :
    ∃ polls, FtLan.ftLanTransferAuth H env fileId keyHex isSender listen.isSome
      (createLoop w listen attempts (nat.toList.map Did.opened)).1 nat polls [] =
        (result, log.filterMap Did.act) := by
  unfold ftLanTransferAuth at h
  unfold FtLan.ftLanTransferAuth
  split_ifs at h ⊢
  · exact race_coarse ⟨fun _ _ => rfl, rfl⟩ h
  · exact race_coarse (matches_tryAuthenticate env fileId keyHex isSender) h

end SyncClipboard.LanSockets
