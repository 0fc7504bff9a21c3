import SyncClipboard.Client
import SyncClipboard.Dispatcher

/-!
The server with two clients of which one sends files and one receives them.

Both are connected and have got their `hello_ack`. From then on every message of either side waits
in the network until it is handled, in any order; a message that is never handled is lost.
-/

namespace SyncClipboard.Parties

open ServerModel Client

inductive Role
  | sender
  | receiver
  deriving DecidableEq

/-- The server, the two connections to it, and the clients. -/
structure Setup where
  cfg : Config
  sid : Role → SessionId
  sid_ne : sid .sender ≠ sid .receiver
  lib : Lib
  opt : Role → Options

variable (net : Setup)

def Setup.level (r : Role) : ℤ := (net.opt r).fileTransferLevel

/-- The client at the other end of a connection. -/
def Setup.roleOf (t : SessionId) : Option Role :=
  if t = net.sid .sender then some .sender
  else if t = net.sid .receiver then some .receiver
  else none

structure Sys where
  server : Server
  client : Role → State
  toServer : List (Role × WsMessage)
  toClient : List (Role × WsMessage)

inductive Out
  | client (r : Role) (d : Did)
  | server (a : Act)
  deriving DecidableEq

/-- Both are connected and know the level of the server. -/
def begin : Sys where
  server := Run.exec (Dispatcher.step net.cfg) init
    [.established (net.sid .sender) 0 allOk, .established (net.sid .receiver) 0 allOk]
  client _ := { Client.start with serverFileLevel := net.cfg.fileTransferLevel }
  toServer := []
  toClient := []

/-! ### Steps -/

inductive Label
  | copy (r : Role) (l : Listening) (uuid : String) (held : Held)
  | toServer (i : ℕ) (now : ℤ) (link : Net)
  | toClient (i : ℕ) (l : Listening)
  | threadStart (r : Role) (i : ℕ)
  | threadEnd (r : Role) (i : ℕ) (out : Outcome)
  | closed (r : Role)
  | evict (now : ℤ)
  | cleanup (now : ℤ)

def sent (r : Role) (ds : List Did) : List (Role × WsMessage) :=
  ds.filterMap fun
    | .send m => some (r, m)
    | _ => none

def delivered (as : List Act) : List (Role × WsMessage) :=
  as.filterMap fun
    | .send t f true => (net.roleOf t).map fun r => (r, f)
    | _ => none

def clientDoes (y : Sys) (r : Role) (p : State × List Did) : Sys × List Out :=
  ({ y with client := Function.update y.client r p.1, toServer := y.toServer ++ sent r p.2 },
    p.2.map (.client r))

def serverDoes (y : Sys) (e : Dispatcher.Event) : Sys × List Out :=
  let p := Dispatcher.step net.cfg y.server e
  ({ y with server := p.1, toClient := y.toClient ++ delivered net p.2 }, p.2.map .server)

def step (y : Sys) : Label → Sys × List Out
  | .copy r l uuid held =>
    clientDoes y r (clipboardChange net.lib (net.opt r) l uuid held (y.client r))
  | .toServer i now link =>
    match y.toServer[i]? with
    | none => (y, [])
    | some (r, m) =>
      serverDoes net { y with toServer := y.toServer.eraseIdx i }
        (.text (net.sid r) (some m) now link)
  | .toClient i l =>
    match y.toClient[i]? with
    | none => (y, [])
    | some (r, m) =>
      clientDoes { y with toClient := y.toClient.eraseIdx i } r
        (onMessage net.lib (net.opt r) l m (y.client r))
  | .threadStart r i => clientDoes y r (threadStart i (y.client r))
  | .threadEnd r i out => clientDoes y r (threadEnd net.lib (net.opt r) i out (y.client r))
  | .closed r => serverDoes net y (.closed (net.sid r))
  | .evict now => serverDoes net y (.evict now)
  | .cleanup now => serverDoes net y (.cleanup now)

/-- The receiver copies texts only. -/
def InRole : Label → Prop
  | .copy .receiver _ _ held => held.image = none ∧ held.file = none
  | _ => True

end SyncClipboard.Parties
