import RelayStore.Inbox

/-! # Clients and one server

Clients talk to one server over connections that they open when they first need them. The
server is a node without neighbour, or nobody at all, or a script: a scripted server takes
a single connection, answers each line that it receives with the next of its prepared byte
strings, ends its output after the last one and listens on. A request to which no reply
ever comes has no outcome, and then neither has the run; nor has a run whose script never
got its connection.
-/
namespace RelayStore

inductive Guest where
  | awaited
  | present (conn : Nat)
  | gone
deriving DecidableEq, Repr

structure Script where
  /-- The answers that are left. -/
  answers : List Bytes
  received : Array UInt8 := #[]
  guest : Guest := .awaited

/-- The script after it has received bytes that end with a newline, and what then is in the
inbox of its guest. -/
def Script.receive (s : Script) (bytes : Bytes) (inbox : Inbox) : Script × Inbox :=
  let received := s.received ++ bytes.toArray
  if inbox.isClosed then ({ s with received }, inbox)
  else
    let n := bytes.count newline
    let inbox := inbox.receive (s.answers.take n).flatten
    let answers := s.answers.drop n
    ({ s with answers, received }, if answers.isEmpty then inbox.close else inbox)

inductive Server where
  | node (store : Store)
  | nobody
  | script (s : Script)

namespace Server

def isListening : Server → Bool
  | .node _ | .script _ => true
  | .nobody => false

def accept (server : Server) (conn : Nat) : Server × Inbox :=
  match server with
  | .script s =>
    if s.guest = .awaited then
      (.script { s with guest := .present conn },
        if s.answers.isEmpty then ({} : Inbox).close else {})
    else (server, {})
  | .node _ | .nobody => (server, {})

def receive (server : Server) (conn : Nat) (bytes : Bytes) (inbox : Inbox) : Server × Inbox :=
  match server with
  | .node store =>
    let (store, replies) := store.exchange bytes
    (.node store, inbox.receive replies)
  | .script s =>
    if s.guest = .present conn then
      let (s, inbox) := s.receive bytes inbox
      (.script s, inbox)
    else (server, inbox)
  | .nobody => (server, inbox)

def leave (server : Server) (conn : Nat) : Server :=
  match server with
  | .script s => if s.guest = .present conn then .script { s with guest := .gone } else server
  | .node _ | .nobody => server

/-- A script that nobody has called waits for ever. -/
def isDone : Server → Bool
  | .script s => s.guest != .awaited
  | .node _ | .nobody => true

end Server

structure Dialogue where
  network : Network
  /-- The address of the server as messages give it. -/
  address : String
  server : Server
  inboxes : Inboxes := []

namespace Dialogue

inductive Step where
  | request (conn : Nat) (text : String)
  | close (conn : Nat)
deriving DecidableEq, Repr

/-- The inbox of a connection, which is opened if it is not open. -/
def connect (d : Dialogue) (conn : Nat) : Except Failure (Dialogue × Inbox) :=
  match d.inboxes.find? conn with
  | some inbox => .ok (d, inbox)
  | none =>
    match d.network.obstacle? d.server.isListening with
    | some cause => .error (.connect d.address cause)
    | none =>
      let (server, inbox) := d.server.accept conn
      .ok ({ d with server, inboxes := d.inboxes.put conn inbox }, inbox)

def request (d : Dialogue) (conn : Nat) (text : String) : Awaited × Dialogue :=
  match d.connect conn with
  | .error f => (.failure f, d)
  | .ok (d, inbox) =>
    let (server, inbox) := d.server.receive conn (sentLine text) inbox
    let (result, inbox) := inbox.await
    (result, { d with server, inboxes := d.inboxes.put conn inbox })

def get (d : Dialogue) (conn : Nat) (key : String) : Awaited × Dialogue :=
  d.request conn (Command.get key).render

/-- Both texts go into the line as they are. -/
def set (d : Dialogue) (conn : Nat) (key value : String) : Awaited × Dialogue :=
  d.request conn (Command.set key value).render

def delete (d : Dialogue) (conn : Nat) (key : String) : Awaited × Dialogue :=
  d.request conn (Command.delete key).render

def close (d : Dialogue) (conn : Nat) : Dialogue :=
  { d with server := d.server.leave conn, inboxes := d.inboxes.erase conn }

def step (d : Dialogue) : Step → Option Awaited × Dialogue
  | .request conn text =>
    let (result, d) := d.request conn text
    (some result, d)
  | .close conn => (none, d.close conn)

def run (d : Dialogue) : List Step → Option (List (Option Awaited) × Dialogue)
  | [] => if d.server.isDone then some ([], d) else none
  | s :: steps =>
    match d.step s with
    | (some .never, _) => none
    | (result, d) => (d.run steps).map fun (results, d) => (result :: results, d)

end Dialogue
end RelayStore
