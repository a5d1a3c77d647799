import RelayStore.Gate
import RelayStore.Inbox

/-! # Admission

A node serves a connection from the time that its loop has accepted it. Connections that the
loop has not come to are open for their clients, but they wait, and what they send waits with
them. The loop accepts the one that has waited longest, once it has a permit. A connection that
was closed while it waited is accepted in its turn as well, and its session ends when all that
was sent has been served, or at the first reply that cannot be written any more. When the node
shuts down the loop stops and those that wait are dropped, but the sessions go on. Between two
steps the loop and the sessions have the time to do all that they can.
-/
namespace RelayStore

structure Visitor where
  /-- How many connections were opened before it. -/
  number : Nat
  conn : Nat
  /-- What was sent while it waited. -/
  unserved : Bytes := []
  inbox : Inbox := {}
  isOpen : Bool := true

structure Hall where
  network : Network
  /-- The address of the node as messages give it. -/
  address : String
  cap : Option Cap
  gate : Gate := (Gate.ofCap cap).acquire
  /-- What the socket of a connection, by number, still takes once its client has closed it. -/
  farewell : Nat → Sink := fun _ => {}
  isListening : Bool := true
  store : Store := .empty
  /-- Accepted, and their sessions go on, in the order in which they were accepted. -/
  served : List Visitor := []
  /-- Not yet accepted, the one that waits longest first. -/
  waiting : List Visitor := []
  /-- Connections that were dropped and that their clients have not closed. -/
  dropped : List Nat := []
  /-- How many connections have been opened. -/
  opened : Nat := 0

namespace Visitor

/-- A session begins with all that was sent while the visitor waited. -/
def enter (v : Visitor) (farewell : Nat → Sink) (store : Store) : Store × Visitor :=
  if v.isOpen then
    let (store, replies) := store.exchange v.unserved
    (store, { v with unserved := [], inbox := v.inbox.receive replies })
  else ((store.serve ⟨[v.unserved], .closed⟩ (farewell v.number)).state, v)

def shut (conn : Nat) (v : Visitor) : Visitor :=
  if v.conn = conn then { v with isOpen := false } else v

def keep (conn : Nat) (text : String) (v : Visitor) : Visitor :=
  if v.isOpen && v.conn == conn then { v with unserved := v.unserved ++ sentLine text } else v

def hold (conn : Nat) (inbox : Inbox) (v : Visitor) : Visitor :=
  if v.conn = conn then { v with inbox } else v

end Visitor

namespace Hall

def acquire (h : Hall) : Hall :=
  { h with gate := h.gate.acquire }

/-- The loop has accepted a connection, and its session begins. If the client has left, the
session is over before the loop goes on. -/
def accept (h : Hall) (v : Visitor) : Hall :=
  let (store, v) := v.enter h.farewell h.store
  let gate := h.gate.accept
  if v.isOpen then { h with store, gate, served := h.served ++ [v] }
  else { h with store, gate := gate.release 1 }

def acceptAll (h : Hall) : List Visitor → Hall
  | [] => { h.acquire with waiting := [] }
  | v :: waiting =>
    if h.acquire.gate.isReady then (h.acquire.accept v).acceptAll waiting
    else { h.acquire with waiting := v :: waiting }

def resume (h : Hall) : Hall :=
  if h.isListening then h.acceptAll h.waiting else h

def leave (h : Hall) (conn : Nat) : Hall :=
  { h with
    gate := h.gate.release (h.served.countP (·.conn == conn))
    served := h.served.filter (·.conn != conn)
    waiting := h.waiting.map (Visitor.shut conn)
    dropped := h.dropped.filter (· != conn) }

def close (h : Hall) (conn : Nat) : Hall :=
  (h.leave conn).resume

def push (h : Hall) (conn : Nat) : Hall :=
  { h with waiting := h.waiting ++ [{ number := h.opened, conn }], opened := h.opened + 1 }

/-- Opens a connection; an earlier one of the same client is closed. -/
def connect (h : Hall) (conn : Nat) : Option Failure × Hall :=
  match h.network.obstacle? h.isListening with
  | some cause => (some (.connect h.address cause), h)
  | none => (none, ((h.leave conn).push conn).resume)

/-- The loop cannot accept the connection that is next. That connection stays in its place. -/
def acceptFailure (h : Hall) : Hall :=
  resume { h with gate := h.gate.drop }

inductive Result where
  | awaited (a : Awaited)
  /-- The connection was dropped. -/
  | disconnected
  /-- There is no such connection. -/
  | nothing
deriving DecidableEq, Repr

def ask (store : Store) (inbox : Inbox) (text : String) : Awaited × Store × Inbox :=
  let (store, replies) := store.exchange (sentLine text)
  let (result, inbox) := (inbox.receive replies).await
  (result, store, inbox)

def request (h : Hall) (conn : Nat) (text : String) : Result × Hall :=
  match h.served.find? (·.conn = conn) with
  | some v =>
    let (result, store, inbox) := ask h.store v.inbox text
    (.awaited result, { h with store, served := h.served.map (Visitor.hold conn inbox) })
  | none =>
    if h.waiting.any fun v => v.isOpen && v.conn == conn then
      (.awaited .never, { h with waiting := h.waiting.map (Visitor.keep conn text) })
    else if h.dropped.contains conn then (.disconnected, h)
    else (.nothing, h)

def shutdown (h : Hall) : Bool × Hall :=
  if h.isListening then
    (true, { h with
      isListening := false
      gate := h.gate.drop
      dropped := h.dropped ++ (h.waiting.filter (·.isOpen)).map (·.conn)
      waiting := [] })
  else (false, h)

def bindAgain (h : Hall) : Option Failure :=
  if h.isListening then some (.bind h.address .inUse) else none

inductive Step where
  | connect (conn : Nat)
  /-- Waits for a reply as long as it takes. -/
  | request (conn : Nat) (text : String)
  /-- Waits for a reply for a short time. -/
  | attempt (conn : Nat) (text : String)
  | close (conn : Nat)
  /-- The loop cannot accept the next connection. -/
  | acceptFailure
  | shutdown
  | bindAgain
deriving DecidableEq, Repr

inductive Outcome where
  | connected
  | bound
  | failed (f : Failure)
  | reply (text : String)
  | disconnected
  | pending
  | stopped
  | nothing
deriving DecidableEq, Repr

/-- What waiting without end comes to; nothing if no reply ever comes. -/
def Result.outcome? : Result → Option Outcome
  | .awaited (.reply text) => some (.reply text)
  | .awaited (.failure _) | .disconnected => some .disconnected
  | .awaited .never => none
  | .nothing => some .nothing

def step (h : Hall) : Step → Option Outcome × Hall
  | .connect conn =>
    match h.connect conn with
    | (none, h) => (some .connected, h)
    | (some f, h) => (some (.failed f), h)
  | .request conn text =>
    let (result, h) := h.request conn text
    (result.outcome?, h)
  | .attempt conn text =>
    let (result, h) := h.request conn text
    (some (result.outcome?.getD .pending), h)
  | .close conn => (some .nothing, h.close conn)
  | .acceptFailure => (some .nothing, h.acceptFailure)
  | .shutdown =>
    let (stopped, h) := h.shutdown
    (some (if stopped then .stopped else .nothing), h)
  | .bindAgain =>
    match h.bindAgain with
    | some f => (some (.failed f), h)
    | none => (some .bound, h)

def run (h : Hall) : List Step → Option (List Outcome)
  | [] => some []
  | s :: steps =>
    match h.step s with
    | (none, _) => none
    | (some outcome, h) => (h.run steps).map (outcome :: ·)

end Hall
end RelayStore
