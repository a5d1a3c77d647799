import RelayStore.Inbox

/-! # Clusters

Nodes with one neighbour each. A mutation that a client sends to a node is relayed to the
neighbour as a single marked line on a connection of its own. The node only sends it, and
goes on; the neighbour serves the bytes when they come to it, like those of any connection,
and nobody waits for its replies. A relay that fails changes nothing for the client and is
not made up for later. Since what arrives is cut into lines again, one relayed text may hold
several requests, and those without marker are relayed once more.
-/
namespace RelayStore

inductive Peer where
  | absent
  | node (index : Nat)
  /-- Takes everything and answers nothing. -/
  | sink
  /-- Nobody listens there. -/
  | refused
  /-- No address at all. -/
  | invalid (address : String)
  /-- Takes connections but reads nothing. -/
  | stalled
deriving DecidableEq, Repr

structure Member where
  store : Store := .empty
  peer : Peer := .absent
  /-- Whether the link to the neighbour is up. -/
  isLinked : Bool := true

abbrev Cluster := Array Member

inductive Propagation where
  | delivered
  | skipped
  | failed
deriving DecidableEq, Repr

structure Relay where
  source : Nat
  /-- The node that it goes to; none if that is a sink. -/
  target : Option Nat
  wire : Bytes
  /-- All that the node has written back, once it has served the relay. -/
  answer : Option Bytes := none
deriving DecidableEq, Repr

def markedLine (line : String) : String :=
  marker ++ " " ++ Text.trim line

/-- How much a neighbour that reads nothing takes before the sender gives up. -/
def stalledCapacity : Nat := 0x400000

/-- Rounds of relays that one event is followed over. They are more than any event needs: a
line that was cut from a relayed text carries the marker when it is relayed in its turn. -/
def hopLimit : Nat := 4

structure Traffic where
  cluster : Cluster
  /-- Relays that have been sent and that have not come to their end yet, the oldest first. -/
  inFlight : List Relay := []
  /-- Relays that have come to their end. -/
  relays : List Relay := []

namespace Cluster

def storeAt (cluster : Cluster) (i : Nat) : Store :=
  match cluster[i]? with
  | some m => m.store
  | none => .empty

def setStore (cluster : Cluster) (i : Nat) (s : Store) : Cluster :=
  cluster.modify i fun m => { m with store := s }

def setLink (cluster : Cluster) (i : Nat) (isLinked : Bool) : Cluster :=
  cluster.modify i fun m => { m with isLinked }

/-- The neighbour as the node can reach it now: over a cut link it is like one that refuses. -/
def reachablePeer (cluster : Cluster) (i : Nat) : Peer :=
  match cluster[i]? with
  | none => .absent
  | some m =>
    match m.peer with
    | .node _ | .sink => if m.isLinked then m.peer else .refused
    | peer => peer

def hasPeer (cluster : Cluster) (i : Nat) : Bool :=
  match cluster[i]? with
  | none => false
  | some m => m.peer ≠ .absent

end Cluster

namespace Traffic

/-- Sends a line to the neighbour without waiting for it to be served. -/
def post (i : Nat) (t : Traffic) (line : String) : Traffic × Propagation :=
  let wire := sentLine (markedLine line)
  match t.cluster.reachablePeer i with
  | .absent => (t, .skipped)
  | .refused | .invalid _ => (t, .failed)
  | .stalled => (t, if wire.length ≤ stalledCapacity then .delivered else .failed)
  | .sink => ({ t with inFlight := t.inFlight ++ [⟨i, none, wire, none⟩] }, .delivered)
  | .node j => ({ t with inFlight := t.inFlight ++ [⟨i, some j, wire, none⟩] }, .delivered)

def answer (i : Nat) (t : Traffic) (line : String) : Traffic × Reply :=
  let a := (t.cluster.storeAt i).answer line
  let t := { t with cluster := t.cluster.setStore i a.store }
  match a.aftermath with
  | .forward => ((t.post i line).1, a.reply)
  | .nothing | .adopted _ => (t, a.reply)

def serveAt (i : Nat) (t : Traffic) (src : Source) : Traffic × Bytes :=
  let o := serve (answer i) t src {}
  (o.state, o.sink.written.toList)

/-- A relay comes to its end as such a stream. A node serves it like any connection; its replies
go to a socket that the sender has closed, so the sink may fail at any of them. -/
def land (t : Traffic) (r : Relay) (src : Source) (sink : Sink) : Traffic :=
  match r.target with
  | none => { t with relays := t.relays ++ [r] }
  | some j =>
    let o := serve (answer j) t src sink
    { o.state with
      relays := o.state.relays ++ [{ r with answer := some o.sink.written.toList }] }

/-- Any relay that is in flight comes to its end, however its bytes are cut into reads and
whatever becomes of the replies. Relays are not kept in order: each has its own connection. -/
inductive Delivery : Traffic → Traffic → Prop
  | land {t : Traffic} {before rest : List Relay} {r : Relay} {src : Source} {sink : Sink}
      (hflight : t.inFlight = before ++ r :: rest) (hbytes : src.bytes = r.wire)
      (hend : src.ending = .closed) :
      Delivery t (land { t with inFlight := before ++ rest } r src sink)

/-- All relays that are in flight come to their ends, the oldest first, and no reply is lost.
What they set off is in flight then. -/
def round (t : Traffic) : Traffic :=
  t.inFlight.foldl (fun t r => t.land r ⟨[r.wire], .closed⟩ {}) { t with inFlight := [] }

def settle (t : Traffic) : (rounds : Nat) → Traffic
  | 0 => t
  | rounds + 1 => t.round.settle rounds

end Traffic

namespace Cluster

def propagate (cluster : Cluster) (i : Nat) (line : String) : Traffic × Propagation :=
  let (t, outcome) := Traffic.post i { cluster } line
  (t.settle hopLimit, outcome)

def handle (cluster : Cluster) (i : Nat) (text : String) : Traffic × Reply :=
  let (t, reply) := Traffic.answer i { cluster } text
  (t.settle hopLimit, reply)

/-- A node serves bytes that a client's connection brings, and leaves it open. Nothing is in
flight afterwards. -/
def exchange (cluster : Cluster) (i : Nat) (bytes : Bytes) : Traffic × Bytes :=
  let (t, replies) := Traffic.serveAt i { cluster } ⟨[bytes], .idle⟩
  (t.settle hopLimit, replies)

end Cluster
end RelayStore
