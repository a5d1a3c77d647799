import RelayStore.Cluster

/-! # Runs of a cluster

Clients keep connections to the nodes of a cluster, links are cut and mended, and texts
are handed to a node directly. Between two steps there is time for all relays to come to
their ends, so nothing is in flight when a step begins. Each step says what it came to for
its user, which relays it set off, by sender and then in order of time, and how it left the
cluster.
-/
namespace RelayStore

structure Scene where
  cluster : Cluster
  inboxes : List ((Nat × Nat) × Inbox) := []

namespace Scene

inductive Step where
  | request (node conn : Nat) (text : String)
  | handle (node : Nat) (text : String)
  | propagate (node : Nat) (text : String)
  | hasPeer (node : Nat)
  | cut (node : Nat)
  | mend (node : Nat)
deriving DecidableEq, Repr

inductive Outcome where
  | awaited (a : Awaited)
  | reply (r : Reply)
  | propagation (p : Propagation)
  | flag (b : Bool)
  | nothing
deriving DecidableEq, Repr

structure Report where
  outcome : Outcome
  relays : List Relay
  cluster : Cluster

def request (s : Scene) (node conn : Nat) (text : String) : Awaited × List Relay × Scene :=
  let inbox := (s.inboxes.lookup (node, conn)).getD {}
  let (t, replies) := s.cluster.exchange node (sentLine text)
  let (result, inbox) := (inbox.receive replies).await
  let others := s.inboxes.filter fun b => b.1 != (node, conn)
  (result, t.relays, { cluster := t.cluster, inboxes := ((node, conn), inbox) :: others })

def step (s : Scene) : Step → Outcome × List Relay × Scene
  | .request node conn text =>
    let (result, relays, s) := s.request node conn text
    (.awaited result, relays, s)
  | .handle node text =>
    let (t, reply) := s.cluster.handle node text
    (.reply reply, t.relays, { s with cluster := t.cluster })
  | .propagate node text =>
    let (t, outcome) := s.cluster.propagate node text
    (.propagation outcome, t.relays, { s with cluster := t.cluster })
  | .hasPeer node => (.flag (s.cluster.hasPeer node), [], s)
  | .cut node => (.nothing, [], { s with cluster := s.cluster.setLink node false })
  | .mend node => (.nothing, [], { s with cluster := s.cluster.setLink node true })

/-- The report of every step, unless a request waits for ever. -/
def run (s : Scene) : List Step → Option (List Report)
  | [] => some []
  | st :: steps =>
    match s.step st with
    | (.awaited .never, _, _) => none
    | (outcome, relays, s) =>
      let relays := relays.mergeSort fun a b => a.source ≤ b.source
      (s.run steps).map (⟨outcome, relays, s.cluster⟩ :: ·)

end Scene
end RelayStore
