import RelayStore.CommandLine.Invocation
import RelayStore.Dialogue
import RelayStore.Text.Quoted

/-! # The service

A node that runs as a program takes its address, says in its log where it listens and
whether it relays, notes every update that came from a neighbour, and says when it shuts
down. If the address is taken it ends at once and logs nothing.
-/
namespace RelayStore

inductive LogEntry where
  | listening (address : String)
  | replicating (peer : String)
  | standalone
  | adopted (key : String)
  | stopping
deriving DecidableEq, Repr

def LogEntry.render : LogEntry → String
  | .listening address => "INFO node listening on " ++ address
  | .replicating peer => "INFO replicating updates to peer peer=" ++ peer
  | .standalone => "INFO no peer configured; running standalone"
  | .adopted key => "INFO applied update from peer key=" ++ Text.quote key
  | .stopping => "INFO node shutting down"

namespace Service

def banner (config : NodeConfig) (address : String) : List LogEntry :=
  [.listening address,
    match config.peer with
    | some peer => .replicating peer
    | none => .standalone]

def adoptions (s : Store) : List Item → List LogEntry
  | [] => []
  | .tooLong :: items => adoptions s items
  | .line text :: items =>
    let a := s.answer text
    match a.aftermath with
    | .adopted key => .adopted key :: adoptions a.store items
    | .forward | .nothing => adoptions a.store items

structure Run where
  banner : List LogEntry := []
  replies : List Awaited := []
  adopted : List LogEntry := []
  last : Option LogEntry := none
  exitCode : Nat := 0
  errorText : String := ""

def converse (d : Dialogue) (requests : List String) : Option (List Awaited) :=
  (d.run (requests.map (.request 0))).map fun r => r.1.filterMap id

/-- The program with these arguments on a host where its address may be taken. One client sends
the requests, and then the node is told to stop. There is no such run if the arguments ask
for something else than a node, or if a request waits for ever. -/
def run (network : Network) (isTaken : Bool) (args requests : List String) : Option Run :=
  match CommandLine.parse args with
  | .error notice =>
    some { exitCode := notice.exitCode, errorText := if notice.isAnswer then "" else notice.text }
  | .ok (.client _) => none
  | .ok (.serve config) =>
    let address := config.listen.render
    if isTaken then
      some { exitCode := 1, errorText := (Failure.bind address .inUse).report }
    else do
      let replies ← converse { network, address, server := .node .empty } requests
      let sent := match network with
        | .up => requests.flatMap sentLine
        | .down => []
      return {
        banner := banner config address
        replies
        adopted := adoptions .empty (Source.items ⟨[sent], .idle⟩).1
        last := some .stopping }

end Service
end RelayStore
