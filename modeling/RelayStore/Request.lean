import RelayStore.Command

/-! # Requests

A request line is a command, with the marker in front if a neighbour sent it. Only one
marker is taken, and a line that is no request is rejected for exactly one cause: it has
no token, it has nothing behind the marker, the name is unknown, or the number of
arguments is wrong. A line can also be rejected unread because it is too long.
-/
namespace RelayStore
open Text

/-- Who sent a request. What a neighbour sent is applied but never relayed again. -/
inductive Origin where
  | client
  | peer
deriving DecidableEq, Repr

structure Request where
  origin : Origin
  command : Command
deriving DecidableEq, Repr

inductive Rejection where
  | empty
  | missingCommand
  /-- The name is quoted as it was typed. -/
  | unknownCommand (name : String)
  | wrongArity (usage : String)
  | lineTooLong (limit : Nat)
deriving DecidableEq, Repr

def Rejection.message : Rejection → String
  | .empty => "empty command"
  | .missingCommand => "PROPAGATE must be followed by a command"
  | .unknownCommand name => "invalid command '" ++ name ++ "'"
  | .wrongArity usage => usage
  | .lineTooLong limit => "line too long (limit " ++ toString limit ++ " bytes)"

def marker : String := "PROPAGATE"

def Command.ofTokens (name : String) (args : List String) : Except Rejection Command :=
  match Verb.ofName? name with
  | none => .error (.unknownCommand name)
  | some verb =>
    match verb.command? args with
    | none => .error (.wrongArity verb.usage)
    | some command => .ok command

namespace Request

def ofTokens : List String → Except Rejection Request
  | [] => .error .empty
  | first :: rest =>
    if upper first = marker then
      match rest with
      | [] => .error .missingCommand
      | name :: args => (Command.ofTokens name args).map fun c => ⟨.peer, c⟩
    else (Command.ofTokens first rest).map fun c => ⟨.client, c⟩

def parse (line : String) : Except Rejection Request :=
  ofTokens (tokens line)

/-- A client's mutation is to be relayed. -/
def isForwarded (r : Request) : Bool :=
  r.origin = .client && r.command.isMutation

end Request
end RelayStore
