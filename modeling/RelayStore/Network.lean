import RelayStore.Reply
import RelayStore.Text.Utf8

/-! # Network and failures

Programs reach each other over the network of their host. A connection is opened if the
network is there and somebody listens. What goes wrong for a user is reported with its
context first and, if there is one, the cause behind it.
-/
namespace RelayStore

inductive Obstacle where
  | refused
  | unreachable
  | inUse
  /-- Anything else, in the host's words. -/
  | other (message : String)
deriving DecidableEq, Repr

def Obstacle.message : Obstacle → String
  | .refused => "Connection refused (os error 111)"
  | .unreachable => "Network is unreachable (os error 101)"
  | .inUse => "Address already in use (os error 98)"
  | .other message => message

inductive Network where
  | up
  | down
deriving DecidableEq, Repr

def Network.obstacle? (network : Network) (isListening : Bool) : Option Obstacle :=
  match network with
  | .down => some .unreachable
  | .up => if isListening then none else some .refused

inductive Failure where
  | connect (address : String) (cause : Obstacle)
  | bind (address : String) (cause : Obstacle)
  | unreadableReply (cause : Rejection)
  | serverClosed
  /-- A typed line is not UTF-8. -/
  | malformedInput (cause : Utf8.Malformed)
deriving DecidableEq, Repr

namespace Failure

def context : Failure → String
  | .connect address _ => "failed to connect to " ++ address
  | .bind address _ => "failed to bind " ++ address
  | .unreadableReply _ => "failed to read response"
  | .serverClosed => "server closed the connection"
  | .malformedInput cause => cause.message

def cause? : Failure → Option String
  | .connect _ cause | .bind _ cause => some cause.message
  | .unreadableReply cause => some cause.message
  | .serverClosed | .malformedInput _ => none

def report (f : Failure) : String :=
  "Error: " ++ f.context ++ "\n" ++
    match f.cause? with
    | some cause => "\nCaused by:\n    " ++ cause ++ "\n"
    | none => ""

end Failure
end RelayStore
