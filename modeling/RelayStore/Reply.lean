import RelayStore.Request

/-! # Replies

A node answers each request with one line: an acknowledgement, the stored value as it is,
a fixed word for an absent key, or an error. Nothing in the line tells a stored value
from the node's own words.
-/
namespace RelayStore

inductive Reply where
  | done
  | value (text : String)
  | absent
  | error (message : String)
deriving DecidableEq, Repr

namespace Reply

def absentWord : String := "None"

def render : Reply → String
  | .done => "OK"
  | .value text => text
  | .absent => absentWord
  | .error message => "ERROR " ++ message

def isError : Reply → Bool
  | .error _ => true
  | _ => false

end Reply

def Rejection.reply (r : Rejection) : Reply :=
  .error r.message

end RelayStore
