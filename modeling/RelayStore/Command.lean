import RelayStore.Text.Token

/-! # Commands

The three operations on a single key. A command is written as its name and its arguments
with one space between; any two of its texts may be joined this way, but only tokens can
be told apart again. Setting and deleting change a store, getting does not.
-/
namespace RelayStore
open Text

inductive Command where
  | get (key : String)
  | set (key value : String)
  | delete (key : String)
deriving DecidableEq, Repr

namespace Command

def key : Command → String
  | .get key | .set key _ | .delete key => key

def isMutation : Command → Bool
  | .get _ => false
  | .set _ _ | .delete _ => true

def render : Command → String
  | .get key => "GET " ++ key
  | .set key value => "SET " ++ key ++ " " ++ value
  | .delete key => "DELETE " ++ key

def arguments : Command → List String
  | .get key | .delete key => [key]
  | .set key value => [key, value]

/-- A command whose arguments can be told apart when it is written. -/
def IsClean (c : Command) : Prop :=
  ∀ t ∈ c.arguments, IsToken t

instance (c : Command) : Decidable c.IsClean :=
  inferInstanceAs (Decidable (∀ t ∈ c.arguments, IsToken t))

end Command

inductive Verb where
  | get
  | set
  | delete
deriving DecidableEq, Repr

namespace Verb

def names : Verb → List String
  | .get => ["GET"]
  | .set => ["SET"]
  | .delete => ["DELETE", "DEL"]

/-- The verb that a token names in any ASCII case. -/
def ofName? (name : String) : Option Verb :=
  [get, set, delete].find? fun v => v.names.contains (upper name)

def usage : Verb → String
  | .get => "GET requires exactly one argument: GET <key>"
  | .set => "SET requires exactly two arguments: SET <key> <value>"
  | .delete => "DELETE requires exactly one argument: DELETE <key>"

def command? : Verb → List String → Option Command
  | .get, [key] => some (.get key)
  | .set, [key, value] => some (.set key value)
  | .delete, [key] => some (.delete key)
  | _, _ => none

end Verb
end RelayStore
