import RelayStore.Store

/-! # Calls on a store

Each call returns something and leaves a store. Reads leave it as it is. A call that
deletes returns the value that the key held, so the caller can tell a removal from a
deletion of an absent key.
-/
namespace RelayStore.Store

inductive Call where
  | get (key : String)
  | set (key value : String)
  | delete (key : String)
  | size
  | isEmpty
  | snapshot
deriving DecidableEq, Repr

inductive Returned where
  | nothing
  | value (v : Option String)
  | flag (b : Bool)
  | count (n : Nat)
  | entries (es : List (String × String))
deriving DecidableEq, Repr

def call (s : Store) : Call → Returned × Store
  | .get key => (.value (s.get? key), s)
  | .set key value => (.nothing, s.set key value)
  | .delete key => (.value (s.get? key), s.erase key)
  | .size => (.count s.size, s)
  | .isEmpty => (.flag s.isEmpty, s)
  | .snapshot => (.entries s.snapshot, s)

def calls (s : Store) : List Call → List (Returned × Store)
  | [] => []
  | c :: cs => s.call c :: calls (s.call c).2 cs

def afterCalls (s : Store) (cs : List Call) : Store :=
  cs.foldl (fun s c => (s.call c).2) s

end RelayStore.Store
