import RelayStore.Config

/-! # Permits

A node with a cap has one permit for each connection that it may serve at once. The loop that
accepts connections takes a permit before it accepts the next one, and the permit goes along
with the connection: it is free again when the session ends. A loop that fails to accept, or
that stops, lets go of its permit. A node without cap needs none.
-/
namespace RelayStore

structure Gate where
  /-- Permits that nobody has, if there is a cap. -/
  free : Option Nat
  /-- Whether the loop can accept: it has a permit, if it needs one. -/
  isReady : Bool := false
deriving DecidableEq, Repr

namespace Gate

def ofCap (cap : Option Cap) : Gate :=
  { free := cap.map (·.val) }

/-- The loop takes a permit if it has none and one is free. -/
def acquire (g : Gate) : Gate :=
  if g.isReady then g
  else
    match g.free with
    | none => { g with isReady := true }
    | some 0 => g
    | some (n + 1) => { free := some n, isReady := true }

def accept (g : Gate) : Gate :=
  { g with isReady := false }

def release (g : Gate) (sessions : Nat) : Gate :=
  { g with free := g.free.map (· + sessions) }

def drop (g : Gate) : Gate :=
  if g.isReady then g.accept.release 1 else g

end Gate
end RelayStore
