import RelayStore.Address.V6

/-! # Socket addresses

An address and a port. An IPv6 address stands in brackets and may carry the number of a
scope, which is left out when it is zero.
-/
namespace RelayStore

inductive SocketAddress where
  | v4 (ip : Address.V4) (port : UInt16)
  | v6 (ip : Address.V6) (scope : UInt32) (port : UInt16)
deriving DecidableEq, Repr

namespace SocketAddress
open Address

def portForm : NumberForm := ⟨10, none, 0xFFFF, true⟩

def scopeForm : NumberForm := ⟨10, none, 0xFFFFFFFF, true⟩

def scanPort : Scan UInt16 := fun cs => do
  let (n, rest) ← number portForm (← skip ':' cs)
  return (.ofNat n, rest)

/-- A percent sign and the number of a scope; without them the scope is zero. -/
def scanScope (cs : List Char) : UInt32 × List Char :=
  match (skip '%' cs).bind (number scopeForm) with
  | some (n, rest) => (.ofNat n, rest)
  | none => (0, cs)

def scanV4 : Scan SocketAddress := fun cs => do
  let (ip, cs) ← V4.scan cs
  let (port, cs) ← scanPort cs
  return (.v4 ip port, cs)

def scanV6 : Scan SocketAddress := fun cs => do
  let (ip, cs) ← V6.scan (← skip '[' cs)
  let (scope, cs) := scanScope cs
  let (port, cs) ← scanPort (← skip ']' cs)
  return (.v6 ip scope port, cs)

def parse? (s : String) : Option SocketAddress :=
  match (scanV4 s.toList).orElse fun _ => scanV6 s.toList with
  | some (address, []) => some address
  | _ => none

def syntaxMessage : String := "invalid socket address syntax"

def render : SocketAddress → String
  | .v4 ip port => ip.render ++ ":" ++ toString port.toNat
  | .v6 ip scope port =>
    let zone := if scope = 0 then "" else "%" ++ toString scope.toNat
    "[" ++ ip.render ++ zone ++ "]:" ++ toString port.toNat

end SocketAddress
end RelayStore
