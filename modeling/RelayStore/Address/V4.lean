import RelayStore.Address.Scan

/-! # IPv4 addresses

Four bytes, written in decimal with points between and without leading zeros.
-/
namespace RelayStore.Address

structure V4 where
  a : UInt8
  b : UInt8
  c : UInt8
  d : UInt8
deriving DecidableEq, Repr

namespace V4

/-- A byte has up to three decimal digits and no leading zeros. -/
def octetForm : NumberForm := ⟨10, some 3, 255, false⟩

def octet : Scan UInt8 := fun cs =>
  (number octetForm cs).map fun (n, rest) => (.ofNat n, rest)

def scan : Scan V4 := fun cs => do
  let (a, cs) ← octet cs
  let (b, cs) ← octet (← skip '.' cs)
  let (c, cs) ← octet (← skip '.' cs)
  let (d, cs) ← octet (← skip '.' cs)
  return (⟨a, b, c, d⟩, cs)

def render (ip : V4) : String :=
  ".".intercalate ([ip.a, ip.b, ip.c, ip.d].map fun n => toString n.toNat)

def groups (ip : V4) : List UInt16 :=
  [.ofNat (ip.a.toNat * 256 + ip.b.toNat), .ofNat (ip.c.toNat * 256 + ip.d.toNat)]

def ofGroups (high low : UInt16) : V4 :=
  ⟨.ofNat (high.toNat / 256), .ofNat (high.toNat % 256),
    .ofNat (low.toNat / 256), .ofNat (low.toNat % 256)⟩

end V4
end RelayStore.Address
