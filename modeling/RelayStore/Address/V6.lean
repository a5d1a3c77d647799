import RelayStore.Address.V4

/-! # IPv6 addresses

Eight groups of sixteen bits, written in hexadecimal with colons between. Two colons
stand once for one or more groups of zeros, and the last two groups may be written as an
IPv4 address. The canonical text leaves out leading zeros and writes the first of the
longest runs of at least two zero groups as two colons; an IPv4 address mapped into IPv6
is written as such.
-/
namespace RelayStore.Address

structure V6 where
  groups : Vector UInt16 8
deriving DecidableEq, Repr

namespace V6

def groupForm : NumberForm := ⟨16, some 4, 0xFFFF, true⟩

def group : Scan UInt16 := fun cs =>
  (number groupForm cs).map fun (n, rest) => (.ofNat n, rest)

/-- Scans up to `room` groups with colons between. An IPv4 address may take the place of two
groups and ends the scan, which the flag then says. -/
def scanGroups : (room : Nat) → (isFirst : Bool) → List Char → List UInt16 × Bool × List Char
  | 0, _, cs => ([], false, cs)
  | room + 1, isFirst, cs =>
    let start := if isFirst then some cs else skip ':' cs
    match (if room = 0 then none else start.bind V4.scan) with
    | some (ip, rest) => (ip.groups, true, rest)
    | none =>
      match start.bind group with
      | none => ([], false, cs)
      | some (g, rest) =>
        let (gs, hasV4, rest) := scanGroups room false rest
        (g :: gs, hasV4, rest)

def ofParts (front back : List UInt16) : V6 :=
  let gs := front ++ List.replicate (8 - front.length - back.length) 0 ++ back
  ⟨Vector.ofFn fun i => gs.getD i 0⟩

/-- The groups up to the two colons, and those behind them; the colons stand for at least one
group, and an IPv4 address cannot come before them. -/
def scan : Scan V6 := fun cs =>
  let (front, hasV4, rest) := scanGroups 8 true cs
  if front.length = 8 then some (ofParts front [], rest)
  else if hasV4 then none
  else do
    let rest ← skip ':' (← skip ':' rest)
    let (back, _, rest) := scanGroups (7 - front.length) true rest
    return (ofParts front back, rest)

def hex (n : UInt16) : String :=
  .ofList (Nat.toDigits 16 n.toNat)

def renderGroups (gs : List UInt16) : String :=
  ":".intercalate (gs.map hex)

def zerosAt (gs : List UInt16) (i : Nat) : Nat :=
  ((gs.drop i).takeWhile (· = 0)).length

def longestZeros (gs : List UInt16) : Nat :=
  (List.range gs.length).foldl (fun best i => if zerosAt gs best < zerosAt gs i then i else best) 0

def render (ip : V6) : String :=
  match ip.groups.toList with
  | [0, 0, 0, 0, 0, 0xFFFF, high, low] => "::ffff:" ++ (V4.ofGroups high low).render
  | gs =>
    let start := longestZeros gs
    let count := zerosAt gs start
    if count ≤ 1 then renderGroups gs
    else renderGroups (gs.take start) ++ "::" ++ renderGroups (gs.drop (start + count))

end V6
end RelayStore.Address
