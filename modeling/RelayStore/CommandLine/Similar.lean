/-! # Similar words

Which known words a mistyped word may stand for. Two words are compared by their matching
characters: equal ones at places that differ by less than half the longer word. The
likeness is the mean of the shares of matching characters in both words and of those
matches that keep their order, and a word is similar if its likeness is above seven tenths.
-/
namespace RelayStore.CommandLine

def matchRange (m n : Nat) : Nat :=
  max m n / 2 - 1

/-- For each character of `a`, from place `i` on, the first place of `b` in range that holds
it and is not yet taken. -/
def matchPlaces (range : Nat) (b : List Char) : Nat → List Nat → List Char → List (Option Nat)
  | _, _, [] => []
  | i, taken, c :: cs =>
    let found := (List.range (min b.length (i + range + 1))).find? fun j =>
      i - range ≤ j && b[j]? == some c && !taken.contains j
    found :: matchPlaces range b (i + 1) (found.toList ++ taken) cs

def likeness (a b : String) : Nat × Nat :=
  let xs := a.toList
  let ys := b.toList
  let m := xs.length
  let n := ys.length
  if m = 0 ∧ n = 0 then (1, 1)
  else
    let places := matchPlaces (matchRange m n) ys 0 [] xs
    let hits := places.filterMap id
    let k := hits.length
    let fromA := (xs.zip places).filterMap fun p => if p.2.isSome then some p.1 else none
    let fromB := (hits.mergeSort (· ≤ ·)).filterMap fun j => ys[j]?
    let swapped := ((fromA.zip fromB).filter fun p => p.1 != p.2).length / 2
    if k = 0 then (0, 1)
    else (k * k * n + k * k * m + (k - swapped) * m * n, 3 * k * m * n)

def isSimilar (a b : String) : Bool :=
  let (num, den) := likeness a b
  7 * den < 10 * num

def similar (word : String) (known : List String) : List String :=
  (known.filter (isSimilar word)).mergeSort fun a b =>
    let (p, q) := likeness word a
    let (r, s) := likeness word b
    p * s ≤ r * q

end RelayStore.CommandLine
