import RelayStore.Text.Numeral

/-! # Scanning addresses

A scanner takes something from the front of a text and leaves the rest, or fails. Numbers
in addresses are scanned greedily: all digits that follow belong to the number, and then
it must have neither too many digits nor too large a value.
-/
namespace RelayStore.Address

abbrev Scan (α : Type) := List Char → Option (α × List Char)

def skip (c : Char) : List Char → Option (List Char)
  | [] => none
  | d :: cs => if c = d then some cs else none

def digits (base : Nat) : List Char → List Nat × List Char
  | [] => ([], [])
  | c :: cs =>
    match Numeral.digit? base c with
    | none => ([], c :: cs)
    | some d =>
      let (ds, rest) := digits base cs
      (d :: ds, rest)

def valueOf (base : Nat) (ds : List Nat) : Nat :=
  ds.foldl (fun n d => n * base + d) 0

structure NumberForm where
  base : Nat
  maxDigits : Option Nat
  limit : Nat
  leadingZeros : Bool

def NumberForm.allows (form : NumberForm) (ds : List Nat) : Bool :=
  !ds.isEmpty && form.maxDigits.all (ds.length ≤ ·) && decide (valueOf form.base ds ≤ form.limit) &&
    (form.leadingZeros || ds.head? != some 0 || ds.length == 1)

def number (form : NumberForm) : Scan Nat := fun cs =>
  let (ds, rest) := digits form.base cs
  if form.allows ds then some (valueOf form.base ds, rest) else none

end RelayStore.Address
