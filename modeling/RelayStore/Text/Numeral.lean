/-! # Numerals

Whole numbers in decimal: an optional plus sign and then ASCII digits, any number of
leading zeros among them, up to a limit. The digits are read from the left, and at each
character a wrong digit is noticed before the value grows too large. Digits of other
bases are read one at a time, for addresses.
-/
namespace RelayStore.Numeral

inductive Flaw where
  | empty
  | invalidDigit
  | tooLarge
  | zero
deriving DecidableEq, Repr

def Flaw.message : Flaw → String
  | .empty => "cannot parse integer from empty string"
  | .invalidDigit => "invalid digit found in string"
  | .tooLarge => "number too large to fit in target type"
  | .zero => "number would be zero for non-zero type"

def digit? (base : Nat) (c : Char) : Option Nat :=
  let value :=
    if c.isDigit then some (c.toNat - '0'.toNat)
    else if 'a' ≤ c ∧ c ≤ 'f' then some (c.toNat - 'a'.toNat + 10)
    else if 'A' ≤ c ∧ c ≤ 'F' then some (c.toNat - 'A'.toNat + 10)
    else none
  value.filter (· < base)

/-- Reads decimal digits to the end, behind digits of value `acc`. -/
def readDigits (limit : Nat) (acc : Nat) : List Char → Except Flaw Nat
  | [] => .ok acc
  | c :: cs =>
    match digit? 10 c with
    | none => .error .invalidDigit
    | some d =>
      let value := acc * 10 + d
      if limit < value then .error .tooLarge else readDigits limit value cs

def parse (limit : Nat) (s : String) : Except Flaw Nat :=
  match s.toList with
  | [] => .error .empty
  | ['+'] => .error .invalidDigit
  | '+' :: cs => readDigits limit 0 cs
  | cs => readDigits limit 0 cs

def parsePositive (limit : Nat) (s : String) : Except Flaw { n : Nat // 0 < n } := do
  let n ← parse limit s
  if h : 0 < n then .ok ⟨n, h⟩ else .error .zero

def max64 : Nat := 0xFFFFFFFFFFFFFFFF

end RelayStore.Numeral
