import RelayStore.Text.Unprintable

/-! # Quoted texts

A log line shows a text between double quotes, with a backslash before a quote or a
backslash, short escapes for a few controls and the code in braces for every other
character that cannot be shown.
-/
namespace RelayStore.Text

def hexDigits (n : Nat) : List Char :=
  Nat.toDigits 16 n

def quoteChar (c : Char) : List Char :=
  if c = '\x00' then ['\\', '0']
  else if c = '\t' then ['\\', 't']
  else if c = '\r' then ['\\', 'r']
  else if c = '\n' then ['\\', 'n']
  else if c = '"' ∨ c = '\\' then ['\\', c]
  else if c.toNat < 0x20 ∨ c.toNat = 0x7F ∨ isUnprintable c then
    ['\\', 'u', '\x7b'] ++ hexDigits c.toNat ++ ['\x7d']
  else [c]

def quote (s : String) : String :=
  .ofList (['"'] ++ s.toList.flatMap quoteChar ++ ['"'])

end RelayStore.Text
