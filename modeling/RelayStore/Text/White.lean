/-! # White space

The twenty-five characters of the Unicode property White_Space separate tokens,
may surround a line and may fill a blank one. No other character does: a zero-width
space or a byte order mark is ordinary text.
-/
namespace RelayStore.Text

def whiteRanges : List (Nat × Nat) :=
  [(0x9, 0xD), (0x20, 0x20), (0x85, 0x85), (0xA0, 0xA0), (0x1680, 0x1680), (0x2000, 0x200A),
   (0x2028, 0x2029), (0x202F, 0x202F), (0x205F, 0x205F), (0x3000, 0x3000)]

def isWhite (c : Char) : Bool :=
  whiteRanges.any fun r => r.1 ≤ c.toNat && c.toNat ≤ r.2

end RelayStore.Text
