/-! # UTF-8

Texts travel as bytes. Encoding is the standard one. Decoding is total: a machine takes
one byte at a time, and each maximal part of an ill-formed sequence, that is the longest
start of some well-formed sequence or else one single byte, becomes one replacement
character. A second reading of the same machine reports the first ill-formed part
instead of replacing it.
-/
namespace RelayStore

abbrev Bytes := List UInt8

namespace Utf8

def encodeChar (c : Char) : Bytes :=
  let n := c.toNat
  if n < 0x80 then [.ofNat n]
  else if n < 0x800 then [.ofNat (0xC0 + n / 0x40), .ofNat (0x80 + n % 0x40)]
  else if n < 0x10000 then
    [.ofNat (0xE0 + n / 0x1000), .ofNat (0x80 + n / 0x40 % 0x40), .ofNat (0x80 + n % 0x40)]
  else
    [.ofNat (0xF0 + n / 0x40000), .ofNat (0x80 + n / 0x1000 % 0x40),
      .ofNat (0x80 + n / 0x40 % 0x40), .ofNat (0x80 + n % 0x40)]

def encode (s : String) : Bytes :=
  s.toList.flatMap encodeChar

def size (s : String) : Nat :=
  (encode s).length

def replacement : Char := '\uFFFD'

/-- The start of a sequence: `seen` bytes are taken, `more` are missing, the next one has to
lie between `low` and `high`, and `code` holds the bits so far. -/
structure Partial where
  seen : Nat
  more : Nat
  low : Nat
  high : Nat
  code : Nat
deriving DecidableEq, Repr

/-- The sequence that a first byte above the ASCII range opens. The bounds on the second byte
exclude overlong forms, surrogates and codes above the last character. -/
def lead (b : Nat) : Option Partial :=
  if b < 0xC2 then none
  else if b < 0xE0 then some ⟨1, 1, 0x80, 0xBF, b - 0xC0⟩
  else if b = 0xE0 then some ⟨1, 2, 0xA0, 0xBF, 0⟩
  else if b = 0xED then some ⟨1, 2, 0x80, 0x9F, 0xD⟩
  else if b < 0xF0 then some ⟨1, 2, 0x80, 0xBF, b - 0xE0⟩
  else if b = 0xF0 then some ⟨1, 3, 0x90, 0xBF, 0⟩
  else if b < 0xF4 then some ⟨1, 3, 0x80, 0xBF, b - 0xF0⟩
  else if b = 0xF4 then some ⟨1, 3, 0x80, 0x8F, 4⟩
  else none

inductive Step where
  /-- A character is complete. -/
  | done (c : Char)
  /-- The sequence goes on. -/
  | more (p : Partial)
  /-- The byte is ill-formed by itself. -/
  | stray
  /-- The byte cannot go on with the sequence, which ends here and is ill-formed. -/
  | broken
deriving DecidableEq, Repr

def first (b : UInt8) : Step :=
  if b.toNat < 0x80 then .done (.ofNat b.toNat)
  else match lead b.toNat with
    | some p => .more p
    | none => .stray

def Partial.next (p : Partial) (b : UInt8) : Step :=
  if p.low ≤ b.toNat ∧ b.toNat ≤ p.high then
    let code := p.code * 0x40 + (b.toNat - 0x80)
    if p.more = 1 then .done (.ofNat code) else .more ⟨p.seen + 1, p.more - 1, 0x80, 0xBF, code⟩
  else .broken

structure Decoder where
  out : List Char
  pending : Option Partial

def Decoder.start (out : List Char) (b : UInt8) : Decoder :=
  match first b with
  | .done c => ⟨c :: out, none⟩
  | .more p => ⟨out, some p⟩
  | .stray | .broken => ⟨replacement :: out, none⟩

def Decoder.push (d : Decoder) (b : UInt8) : Decoder :=
  match d.pending with
  | none => .start d.out b
  | some p =>
    match p.next b with
    | .done c => ⟨c :: d.out, none⟩
    | .more p => ⟨d.out, some p⟩
    | .stray | .broken => .start (replacement :: d.out) b

def Decoder.finish (d : Decoder) : String :=
  .ofList (if d.pending.isSome then replacement :: d.out else d.out).reverse

def decode (bs : Bytes) : String :=
  (bs.foldl Decoder.push ⟨[], none⟩).finish

inductive Malformed where
  /-- The `count` bytes from `index` on begin no character. -/
  | invalid (count index : Nat)
  /-- The bytes from `index` on begin a character but end too early. -/
  | incomplete (index : Nat)
deriving DecidableEq, Repr

def Malformed.message : Malformed → String
  | .invalid count index => s!"invalid utf-8 sequence of {count} bytes from index {index}"
  | .incomplete index => s!"incomplete utf-8 byte sequence from index {index}"

/-- The first ill-formed part of the bytes that follow the first `i`, with `pending` open. -/
def findMalformed (i : Nat) (pending : Option Partial) : Bytes → Option Malformed
  | [] => pending.map fun p => .incomplete (i - p.seen)
  | b :: bs =>
    match (match pending with | none => first b | some p => p.next b) with
    | .done _ => findMalformed (i + 1) none bs
    | .more p => findMalformed (i + 1) (some p) bs
    | .stray => some (.invalid 1 i)
    | .broken => pending.map fun p => .invalid p.seen (i - p.seen)

def malformed? (bs : Bytes) : Option Malformed :=
  findMalformed 0 none bs

end Utf8
end RelayStore
