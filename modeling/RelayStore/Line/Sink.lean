import RelayStore.Line.Framer

/-! # Writing lines

A sink takes bytes, perhaps a bounded number of them a call and perhaps a bounded number in
all; after that every call fails. A line is written whole, with its newline, in as many calls
as it takes, and then flushed once. Bytes that were taken before a failure stay taken.
-/
namespace RelayStore

/-- Most bytes that a call takes, if bounded, where so many have been taken before it. -/
def Pace := Nat → Option Nat

instance : Coe (Option Nat) Pace :=
  ⟨fun bound _ => bound⟩

structure Sink where
  chunk : Pace := fun _ => none
  /-- Bytes that can still be taken, if bounded. -/
  room : Option Nat := none
  /-- What a call reports once nothing more can be taken. -/
  failure : Fault := .writeZero
  /-- What every flush reports, if it fails. -/
  flushFailure : Option Fault := none
  written : Array UInt8 := #[]
  flushes : Nat := 0

namespace Sink

def allowance (s : Sink) : Option Nat :=
  match s.chunk s.written.size, s.room with
  | none, room => room
  | some n, none => some n
  | some n, some m => some (min n m)

def split (s : Sink) (bs : Bytes) : Bytes × Bytes :=
  match s.allowance with
  | none => (bs, [])
  | some n => (bs.take n, bs.drop n)

def take (s : Sink) (bs : Bytes) : Sink :=
  { s with room := s.room.map (· - bs.length), written := s.written ++ bs.toArray }

def refusal (s : Sink) : Fault :=
  if s.room = some 0 then s.failure else .writeZero

theorem split_append (s : Sink) (bs : Bytes) : (s.split bs).1 ++ (s.split bs).2 = bs := by
  unfold split
  split <;> simp

theorem length_split_lt {s : Sink} {bs : Bytes} (h : (s.split bs).1 ≠ []) :
    (s.split bs).2.length < bs.length := by
  have hl := congrArg List.length (s.split_append bs)
  have := List.length_pos_iff.mpr h
  rw [List.length_append] at hl
  omega

def writeAll (s : Sink) (bs : Bytes) : Sink × Option Fault :=
  if bs.isEmpty then (s, none)
  else if _h : (s.split bs).1 = [] then (s, some s.refusal)
  else writeAll (s.take (s.split bs).1) (s.split bs).2
termination_by bs.length
decreasing_by exact length_split_lt _h

def flush (s : Sink) : Sink × Option Fault :=
  ({ s with flushes := s.flushes + 1 }, s.flushFailure)

/-- Writes a line and its newline, then flushes if all of it was taken. -/
def writeLine (s : Sink) (line : String) : Sink × Option Fault :=
  match s.writeAll (Utf8.encode line ++ [newline]) with
  | (s, some fault) => (s, some fault)
  | (s, none) => s.flush

/-- Tries each line in turn, whatever failed before; the state after each with its result. -/
def writeLines (s : Sink) : List String → List (Sink × Option Fault)
  | [] => []
  | line :: lines =>
    let r := s.writeLine line
    r :: writeLines r.1 lines

end Sink
end RelayStore
