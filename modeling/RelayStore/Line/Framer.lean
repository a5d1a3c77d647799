import RelayStore.Fault
import RelayStore.Text.Token
import RelayStore.Text.Utf8

/-! # Lines

A framer cuts a stream of bytes into lines, one byte at a time, so how the stream is cut
into reads makes no difference. It holds the bytes of the line that it is in. A line ends
at a newline; carriage returns before it do not count. Held bytes are bounded: once the
longest line with its two-byte ending is full and no newline has come, the framer lets go
of the line and discards bytes up to the newline. Such a line is reported as too long,
without its text. Blank lines are not reported at all.
-/
namespace RelayStore

def newline : UInt8 := 0x0A

def carriageReturn : UInt8 := 0x0D

/-- The longest line in bytes, its ending not counted. -/
def maxLine : Nat := 0x10000

/-- The most bytes of one line that are held: the longest line and two bytes for its ending. -/
def window : Nat := maxLine + 2

inductive Item where
  | line (text : String)
  | tooLong
deriving DecidableEq, Repr

inductive Ending where
  /-- It is closed. -/
  | closed
  /-- The next read fails, once. -/
  | failing (fault : Fault)
  /-- It is open, but nothing comes. -/
  | idle
deriving DecidableEq, Repr

inductive Finish where
  | closed
  | failed (fault : Fault)
  | waiting
deriving DecidableEq, Repr

def stripReturns (bs : Bytes) : Bytes :=
  (bs.reverse.dropWhile (· == carriageReturn)).reverse

def Item.ofBytes? (bs : Bytes) : Option Item :=
  let body := stripReturns bs
  if maxLine < body.length then some .tooLong
  else
    let text := Utf8.decode body
    if Text.isBlank text then none else some (.line text)

inductive Framer where
  /-- The bytes of the present line that have come. -/
  | collecting (held : Array UInt8)
  /-- The present line is too long and is being skipped. -/
  | discarding

namespace Framer

def fresh : Framer := .collecting #[]

def push (f : Framer) (b : UInt8) : Framer × Option Item :=
  match f with
  | .collecting held =>
    if b = newline then (fresh, Item.ofBytes? held.toList)
    else if held.size + 1 = window then (.discarding, none)
    else (.collecting (held.push b), none)
  | .discarding => if b = newline then (fresh, some .tooLong) else (.discarding, none)

/-- What the end of the stream makes of the present line. A line without newline counts if the
stream is closed and is dropped if a read fails. An interrupted read is tried again while a
line is collected, but not while one is skipped. -/
def finish : Framer → Ending → Option Item × Finish
  | .collecting held, .closed => (Item.ofBytes? held.toList, .closed)
  | .collecting held, .failing .interrupted => (Item.ofBytes? held.toList, .closed)
  | .collecting _, .failing fault => (none, .failed fault)
  | .discarding, .closed => (some .tooLong, .closed)
  | .discarding, .failing fault => (none, .failed fault)
  | _, .idle => (none, .waiting)

end Framer

structure Reader where
  framer : Framer := .fresh
  items : Array Item := #[]

namespace Reader

def push (r : Reader) (b : UInt8) : Reader :=
  let (framer, item) := r.framer.push b
  { framer, items := match item with
    | none => r.items
    | some item => r.items.push item }

def feed (r : Reader) (bs : Bytes) : Reader :=
  bs.foldl push r

theorem feed_append (r : Reader) (as bs : Bytes) : r.feed (as ++ bs) = (r.feed as).feed bs := by
  simp [feed]

end Reader

structure Source where
  reads : List Bytes
  ending : Ending

def Source.bytes (src : Source) : Bytes :=
  src.reads.flatten

def Source.items (src : Source) : List Item × Finish :=
  let r : Reader := src.reads.foldl Reader.feed {}
  let (last, finish) := r.framer.finish src.ending
  (r.items.toList ++ last.toList, finish)

end RelayStore
