/-! # Faults

What a read or a write on a byte stream can fail with. A node tells a few kinds apart:
an interrupted read may be tried again, a writer that takes nothing counts as its own
kind, and four kinds only say that the other side is gone. All others are named.
-/
namespace RelayStore

inductive Fault where
  | interrupted
  | writeZero
  | connectionReset
  | connectionAborted
  | brokenPipe
  | unexpectedEof
  | other (name : String)
deriving DecidableEq, Repr

namespace Fault

def name : Fault → String
  | .interrupted => "Interrupted"
  | .writeZero => "WriteZero"
  | .connectionReset => "ConnectionReset"
  | .connectionAborted => "ConnectionAborted"
  | .brokenPipe => "BrokenPipe"
  | .unexpectedEof => "UnexpectedEof"
  | .other name => name

def known : List Fault :=
  [interrupted, writeZero, connectionReset, connectionAborted, brokenPipe, unexpectedEof]

def ofName (name : String) : Fault :=
  (known.find? fun f => f.name = name).getD (.other name)

/-- The other side has gone away, which ends a connection in good order. -/
def isDisconnect : Fault → Bool
  | .connectionReset | .connectionAborted | .brokenPipe | .unexpectedEof => true
  | .interrupted | .writeZero | .other _ => false

end Fault
end RelayStore
