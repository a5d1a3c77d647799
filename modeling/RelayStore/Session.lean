import RelayStore.Answer
import RelayStore.Line.Sink

/-! # Sessions

A session reads one stream line by line and answers each line that is reported, with one
line each and in order. The command of a line is applied before its reply is written, so a
reply that cannot be written ends the session after its command has taken effect. A line
that is too long is answered and otherwise ignored. The loop is the same whatever it is
that answers; answering alone from a store is one case.
-/
namespace RelayStore

def tooLongReply : Reply :=
  (Rejection.lineTooLong maxLine).reply

def respond {σ : Type} (answer : σ → String → σ × Reply) (state : σ) : Item → σ × Reply
  | .line text => answer state text
  | .tooLong => (state, tooLongReply)

/-- Answers items into a sink up to the first reply that cannot be written. -/
def converse {σ : Type} (answer : σ → String → σ × Reply) (state : σ) (sink : Sink) :
    List Item → σ × Sink × Option Fault
  | [] => (state, sink, none)
  | item :: items =>
    let (state, reply) := respond answer state item
    match sink.writeLine reply.render with
    | (sink, some fault) => (state, sink, some fault)
    | (sink, none) => converse answer state sink items

structure Outcome (σ : Type) where
  state : σ
  sink : Sink
  finish : Finish

def serve {σ : Type} (answer : σ → String → σ × Reply) (state : σ) (src : Source) (sink : Sink) :
    Outcome σ :=
  let (items, finish) := src.items
  match converse answer state sink items with
  | (state, sink, some fault) => ⟨state, sink, .failed fault⟩
  | (state, sink, none) => ⟨state, sink, finish⟩

def Store.reply (s : Store) (line : String) : Store × Reply :=
  let a := s.answer line
  (a.store, a.reply)

def Store.serve (s : Store) (src : Source) (sink : Sink) : Outcome Store :=
  RelayStore.serve Store.reply s src sink

/-- The store after the lines of some bytes, and the bytes of the replies. The bytes are to end
with a newline: what follows the last one is not served. -/
def Store.exchange (s : Store) (bytes : Bytes) : Store × Bytes :=
  let o := s.serve ⟨[bytes], .idle⟩ {}
  (o.state, o.sink.written.toList)

/-- A session on a connection: that the other side is gone is a good end. -/
def Finish.ofConnection : Finish → Finish
  | .failed fault => if fault.isDisconnect then .closed else .failed fault
  | finish => finish

end RelayStore
