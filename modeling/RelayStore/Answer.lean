import RelayStore.Store

/-! # Answers

A node answers a line by itself: it parses the line, applies the command to its store and
has the reply at once. What is left to do concerns others: a client's mutation is to be
relayed, and a neighbour's mutation is noted. A rejected line does nothing.
-/
namespace RelayStore

inductive Aftermath where
  | nothing
  /-- The line is to be relayed to the neighbour. -/
  | forward
  /-- A neighbour's mutation of this key was applied. -/
  | adopted (key : String)
deriving DecidableEq, Repr

structure Answer where
  store : Store
  reply : Reply
  aftermath : Aftermath

def Request.aftermath (r : Request) : Aftermath :=
  if r.isForwarded then .forward
  else if r.command.isMutation then .adopted r.command.key
  else .nothing

def Store.answer (s : Store) (line : String) : Answer :=
  match Request.parse line with
  | .error rejection => ⟨s, rejection.reply, .nothing⟩
  | .ok request => ⟨s.apply request.command, s.replyTo request.command, request.aftermath⟩

end RelayStore
