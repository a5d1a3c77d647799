import RelayStore.Network
import RelayStore.Session

/-! # Inboxes

A client sends a line and then waits for one reply line. Replies are read with the same
framing as requests. Those that have come and are not yet asked for stay in the inbox, so
a text that makes several replies leaves the later ones to later requests.
-/
namespace RelayStore

structure Inbox where
  framer : Framer := .fresh
  /-- Replies that have come, the next one first. -/
  ready : List Item := []
  isClosed : Bool := false

inductive Awaited where
  | reply (text : String)
  | failure (f : Failure)
  /-- No reply ever comes. -/
  | never
deriving DecidableEq, Repr

namespace Inbox

def receive (inbox : Inbox) (bytes : Bytes) : Inbox :=
  let r := Reader.feed { framer := inbox.framer } bytes
  { inbox with framer := r.framer, ready := inbox.ready ++ r.items.toList }

/-- The other side sends no more; a reply without newline counts. -/
def close (inbox : Inbox) : Inbox :=
  { framer := .fresh
    ready := inbox.ready ++ (inbox.framer.finish .closed).1.toList
    isClosed := true }

/-- Waits for the next reply. One that is too long is used up. -/
def await (inbox : Inbox) : Awaited × Inbox :=
  match inbox.ready with
  | .line text :: rest => (.reply text, { inbox with ready := rest })
  | .tooLong :: rest =>
    (.failure (.unreadableReply (.lineTooLong maxLine)), { inbox with ready := rest })
  | [] => (if inbox.isClosed then .failure .serverClosed else .never, inbox)

end Inbox

abbrev Inboxes := List (Nat × Inbox)

namespace Inboxes

def find? (boxes : Inboxes) (n : Nat) : Option Inbox :=
  boxes.lookup n

def erase (boxes : Inboxes) (n : Nat) : Inboxes :=
  boxes.filter fun b => b.1 != n

def put (boxes : Inboxes) (n : Nat) (inbox : Inbox) : Inboxes :=
  (n, inbox) :: boxes.erase n

end Inboxes

def sentLine (text : String) : Bytes :=
  Utf8.encode text ++ [newline]

end RelayStore
