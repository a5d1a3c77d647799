import RelayStore.Cluster
import RelayStore.Console
import RelayStore.Gate
import RelayStore.Service
import Std.Async
import Std.Sync.Channel

/-! # The program

The outer layer: sockets, standard input and output, and the clock. A node reads bytes
from each connection, hands them to a framer of its own, answers the lines that come out
from the one store that all connections share, and relays what is to be relayed before it
replies. The console sends typed lines and prints replies. What a line means, what is
replied and what is printed is decided elsewhere.
-/
namespace RelayStore.Program
open Std.Async

def packed (bytes : Bytes) : ByteArray :=
  ⟨bytes.toArray⟩

/-! ## Addresses -/

def netAddress : SocketAddress → Std.Net.SocketAddress
  | .v4 ip port => .v4 ⟨.ofParts ip.a ip.b ip.c ip.d, port⟩
  | .v6 ip _ port => .v6 ⟨⟨ip.groups⟩, port⟩

def ofNetAddress : Std.Net.SocketAddress → SocketAddress
  | .v4 a => .v4 ⟨a.addr.octets[0], a.addr.octets[1], a.addr.octets[2], a.addr.octets[3]⟩ a.port
  | .v6 a => .v6 ⟨a.addr.segments⟩ 0 a.port

def hostAndPort (s : String) : Option (String × String) :=
  match (s.splitOn ":").reverse with
  | port :: host :: rest => some (":".intercalate (host :: rest).reverse, port)
  | _ => none

/-- The address that a text names, looked up by name if it is not written in numbers. -/
def resolve (s : String) : Async Std.Net.SocketAddress := do
  match SocketAddress.parse? s, hostAndPort s with
  | some address, _ => return netAddress address
  | none, none => throw (.userError "invalid socket address")
  | none, some (host, port) =>
    match Numeral.parse 0xFFFF port with
    | .error _ => throw (.userError "invalid port value")
    | .ok n =>
      let found : Array Std.Net.IPAddr ← DNS.getAddrInfo host port
      let address? : Option Std.Net.IPAddr := found[0]?
      match address? with
      | some (.v4 ip) => return .v4 ⟨ip, .ofNat n⟩
      | some (.v6 ip) => return .v6 ⟨ip, .ofNat n⟩
      | none => throw (.userError "failed to lookup address information")

def obstacleOf (e : IO.Error) : Obstacle :=
  let message := e.toString
  let mentions (words : String) : Bool := (message.splitOn words).length > 1
  if mentions "connection refused" then .refused
  else if mentions "network is unreachable" then .unreachable
  else if mentions "address already in use" then .inUse
  else .other message

/-! ## Serving -/

def log (entry : LogEntry) : IO Unit := do
  IO.println entry.render
  (← IO.getStdout).flush

def relay (config : NodeConfig) (line : String) : Async Unit := do
  match config.peer with
  | none => return ()
  | some peer =>
    let deliver : Async Unit := do
      let socket ← TCP.Socket.Client.mk
      socket.connect (← resolve peer)
      socket.send (packed (sentLine (markedLine line)))
      socket.shutdown
    let expire : Async Unit := do
      Std.Async.sleep (.ofNat config.peerTimeout)
      throw (.userError "timeout")
    try
      Async.race deliver expire
    catch _ =>
      return ()

def answerItem (config : NodeConfig) (store : IO.Ref Store) (socket : TCP.Socket.Client)
    (item : Item) : Async Unit := do
  let reply ← match item with
    | .tooLong => pure tooLongReply
    | .line text => do
      let a ← store.modifyGet fun s =>
        let a := s.answer text
        (a, a.store)
      match a.aftermath with
      | .forward => relay config text
      | .adopted key => log (.adopted key)
      | .nothing => pure ()
      pure a.reply
  socket.send (packed (sentLine reply.render))

partial def serveSocket (config : NodeConfig) (store : IO.Ref Store) (socket : TCP.Socket.Client)
    (framer : Framer) : Async Unit := do
  match ← socket.recv? 8192 with
  | some bytes =>
    let r := Reader.feed { framer } bytes.toList
    for item in r.items do
      answerItem config store socket item
    serveSocket config store socket r.framer
  | none =>
    for item in (framer.finish .closed).1.toList do
      answerItem config store socket item
    socket.shutdown

inductive Wake where
  | stop
  | freed
  | failed
  | arrived (socket : TCP.Socket.Client)

partial def acceptLoop (config : NodeConfig) (server : TCP.Socket.Server) (stop : Signal.Waiter)
    (freed : Std.Channel Unit) (store : IO.Ref Store) (gate : Gate) : Async Unit := do
  let gate := gate.acquire
  let always : Array (Selectable Wake) :=
    #[.case stop.selector fun _ => pure .stop, .case freed.recvSelector fun _ => pure .freed]
  let events := if gate.isReady
    then always.push (.case server.acceptSelector fun socket => pure (.arrived socket))
    else always
  let wake ←
    try
      Selectable.one events
    catch _ =>
      pure .failed
  match wake with
  | .stop => return ()
  | .freed => acceptLoop config server stop freed store (gate.release 1)
  | .failed => acceptLoop config server stop freed store gate.drop
  | .arrived socket =>
    background do
      try
        serveSocket config store socket .fresh
      catch _ =>
        pure ()
      discard <| freed.send ()
    acceptLoop config server stop freed store gate.accept

def fail (f : Failure) : IO UInt32 := do
  IO.eprint f.report
  return 1

def serveNode (config : NodeConfig) : IO UInt32 := do
  let server ← TCP.Socket.Server.mk
  try
    server.bind (netAddress config.listen)
    server.listen 1024
  catch e =>
    return ← fail (.bind config.listen.render (obstacleOf e))
  let address := (ofNetAddress (← server.getSockName)).render
  for entry in Service.banner config address do
    log entry
  let stop ← Signal.Waiter.mk .sigint false
  let store ← IO.mkRef Store.empty
  Async.block (acceptLoop config server stop (← Std.Channel.new) store
    (.ofCap config.maxConnections))
  log .stopping
  return 0

/-! ## The console -/

/-- The next typed line with its newline; empty at the end of the input. -/
partial def readTyped (input : IO.FS.Stream) (line : ByteArray) : IO ByteArray := do
  let bytes ← input.read 1
  if bytes.isEmpty then return line
  let line := line ++ bytes
  if bytes.data.contains newline then return line
  readTyped input line

partial def awaitReply (socket : TCP.Socket.Client) (inbox : Inbox) : Async (Awaited × Inbox) := do
  match inbox.await with
  | (.never, inbox) =>
    match ← socket.recv? 8192 with
    | some bytes => awaitReply socket (inbox.receive bytes.toList)
    | none => awaitReply socket inbox.close
  | r => return r

def printLine (text : String) : IO Unit := do
  IO.println text
  (← IO.getStdout).flush

partial def consoleLoop (socket : TCP.Socket.Client) (inbox : Inbox) : IO UInt32 := do
  let line := (← readTyped (← IO.getStdin) .empty).toList
  if line.isEmpty then return 0
  match Utf8.malformed? line with
  | some cause => fail (.malformedInput cause)
  | none =>
    match Console.Typed.ofLine (Utf8.decode line) with
    | .blank => consoleLoop socket inbox
    | .quit => return 0
    | .help =>
      printLine Console.helpText
      consoleLoop socket inbox
    | .request text =>
      let result ← Async.block do
        socket.send (packed (sentLine text))
        awaitReply socket inbox
      match result with
      | (.reply reply, inbox) =>
        printLine reply
        consoleLoop socket inbox
      | (.failure f, _) => fail f
      | (.never, _) => return 0

def runClient (server : String) : IO UInt32 := do
  let socket ← TCP.Socket.Client.mk
  try
    Async.block do socket.connect (← resolve server)
  catch e =>
    return ← fail (.connect server (obstacleOf e))
  let code ← consoleLoop socket {}
  try
    Async.block socket.shutdown
  catch _ =>
    pure ()
  return code

end RelayStore.Program

open RelayStore in
def main (args : List String) : IO UInt32 := do
  match CommandLine.parse args with
  | .ok (.serve config) => Program.serveNode config
  | .ok (.client server) => Program.runClient server
  | .error notice =>
    if notice.isAnswer then IO.print notice.text else IO.eprint notice.text
    return UInt32.ofNat notice.exitCode
