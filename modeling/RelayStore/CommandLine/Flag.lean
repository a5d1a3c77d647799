import RelayStore.CommandLine.Page
import RelayStore.Config

/-! # Options with a value

Each subcommand has options of its own, and every option takes one value. What a value
means is settled when it is read, so what has been given is kept by meaning and not as
text.
-/
namespace RelayStore.CommandLine

inductive Flag where
  | listen
  | peer
  | peerTimeout
  | maxConnections
  | server
deriving DecidableEq, Repr

inductive Value where
  | setting (s : NodeConfig.Setting)
  | server (address : String)
deriving DecidableEq, Repr

namespace Flag

def name : Flag → String
  | .listen => "listen"
  | .peer => "peer"
  | .peerTimeout => "peer-timeout-ms"
  | .maxConnections => "max-connections"
  | .server => "server"

def placeholder : Flag → String
  | .listen => "LISTEN"
  | .peer => "PEER"
  | .peerTimeout => "PEER_TIMEOUT_MS"
  | .maxConnections => "MAX_CONNECTIONS"
  | .server => "SERVER"

def render (flag : Flag) : String :=
  "--" ++ flag.name ++ " <" ++ flag.placeholder ++ ">"

def read (flag : Flag) (text : String) : Except String Value :=
  match flag with
  | .listen =>
    match SocketAddress.parse? text with
    | some address => .ok (.setting (.listen address))
    | none => .error SocketAddress.syntaxMessage
  | .peer => .ok (.setting (.peer text))
  | .peerTimeout =>
    match Numeral.parse Numeral.max64 text with
    | .ok ms => .ok (.setting (.peerTimeout ms))
    | .error flaw => .error flaw.message
  | .maxConnections =>
    match Numeral.parsePositive Numeral.max64 text with
    | .ok cap => .ok (.setting (.maxConnections cap))
    | .error flaw => .error flaw.message
  | .server => .ok (.server text)

end Flag

def Page.flags : Page → List Flag
  | .serve => [.listen, .peer, .peerTimeout, .maxConnections]
  | .client => [.server]
  | .program | .help => []

/-- The usage line that names options already given, or all of them in short if none is. -/
def Page.usageWith (page : Page) (used : List Flag) : String :=
  match used with
  | [] => page.usage
  | _ => "Usage: " ++ page.invocation ++ .join (used.map fun flag => " " ++ flag.render)

end RelayStore.CommandLine
