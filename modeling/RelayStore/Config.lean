import RelayStore.Address.Socket

/-! # Configuration of a node

A node listens on one address. It may have one neighbour, given as a text that is only
looked at when something is relayed, a bound on the time that one relay takes, and a cap
on the connections served at once, which is at least one.
-/
namespace RelayStore

abbrev Cap := { n : Nat // 0 < n }

/-- In milliseconds. -/
def defaultPeerTimeout : Nat := 2000

structure NodeConfig where
  listen : SocketAddress
  peer : Option String := none
  /-- In milliseconds. -/
  peerTimeout : Nat := defaultPeerTimeout
  maxConnections : Option Cap := none
deriving DecidableEq, Repr

namespace NodeConfig

def standalone (listen : SocketAddress) : NodeConfig := { listen }

inductive Setting where
  | listen (address : SocketAddress)
  | peer (address : String)
  | peerTimeout (milliseconds : Nat)
  | maxConnections (cap : Cap)
deriving DecidableEq, Repr

def adjust (config : NodeConfig) : Setting → NodeConfig
  | .listen address => { config with listen := address }
  | .peer address => { config with peer := some address }
  | .peerTimeout ms => { config with peerTimeout := ms }
  | .maxConnections cap => { config with maxConnections := some cap }

def history (config : NodeConfig) : List Setting → List NodeConfig
  | [] => [config]
  | s :: ss => config :: history (config.adjust s) ss

end NodeConfig
end RelayStore
