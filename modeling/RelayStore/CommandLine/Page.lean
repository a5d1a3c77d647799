/-! # Help pages

What the program prints about itself: one page for the program and one for each of its
subcommands, and the line with its version.
-/
namespace RelayStore.CommandLine

inductive Page where
  | program
  | serve
  | client
  | help
deriving DecidableEq, Repr

namespace Page

def invocation : Page → String
  | .program => "peer_kv"
  | .serve => "peer_kv serve"
  | .client => "peer_kv client"
  | .help => "peer_kv help"

def operands : Page → String
  | .program => "<COMMAND>"
  | .serve | .client => "[OPTIONS]"
  | .help => "[COMMAND]..."

def usage (page : Page) : String :=
  "Usage: " ++ page.invocation ++ " " ++ page.operands

def about : Page → String
  | .program => ""
  | .serve => "Run a key-value node, optionally replicating to one peer\n\n"
  | .client => "Connect to a node and issue commands interactively\n\n"
  | .help => "Print this message or the help of the given subcommand(s)\n\n"

def details : Page → List String
  | .program =>
    ["Commands:",
      "  serve   Run a key-value node, optionally replicating to one peer",
      "  client  Connect to a node and issue commands interactively",
      "  help    Print this message or the help of the given subcommand(s)",
      "",
      "Options:",
      "  -h, --help     Print help",
      "  -V, --version  Print version"]
  | .serve =>
    ["Options:",
      "      --listen <LISTEN>",
      "          Socket address the node should bind to. Use port 0 for an ephemeral port " ++
        "[default: 127.0.0.1:5000]",
      "      --peer <PEER>",
      "          Address (host:port) of the peer that receives this node's updates",
      "      --peer-timeout-ms <PEER_TIMEOUT_MS>",
      "          Give up on a propagation attempt after this many milliseconds [default: 2000]",
      "      --max-connections <MAX_CONNECTIONS>",
      "          Serve at most this many connections at once. Must be at least 1",
      "  -h, --help",
      "          Print help"]
  | .client =>
    ["Options:",
      "      --server <SERVER>  Address of the node to connect to [default: 127.0.0.1:5000]",
      "  -h, --help             Print help"]
  | .help =>
    ["Arguments:",
      "  [COMMAND]...  Print help for the subcommand(s)"]

def text (page : Page) : String :=
  page.about ++ page.usage ++ "\n\n" ++ "\n".intercalate page.details ++ "\n"

end Page

def versionLine : String := "peer_kv 0.1.0\n"

end RelayStore.CommandLine
