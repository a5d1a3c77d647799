import RelayStore.CommandLine.Notice

/-! # Reading the command line

The first argument names a subcommand or asks for something; the arguments behind a
subcommand are its options. A value stands behind its option or is attached to it with an
equals sign. An attached value is looked at when it is read. A value that stands by itself
waits until the next option is understood or the line ends, so that an argument which is
not understood is reported before it. Behind two dashes nothing is an option any more.
-/
namespace RelayStore.CommandLine

inductive Invocation where
  | serve (config : NodeConfig)
  | client (server : String)
deriving DecidableEq, Repr

inductive Word where
  | long (name : String) (value : Option String)
  | short (letter : Char)
  | plain
deriving DecidableEq, Repr

def splitValue (cs : List Char) : String × Option String :=
  let name := cs.takeWhile (· != '=')
  match cs.dropWhile (· != '=') with
  | [] => (.ofList name, none)
  | _ :: value => (.ofList name, some (.ofList value))

def Word.ofArgument (arg : String) : Word :=
  match arg.toList with
  | '-' :: '-' :: cs => .long (splitValue cs).1 (splitValue cs).2
  | '-' :: c :: _ => .short c
  | _ => .plain

/-- What has been given so far, and the option that is still open: without its value, or with
a value that has not been looked at. -/
structure Progress where
  given : List (Flag × Value) := []
  pending : Option (Flag × Option String) := none

namespace Progress

def commit (page : Page) (given : List (Flag × Value)) (flag : Flag) (text : String) :
    Except Notice (List (Flag × Value)) :=
  if given.any (·.1 = flag) then .error (.repeated page flag)
  else match flag.read text with
    | .ok value => .ok (given ++ [(flag, value)])
    | .error reason => .error (.invalidValue flag text reason)

def settle (page : Page) (p : Progress) : Except Notice (List (Flag × Value)) :=
  match p.pending with
  | none => .ok p.given
  | some (flag, none) => .error (.missingValue flag)
  | some (flag, some text) => commit page p.given flag text

def used (p : Progress) : List Flag :=
  let flags := p.given.map (·.1)
  match p.pending with
  | some (flag, some _) => if flags.contains flag then flags.erase flag else flags ++ [flag]
  | _ => flags

end Progress

def unknownFlag (page : Page) (used : List Flag) (name : String) : Notice :=
  let known := page.flags.map Flag.name ++ ["help"]
  let guess := (similar name known).getLast?
  let meant := page.flags.filter fun flag => some flag.name = guess && !used.contains flag
  .unexpectedArgument page (used ++ meant) ("--" ++ name)
    (guess.map fun g => "a similar argument exists: '--" ++ g ++ "'")

def readOptions (page : Page) (p : Progress) : List String → Except Notice (List (Flag × Value))
  | [] => p.settle page
  | arg :: rest =>
    if arg = "--" then
      match rest with
      | [] => p.settle page
      | stray :: _ => .error (.unexpectedArgument page [] stray none)
    else match Word.ofArgument arg with
      | .long "help" none => do
        let _ ← p.settle page
        .error (.help page)
      | .long "help" (some value) => .error (.unexpectedValue page p.used "--help" value)
      | .long name value =>
        match page.flags.find? fun flag => flag.name = name with
        | none => .error (unknownFlag page p.used name)
        | some flag => do
          let given ← p.settle page
          match value with
          | none => readOptions page { given, pending := some (flag, none) } rest
          | some text =>
            let given ← Progress.commit page given flag text
            readOptions page { given } rest
      | .short 'h' => do
        let _ ← p.settle page
        .error (.help page)
      | .short c => .error (.unexpectedArgument page [] ("-" ++ c.toString) none)
      | .plain =>
        match p.pending with
        | some (flag, none) => readOptions page { p with pending := some (flag, some arg) } rest
        | _ => .error (.unexpectedArgument page [] arg none)

/-- Where a node listens, and whom a client calls, if nothing else is said. -/
def defaultAddress : SocketAddress := .v4 ⟨127, 0, 0, 1⟩ 5000

structure ServeArgs where
  listen : SocketAddress := defaultAddress
  peer : Option String := none
  peerTimeoutMs : Nat := 2000
  maxConnections : Option Cap := none
deriving DecidableEq, Repr

def ServeArgs.take (args : ServeArgs) : NodeConfig.Setting → ServeArgs
  | .listen address => { args with listen := address }
  | .peer address => { args with peer := some address }
  | .peerTimeout ms => { args with peerTimeoutMs := ms }
  | .maxConnections cap => { args with maxConnections := some cap }

def ServeArgs.nodeConfig (args : ServeArgs) : NodeConfig where
  listen := args.listen
  peer := args.peer
  peerTimeout := args.peerTimeoutMs
  maxConnections := args.maxConnections

def serveArgs (given : List (Flag × Value)) : ServeArgs :=
  given.foldl (fun args g =>
    match g.2 with
    | .setting s => args.take s
    | .server _ => args) {}

def serverOf (given : List (Flag × Value)) : String :=
  given.foldl (fun server g =>
    match g.2 with
    | .server address => address
    | .setting _ => server) defaultAddress.render

def commandNames : List String := ["serve", "client", "help"]

def unknownCommand (name : String) : Notice :=
  let guesses := (similar name commandNames).map fun g => "'" ++ g ++ "'"
  .unknownCommand .program name <|
    match guesses with
    | [] => none
    | [g] => some ("a similar subcommand exists: " ++ g)
    | gs => some ("some similar subcommands exist: " ++ ", ".intercalate gs)

def helpOn (page : Page) : List String → Notice
  | [] => .help page
  | name :: rest =>
    match page, name with
    | .program, "serve" => helpOn .serve rest
    | .program, "client" => helpOn .client rest
    | .program, "help" => helpOn .help rest
    | _, _ => .unknownCommand page name none

def unknownProgramFlag (name : String) (rest : List String) : Notice :=
  match (similar name ["help", "version"]).getLast? with
  | some g => .unexpectedArgument .program [] ("--" ++ name)
      (some ("a similar argument exists: '--" ++ g ++ "'"))
  | none =>
    let guesses := rest.filterMap fun word =>
      let page? : Option Page := match word with
        | "serve" => some .serve
        | "client" => some .client
        | _ => none
      page?.bind fun page =>
        (similar name (page.flags.map Flag.name ++ ["help"])).getLast?.map fun g =>
          "'" ++ word ++ " --" ++ g ++ "' exists"
    .unexpectedArgument .program [] ("--" ++ name) guesses.head?

def parse : List String → Except Notice Invocation
  | [] => .error .missingCommand
  | "serve" :: rest => (readOptions .serve {} rest).map fun given => .serve (serveArgs given).nodeConfig
  | "client" :: rest => (readOptions .client {} rest).map fun given => .client (serverOf given)
  | "help" :: rest => .error (helpOn .program rest)
  | ["--"] => .error .missingCommand
  | "--" :: name :: _ =>
    .error <|
      if commandNames.contains name then
        .unexpectedArgument .program [] name
          (some ("subcommand '" ++ name ++ "' exists; to use it, remove the '--' before it"))
      else unknownCommand name
  | arg :: rest =>
    .error <|
      match Word.ofArgument arg with
      | .long "help" none | .short 'h' => .help .program
      | .long "version" none | .short 'V' => .version
      | .long "help" (some value) => .unexpectedValue .program [] "--help" value
      | .long "version" (some value) => .unexpectedValue .program [] "--version" value
      | .long name _ => unknownProgramFlag name rest
      | .short c => .unexpectedArgument .program [] ("-" ++ c.toString) none
      | .plain => unknownCommand arg

end RelayStore.CommandLine
