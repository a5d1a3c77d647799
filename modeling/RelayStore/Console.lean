import RelayStore.Dialogue

/-! # The console

The interactive client reads typed lines. A blank line is passed over, a few words are
meant for the console itself, in any ASCII case and alone on their line, and all else is
sent without the white space around it. Each reply is printed as a line. The console ends
at the end of its input, at a word that says so, at a line that is not UTF-8, or at a
request without a readable reply.
-/
namespace RelayStore.Console

inductive Typed where
  | blank
  | help
  | quit
  | request (text : String)
deriving DecidableEq, Repr

def Typed.ofLine (line : String) : Typed :=
  let text := Text.trim line
  if text = "" then .blank
  else if Text.upper text = "HELP" then .help
  else if Text.upper text = "QUIT" ∨ Text.upper text = "EXIT" then .quit
  else .request text

def helpText : String :=
  "\n".intercalate
    ["commands:",
      "  SET <key> <value>   store a value",
      "  GET <key>           print a value, or None",
      "  DELETE <key>        remove a key (DEL also works)",
      "  help                show this list",
      "  exit                leave the client (quit also works)"]

/-- The typed lines of an input, each with its newline; the last one may have none. -/
def typedLines (input : Bytes) : List Bytes :=
  input.foldr (fun b lines =>
    if b = newline then [b] :: lines
    else match lines with
      | [] => [[b]]
      | line :: lines => (b :: line) :: lines) []

structure Transcript where
  printed : List String
  failure : Option Failure
  dialogue : Dialogue

def Transcript.print (text : String) (t : Transcript) : Transcript :=
  { t with printed := text :: t.printed }

/-- The console at the typed lines that are left; nothing if it waits for ever. -/
def runLines (d : Dialogue) : List Bytes → Option Transcript
  | [] => some ⟨[], none, d⟩
  | line :: lines =>
    match Utf8.malformed? line with
    | some cause => some ⟨[], some (.malformedInput cause), d⟩
    | none =>
      match Typed.ofLine (Utf8.decode line) with
      | .blank => runLines d lines
      | .quit => some ⟨[], none, d⟩
      | .help => (runLines d lines).map (·.print helpText)
      | .request text =>
        match d.request 0 text with
        | (.reply reply, d) => (runLines d lines).map (·.print reply)
        | (.failure f, d) => some ⟨[], some f, d⟩
        | (.never, _) => none

def run (d : Dialogue) (input : Bytes) : Option Transcript :=
  let t : Option Transcript :=
    match d.connect 0 with
    | .error f => some ⟨[], some f, d⟩
    | .ok (d, _) => runLines d (typedLines input)
  t.filter (·.dialogue.server.isDone)

def Transcript.exitCode (t : Transcript) : Nat :=
  if t.failure.isSome then 1 else 0

def Transcript.lines (t : Transcript) : List String :=
  t.printed.flatMap fun text => (text.toList.splitOn '\n').map .ofList

def Transcript.errorText (t : Transcript) : String :=
  match t.failure with
  | some f => f.report
  | none => ""

end RelayStore.Console
