import RelayStore.CommandLine.Flag
import RelayStore.CommandLine.Similar

/-! # Notices

Why a command line leads to no run: something about the program is shown, because it was
asked for or because nothing was, or the line is in error. An error is said in one line;
some errors then show how to call the program, and some guess what was meant.
-/
namespace RelayStore.CommandLine

inductive Notice where
  /-- Help was asked for. -/
  | help (page : Page)
  | version
  /-- There is no subcommand. -/
  | missingCommand
  | unknownCommand (page : Page) (name : String) (tip : Option String)
  | unexpectedArgument (page : Page) (used : List Flag) (argument : String) (tip : Option String)
  /-- An option that takes no value has one attached. -/
  | unexpectedValue (page : Page) (used : List Flag) (option value : String)
  | missingValue (flag : Flag)
  | invalidValue (flag : Flag) (value reason : String)
  | repeated (page : Page) (flag : Flag)
deriving DecidableEq, Repr

namespace Notice

def problem : Notice → String
  | .help _ | .version | .missingCommand => ""
  | .unknownCommand _ name _ => "unrecognized subcommand '" ++ name ++ "'"
  | .unexpectedArgument _ _ argument _ => "unexpected argument '" ++ argument ++ "' found"
  | .unexpectedValue _ _ option value =>
    "unexpected value '" ++ value ++ "' for '" ++ option ++ "' found; no more were accepted"
  | .missingValue flag => "a value is required for '" ++ flag.render ++ "' but none was supplied"
  | .invalidValue flag value reason =>
    "invalid value '" ++ value ++ "' for '" ++ flag.render ++ "': " ++ reason
  | .repeated _ flag => "the argument '" ++ flag.render ++ "' cannot be used multiple times"

def tip? : Notice → Option String
  | .unknownCommand _ _ tip | .unexpectedArgument _ _ _ tip => tip
  | _ => none

def usage? : Notice → Option String
  | .unknownCommand page _ _ | .repeated page _ => some page.usage
  | .unexpectedArgument page used _ _ | .unexpectedValue page used _ _ => some (page.usageWith used)
  | _ => none

def paragraphs (n : Notice) : List String :=
  ["error: " ++ n.problem] ++ (n.tip?.map ("  tip: " ++ ·)).toList ++ n.usage?.toList ++
    ["For more information, try '--help'."]

def text : Notice → String
  | .help page => page.text
  | .version => versionLine
  | .missingCommand => Page.program.text
  | n => "\n\n".intercalate n.paragraphs ++ "\n"

def isAnswer : Notice → Bool
  | .help _ | .version => true
  | _ => false

def exitCode (n : Notice) : Nat :=
  if n.isAnswer then 0 else 2

end Notice
end RelayStore.CommandLine
