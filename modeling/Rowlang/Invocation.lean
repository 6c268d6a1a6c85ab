import Rowlang.Command

/-!
# Command lines

* `Invocation` : what a command line asks for, with the names of the files to read;
* `Invocation.ofArgs?` : the reading of a command line;
* `Invocation.usage` : the help.

Options that belong to all commands may stand anywhere.
-/

namespace Rowlang

/-- What to do. -/
inductive Action where
  | evaluate (sources : List String) (input : Option String) (isPretty : Bool)
  | check (sources : List String)
  | tokens (text : String) (comments : Bool)
  | tree (text : String)
  | grammar (file : Option String)

/-- A command line that has been read. -/
structure Invocation where
  grammarFile : Option String
  delimiter : Option String
  action : Action

/-- The options and operands of a command line. -/
structure Arguments where
  grammarFile : Option String
  delimiter : Option String
  input : Option String
  isPretty : Bool
  comments : Bool
  operands : List String

namespace Arguments

def empty : Arguments := ⟨none, none, none, false, false, []⟩

def operand (a : Arguments) (s : String) : Arguments := { a with operands := a.operands ++ [s] }

/-- Reads what is left of a command line. Behind a double hyphen all are operands. -/
def read? (a : Arguments) : List String → Option Arguments
  | [] => some a
  | "--" :: rest => some (rest.foldl operand a)
  | "--grammar" :: v :: rest => read? { a with grammarFile := some v } rest
  | "--delimiter" :: v :: rest => read? { a with delimiter := some v } rest
  | "--input" :: v :: rest | "-i" :: v :: rest => read? { a with input := some v } rest
  | "--pretty" :: rest | "-p" :: rest => read? { a with isPretty := true } rest
  | "--comments" :: rest => read? { a with comments := true } rest
  | s :: rest => if s.startsWith "-" then none else read? (a.operand s) rest

end Arguments

namespace Invocation

def usage : String :=
  "usage: rowlang [--grammar FILE] [--delimiter TEXT] COMMAND\n" ++
  "  eval [--input JSON] [--pretty] EXPRESSION...\n" ++
  "  check EXPRESSION...\n" ++
  "  tokens [--comments] EXPRESSION\n" ++
  "  tree EXPRESSION\n" ++
  "  grammar [FILE]\n"

/-- The action that some operands name. -/
def action? (a : Arguments) : Option Action :=
  match a.operands with
  | "eval" :: source :: more => some (.evaluate (source :: more) a.input a.isPretty)
  | "check" :: source :: more => some (.check (source :: more))
  | ["tokens", text] => some (.tokens text a.comments)
  | ["tree", text] => some (.tree text)
  | ["grammar"] => some (.grammar none)
  | ["grammar", file] => some (.grammar (some file))
  | _ => none

/-- Reads a command line. -/
def ofArgs? (args : List String) : Option Invocation := do
  let a ← Arguments.empty.read? args
  return ⟨a.grammarFile, a.delimiter, ← action? a⟩

def attachesComments (i : Invocation) : Bool :=
  match i.action with
  | .tokens _ comments => comments
  | _ => false

def config (i : Invocation) (grammar : Option String) : EngineConfig :=
  ⟨grammar, i.delimiter.getD EngineConfig.usual.delimiter, i.attachesComments⟩

end Invocation

end Rowlang
