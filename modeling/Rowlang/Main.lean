import Rowlang.Invocation

/-!
# The program

Reads the files and the input that a command line asks for, runs the command, and writes what it
gives.
-/

namespace Rowlang
open Rowlang.Text

/-- All that is left of a stream. -/
partial def readStream (h : IO.FS.Stream) (acc : String) : IO String := do
  let line ← h.getLine
  if line.isEmpty then return acc else readStream h (acc ++ line)

/-- What comes through standard input, unless it is a terminal or blank. -/
def readInput : IO (Option String) := do
  let h ← IO.getStdin
  if ← h.isTty then return none
  let text ← readStream h ""
  return if text.toList.all isBlank then none else some text

/-- The content of a file, if one is named. -/
def readFile? (file : Option String) : IO (Option String) :=
  match file with
  | some f => some <$> IO.FS.readFile f
  | none => return none

/-- The command of an action. -/
def Action.load : Action → IO Command
  | .evaluate sources (some input) isPretty => return .evaluate sources (some input) isPretty
  | .evaluate sources none isPretty => return .evaluate sources (← readInput) isPretty
  | .check sources => return .check sources
  | .tokens text _ => return .tokens text
  | .tree text => return .tree text
  | .grammar file => return .grammar (← readFile? file)

/-- Writes what a command gives. -/
def report (result : String × Option CommandError) : IO UInt32 := do
  IO.print result.1
  match result.2 with
  | none => return 0
  | some err =>
    IO.eprintln err.message
    return 1

/-- Carries out a command line. -/
def Invocation.perform (i : Invocation) : IO UInt32 := do
  match Engine.ofConfig (i.config (← readFile? i.grammarFile)) with
  | .error e => report ("", some (.grammar e))
  | .ok engine => report ((← i.action.load).run engine)

end Rowlang

def main (args : List String) : IO UInt32 := do
  match Rowlang.Invocation.ofArgs? args with
  | some i => i.perform
  | none =>
    IO.eprint Rowlang.Invocation.usage
    return 2
