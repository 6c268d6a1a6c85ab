import Rowlang.Engine
import Rowlang.Json.Printer
import Rowlang.Json.Reading
import Rowlang.Json.Values
import Rowlang.Listing

/-!
# Commands

What can be asked of an engine from outside: the value of expressions on a JSON document, their
checked form, and the tokens and trees behind them.

* `Engine.evaluateJson` : the value of the last of some expressions, as a document;
* `Command`, `Command.run` : the commands, and what they write;
* `CommandError` : why a command stops, with its wording.
-/

namespace Rowlang

/-- Why a command stops. -/
inductive CommandError where
  | parse (e : ParseError)
  | grammar (e : GrammarError)
  | malformedJson

def CommandError.message : CommandError → String
  | .parse e => "Parse error: " ++ e.message
  | .grammar e => "Grammar error: " ++ e.message
  | .malformedJson => "Invalid JSON"

/-! ## Evaluation on documents -/

namespace Engine

/-- The expressions of some texts, or why the first that is no expression is none. -/
def readAll (e : Engine) (sources : List String) : Except ParseError (List Expr) :=
  sources.mapM e.read

/-- The value of the last of some texts, which are evaluated in order in one context; null if there
are none. -/
def evaluateLast (e : Engine) (store : Store) (c : Context) (last : Value) : List String → Value
  | [] => last
  | source :: rest =>
    let (v, c, e) := e.evaluateIn store c source
    e.evaluateLast store c v rest

/-- The value of a document and the objects in it; null without a document. -/
def rootOf (input : Option String) : Except CommandError (Value × Store) :=
  match input with
  | none => .ok (.null, .empty)
  | some text =>
    match Json.ofText? text with
    | some j => .ok (j.toValue .empty)
    | none => .error .malformedJson

/-- The value of the last of some texts on a document, as a document. All texts must be expressions,
which is found out first. -/
def evaluateJson (e : Engine) (sources : List String) (input : Option String) :
    Except CommandError Json := do
  let _ ← (e.readAll sources).mapError .parse
  let (root, store) ← rootOf input
  return (e.evaluateLast store (.ofRoot root) .null sources).toJson store

end Engine

/-! ## Commands -/

/-- A command. -/
inductive Command where
  /-- evaluates texts on a document, in the compact or in the pretty form -/
  | evaluate (sources : List String) (input : Option String) (isPretty : Bool)
  /-- writes expressions with all their brackets -/
  | check (sources : List String)
  | tokens (text : String)
  | tree (text : String)
  /-- writes a grammar in its normal form, by default the one in use -/
  | grammar (definition : Option String)

namespace Command

/-- The written forms of expressions, one a line, up to the first text that is none. -/
def runCheck (e : Engine) : List String → String × Option CommandError
  | [] => ("", none)
  | source :: rest =>
    match e.read source with
    | .error err => ("", some (.parse err))
    | .ok x =>
      let (out, err) := runCheck e rest
      (x.render ++ "\n" ++ out, err)

/-- What was computed, or the error and nothing written. -/
def output (r : Except CommandError String) : String × Option CommandError :=
  match r with
  | .ok out => (out, none)
  | .error err => ("", some err)

/-- What a command writes, and why it stops if it does. -/
def run (e : Engine) : Command → String × Option CommandError
  | .evaluate sources input isPretty =>
    output ((e.evaluateJson sources input).map fun j =>
      (if isPretty then j.pretty else j.compact) ++ "\n")
  | .check sources => runCheck e sources
  | .tokens text => output ((e.grammar.tokenListing text).mapError fun err => .parse (.lex err))
  | .tree text => output (((e.grammar.parseTree text).map ParseTree.render).mapError .parse)
  | .grammar none => (e.grammar.render, none)
  | .grammar (some text) => output (((Grammar.ofText text).map Grammar.render).mapError .grammar)

end Command

end Rowlang
