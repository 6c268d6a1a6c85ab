import Rowlang.Eval.Writing
import Rowlang.Expr.Reading
import Rowlang.Grammar.Reading

/-!
# The engine

An engine keeps a grammar, the expressions that it has read by it, the functions, and the message of
the last text that was no expression.

* `EngineConfig`, `Engine.ofConfig` : the settings, and the engine of them;
* `Engine.read` : the expression of a text, without keeping anything;
* `Engine.compile` : the expression of a text, read once and kept; a text that is no expression is
  null;
* `Engine.evaluateAt`, `Engine.evaluateIn`, `Engine.evaluate` : values of texts, with the variables
  of a context or with fresh ones;
* `Engine.setValue` : writing through a text.
-/

namespace Rowlang
open Rowlang.Text

/-- The settings of an engine. -/
structure EngineConfig where
  /-- the definition of the grammar, if it is not the usual one -/
  grammar : Option String
  /-- what `join` puts between values -/
  delimiter : String
  /-- whether comments are allowed, and kept with the tokens behind them -/
  attachComments : Bool

def EngineConfig.usual : EngineConfig := ⟨none, ", ", false⟩

/-- A text that has been compiled, with its expression. -/
structure CompiledText where
  source : String
  expr : Expr

/-- An engine. -/
structure Engine where
  grammar : Grammar
  delimiter : String
  /-- the texts compiled so far, in order -/
  compiled : List CompiledText
  functions : FunctionRegistry
  lastError : Option String

/-- The value that expressions are evaluated on, and the variables so far. -/
structure Context where
  root : Value
  bindings : Dictionary Value

namespace Context

def ofRoot (root : Value) : Context := ⟨root, .empty⟩

def assign (c : Context) (name : String) (v : Value) : Context :=
  { c with bindings := c.bindings.insert name v }

def clear (c : Context) : Context := { c with bindings := .empty }

end Context

namespace Engine

/-! ## Settings -/

def ofGrammar (grammar : Grammar) (delimiter : String) : Engine :=
  ⟨grammar, delimiter, [], .initial, none⟩

/-- The engine of some settings, or what is wrong with its grammar. -/
def ofConfig (c : EngineConfig) : Except GrammarError Engine := do
  let g ← match c.grammar with
    | some text => Grammar.ofText text
    | none => .ok expressionGrammar
  return ofGrammar (g.withComments (if c.attachComments then .attach else .off)) c.delimiter

def register (e : Engine) (p : FunctionProvider) : Engine :=
  { e with functions := e.functions.register p }

/-! ## Compiling -/

/-- The expression of a text, or why there is none. -/
def read (e : Engine) (source : String) : Except ParseError Expr := Expr.ofText e.grammar source

/-- An expression that is kept, with its number among those that are. -/
structure Compiled where
  number : Nat
  expr : Expr

/-- The place of a text among those compiled so far. -/
def find? (e : Engine) (source : String) : Option Compiled :=
  go 0 e.compiled
where
  /-- The place in the rest of the texts, the first of which has the number `n`. -/
  go (n : Nat) : List CompiledText → Option Compiled
    | [] => none
    | c :: rest => if c.source = source then some ⟨n, c.expr⟩ else go (n + 1) rest

def keep (e : Engine) (source : String) (x : Expr) : Compiled × Engine :=
  (⟨e.compiled.length, x⟩, { e with compiled := e.compiled ++ [⟨source, x⟩] })

/-- The expression of a text, read once and kept. A blank text is null, and so is a text that is no
expression; the message of that is kept as the last error. -/
def compile (e : Engine) (source : String) : Compiled × Engine :=
  match e.find? source with
  | some c => (c, e)
  | none =>
    if source.toList.all isBlank then e.keep source .null
    else
      match e.read source with
      | .ok x => e.keep source x
      | .error err =>
        { e with lastError := some (source ++ ": " ++ err.message) }.keep source .null

def cached (e : Engine) : Nat := e.compiled.length

/-- The message of the last text that was no expression, which is then forgotten. -/
def takeLastError (e : Engine) : Option String × Engine :=
  (e.lastError, { e with lastError := none })

/-! ## Evaluating -/

def run {α : Type} (e : Engine) (c : Context) (x : Eval α) : α × Context × Engine :=
  let (v, s) := (x.run ⟨c.bindings, e.functions⟩)
  (v, { c with bindings := s.bindings }, { e with functions := s.functions })

/-- What evaluations depend on. -/
def evaluator (e : Engine) (store : Store) : Evaluator := ⟨store, e.delimiter⟩

/-- The value of a text on `current`, with the variables of a context. -/
def evaluateAt (e : Engine) (store : Store) (c : Context) (current : Value) (source : String) :
    Value × Context × Engine :=
  let (x, e) := e.compile source
  e.run c ((e.evaluator store).evaluate current x.expr)

/-- The value of a text on the root of a context, with its variables. -/
def evaluateIn (e : Engine) (store : Store) (c : Context) (source : String) :
    Value × Context × Engine :=
  e.evaluateAt store c c.root source

/-- The value of a text on `root`, with fresh variables. -/
def evaluate (e : Engine) (store : Store) (root : Value) (source : String) : Value × Engine :=
  let (v, _, e) := e.evaluateIn store (.ofRoot root) source
  (v, e)

/-! ## Writing -/

/-- The objects after a value has been written through a text, starting from `target`. -/
def setValue (e : Engine) (store : Store) (target : Value) (source : String) (v : Value) :
    Except EvalError Store × Engine :=
  let (x, e) := e.compile source
  let (r, _, e) := e.run (.ofRoot target) ((e.evaluator store).write target x.expr v)
  (r, e)

end Engine

namespace Value

/-! ## Results -/

/-- The value as a whole number; zero if it is not numeric. -/
def asInt (v : Value) : Int := v.toInt?.getD 0

/-- The value as a double; zero if it is not numeric. -/
def asDouble (v : Value) : Float := v.toDouble?.getD 0

/-- The items of a list, none for null, and otherwise the value alone. -/
def asItems : Value → List Value
  | .list items _ => items
  | .null => []
  | v => [v]

end Value

end Rowlang
