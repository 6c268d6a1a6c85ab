import Rowlang.Grammar.Definition
import Rowlang.Parse.Parser

/-!
# Reading grammar definitions

The text of grammar definitions is itself parsed by a grammar, `definitionGrammar`:

```text
Grammar       { RuleDef* }
RuleDef       { Name "{" Expression "}" }
Expression    { AndExpr ("|" AndExpr)* }
AndExpr       { CountExpr+ }
CountExpr     { PrimaryExpr ("*" | "+" | "?")? }
PrimaryExpr   { String | QuotedString | LookAheadExpr | Name | Group }
LookAheadExpr { "LookAhead" "(" (Number | Expression) ")" }
Group         { "(" Expression ")" }
```

Comments are skipped. A name that cannot be defined is reported as soon as its definition has been
read, before any fault further on.

* `definitionBuilder` : makes definitions of what these rules match;
* `Grammar.ofText` : the grammar that a text defines.
-/

namespace Rowlang

/-! ## The grammar of definitions -/

open Body in
def definitionRules : List Definition := [
  ⟨"Grammar", star (name "RuleDef")⟩,
  ⟨"RuleDef", sequence (name "Name") [literal "\x7b", name "Expression", literal "\x7d"]⟩,
  ⟨"Expression", seq (name "AndExpr") (star (seq (literal "|") (name "AndExpr")))⟩,
  ⟨"AndExpr", plus (name "CountExpr")⟩,
  ⟨"CountExpr", seq (name "PrimaryExpr") (opt (choice (literal "*") [literal "+", literal "?"]))⟩,
  ⟨"PrimaryExpr", choice (name "String")
    [name "QuotedString", name "LookAheadExpr", name "Name", name "Group"]⟩,
  ⟨"LookAheadExpr", sequence (literal "LookAhead")
    [literal "(", alt (name "Number") (name "Expression"), literal ")"]⟩,
  ⟨"Group", sequence (literal "(") [name "Expression", literal ")"]⟩]

theorem definitionRules_build : (Grammar.ofDefinitions definitionRules).toOption.isSome = true := by
  decide +kernel

def definitionGrammar : Grammar :=
  ((Grammar.ofDefinitions definitionRules).toOption.get definitionRules_build).withComments .skip

/-! ## What its rules stand for -/

/-- What a rule of the grammar of definitions makes. -/
inductive DefinitionNode where
  | token (t : Token)
  | body (b : Body)
  /-- a definition that has been added, or the whole text -/
  | done

namespace DefinitionNode

def bodies (nodes : List DefinitionNode) : List Body :=
  nodes.filterMap fun
    | .body b => some b
    | _ => none

end DefinitionNode

/-- The definitions read so far, and the error that ended the reading. -/
structure DefinitionState where
  definitions : List Definition
  error : Option GrammarError

/-- Adds a definition, unless its name is taken. -/
def DefinitionState.define (s : DefinitionState) (name : String) (body : Body) :
    Except String DefinitionNode × DefinitionState :=
  let refuse (e : GrammarError) : Except String DefinitionNode × DefinitionState :=
    (.error e.message, { s with error := some e })
  if isLexical name then refuse (.reservedName name)
  else if s.definitions.any (·.name == name) then refuse (.duplicateRule name)
  else (.ok .done, { s with definitions := s.definitions ++ [⟨name, body⟩] })

/-- The number that decimal digits denote, if it is below `2 ^ 64`. -/
def readTokenCount (digits : String) : Option Nat :=
  match digits.toNat? with
  | some n => if n < 2 ^ 64 then some n else none
  | none => none

/-- The body that a rule other than `RuleDef` makes of its children. -/
def definitionBody (rule : String) (children : List DefinitionNode) : Except String Body :=
  match rule, children with
  | "Expression", children =>
    match DefinitionNode.bodies children with
    | first :: rest => .ok (.choice first rest)
    | [] => .error "empty alternative"
  | "AndExpr", children =>
    match DefinitionNode.bodies children with
    | first :: rest => .ok (.sequence first rest)
    | [] => .error "empty sequence"
  | "CountExpr", .body b :: .token op :: _ =>
    match op.text with
    | "*" => .ok (.star b)
    | "+" => .ok (.plus b)
    | _ => .ok (.opt b)
  | "CountExpr", .body b :: _ => .ok b
  | "CountExpr", _ => .error "missing repeated expression"
  | "PrimaryExpr", .token t :: _ =>
    if t.name == "String" || t.name == "QuotedString" then .ok (.literal t.unquoted)
    else .ok (.name t.text)
  | "PrimaryExpr", .body b :: _ => .ok b
  | "PrimaryExpr", _ => .error "empty primary expression"
  | "LookAheadExpr", _ :: _ :: .token t :: _ =>
    match readTokenCount t.text with
    | some n => .ok (.ahead n)
    | none => .error ("invalid lookahead count '" ++ t.text ++ "'")
  | "LookAheadExpr", _ :: _ :: .body b :: _ => .ok (.guarded b)
  | "LookAheadExpr", _ => .error "missing lookahead argument"
  | "Group", children =>
    match DefinitionNode.bodies children with
    | b :: _ => .ok b
    | [] => .error "empty group"
  | other, _ => .error ("unexpected meta rule '" ++ other ++ "'")

def definitionBuilder : TreeBuilder DefinitionState DefinitionNode where
  token := .token
  rule name children s :=
    match name, children with
    | "Grammar", _ => (.ok .done, s)
    | "RuleDef", .token t :: rest =>
      match DefinitionNode.bodies rest with
      | body :: _ => s.define t.text body
      | [] => (.error ("rule '" ++ t.text ++ "' has no body"), s)
    | "RuleDef", _ => (.error "rule definition without a name", s)
    | name, children => ((definitionBody name children).map .body, s)

def readDefinitions (text : String) : Except GrammarError (List Definition) :=
  let (result, s) := Parser.parse ⟨definitionGrammar, definitionBuilder, defaultLimit⟩ text ⟨[], none⟩
  match s.building.error, result with
  | some e, _ => .error e
  | none, .error e => .error (.parse e)
  | none, .ok _ => .ok s.building.definitions

/-- The grammar that a text defines. The first rule in it is the start. -/
def Grammar.ofText (text : String) : Except GrammarError Grammar := do
  let definitions ← readDefinitions text
  Grammar.ofDefinitions definitions

end Rowlang
