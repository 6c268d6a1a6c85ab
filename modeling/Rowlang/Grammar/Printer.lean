import Rowlang.Grammar.Basic

/-!
# The written form of a grammar

* `Grammar.describe` : a rule in the notation of grammar definitions;
* `Grammar.render` : the definitions of all named rules, one to a line.
-/

namespace Rowlang

/-- The text of a literal between quotes: quotes and backslashes are escaped. -/
def quoteLiteral (text : String) : String :=
  String.ofList ('"' :: text.toList.flatMap (fun c => if c == '\\' || c == '"' then ['\\', c] else [c])
    ++ ['"'])

/-- How tightly a construct binds: alternatives least, repetition most. -/
inductive Binding where
  | choice | sequence | counted
deriving DecidableEq, Repr

/-- How tightly a construct binds, as a number. -/
def Binding.level : Binding → Nat
  | .choice => 0
  | .sequence => 1
  | .counted => 2

/-- Puts a construct that binds less tightly than its surroundings in parentheses. -/
def Binding.enclose (inner outer : Binding) (text : String) : String :=
  if inner.level < outer.level then "(" ++ text ++ ")" else text

namespace Grammar

def describeLeaf (g : Grammar) (pattern : Nat) : String :=
  match g.lexicon.patterns[pattern]? with
  | some (.literal text) => quoteLiteral text
  | some (.regex name _) => name
  | none => "<pattern " ++ toString pattern ++ ">"

/-- The written form of a rule within a construct that binds as `outer` says. -/
def describeIn (g : Grammar) (outer : Binding) (id : Nat) : String :=
  match h : g.shape? id with
  | none => "?"
  | some (.token p) => g.describeLeaf p
  | some (.named _) => (g.name? id).getD "?"
  | some (.seq l r) =>
    have := g.part_lt h (c := l) (by simp [Shape.parts])
    have := g.part_lt h (c := r) (by simp [Shape.parts])
    Binding.sequence.enclose outer (g.describeIn .sequence l ++ " " ++ g.describeIn .sequence r)
  | some (.alt l r) =>
    have := g.part_lt h (c := l) (by simp [Shape.parts])
    have := g.part_lt h (c := r) (by simp [Shape.parts])
    Binding.choice.enclose outer (g.describeIn .choice l ++ " | " ++ g.describeIn .choice r)
  | some (.opt c) =>
    have := g.part_lt h (c := c) (by simp [Shape.parts])
    g.describeIn .counted c ++ "?"
  | some (.star c) =>
    have := g.part_lt h (c := c) (by simp [Shape.parts])
    g.describeIn .counted c ++ "*"
  | some (.plus c) =>
    have := g.part_lt h (c := c) (by simp [Shape.parts])
    g.describeIn .counted c ++ "+"
  | some (.ahead count) => "LookAhead(" ++ toString count ++ ")"
  | some (.guarded c _) =>
    have := g.part_lt h (c := c) (by simp [Shape.parts])
    "LookAhead(" ++ g.describeIn .choice c ++ ")"
termination_by id

theorem describeIn_of_shape {g : Grammar} {id : Nat} {s : Shape} {outer : Binding}
    (shape : g.shape? id = some s) :
    g.describeIn outer id = match s with
      | .token p => g.describeLeaf p
      | .named _ => (g.name? id).getD "?"
      | .seq l r =>
        Binding.sequence.enclose outer (g.describeIn .sequence l ++ " " ++ g.describeIn .sequence r)
      | .alt l r =>
        Binding.choice.enclose outer (g.describeIn .choice l ++ " | " ++ g.describeIn .choice r)
      | .opt c => g.describeIn .counted c ++ "?"
      | .star c => g.describeIn .counted c ++ "*"
      | .plus c => g.describeIn .counted c ++ "+"
      | .ahead count => "LookAhead(" ++ toString count ++ ")"
      | .guarded c _ => "LookAhead(" ++ g.describeIn .choice c ++ ")" := by
  rw [describeIn]
  split <;> rename_i shape' <;> cases shape.symm.trans shape' <;> rfl

def describe (g : Grammar) (id : Nat) : String := g.describeIn .choice id

/-- What a rule is called in messages: its name, or else its written form. -/
def ruleName (g : Grammar) (id : Nat) : String := (g.name? id).getD (g.describe id)

def renderDefinition (g : Grammar) (id : Nat) : String :=
  match g.shape? id with
  | some (.named body) => (g.name? id).getD "?" ++ " \x7b " ++ g.describe body ++ " \x7d\n"
  | _ => ""

def render (g : Grammar) : String := String.join (g.order.map g.renderDefinition)

end Grammar

end Rowlang
