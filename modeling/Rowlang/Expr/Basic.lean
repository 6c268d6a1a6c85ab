import Rowlang.Expr.Operator

/-!
# Expressions

* `Expr.steps` : the steps of a path;
* `Expr.isAssignable` : the expressions that a value can be written through;
* `Expr.subterms` : an expression and all within it;
* `Expr.size`, `Expr.sizeOfSteps` : the measure by which evaluation descends.
-/

namespace Rowlang

/-- An expression. -/
inductive Expr where
  | literal (v : Value)
  /-- an attribute of the current value, or a variable -/
  | key (name : String)
  /-- an item of a list -/
  | index (target position : Expr)
  | call (name : String) (args : List Expr)
  /-- a path: each step is evaluated on the value of the step before it -/
  | chain (steps : List Expr)
  /-- a choice between two expressions, of which the second may be missing -/
  | conditional (condition whenTrue : Expr) (whenFalse : Option Expr)
  | assignment (op : AssignOperator) (target value : Expr)
  | unary (op : UnaryOperator) (operand : Expr)
  | binary (op : BinaryOperator) (left right : Expr)

namespace Expr

def null : Expr := .literal .null

instance : Inhabited Expr := ⟨null⟩

def isNullLiteral : Expr → Bool
  | .literal .null => true
  | _ => false

def steps : Expr → List Expr
  | .chain steps => steps
  | e => [e]

def keyName? : Expr → Option String
  | .key name => some name
  | _ => none

def lastKey? (e : Expr) : Option String := e.steps.getLast?.bind keyName?

/-- Whether a value can be written through the expression: a key, or a path that ends in one. -/
def isAssignable : Expr → Bool
  | .key _ => true
  | .chain steps => (steps.getLast?.bind keyName?).isSome
  | _ => false

/-- The path of some steps; a single step stands for itself. -/
def ofSteps : List Expr → Expr
  | [e] => e
  | steps => .chain steps

/-! ## Subterms -/

mutual

def subterms : Expr → List Expr
  | e@(.literal _) => [e]
  | e@(.key _) => [e]
  | e@(.index target position) => e :: (target.subterms ++ position.subterms)
  | e@(.call _ args) => e :: subtermsOf args
  | e@(.chain steps) => e :: subtermsOf steps
  | e@(.conditional c t f) => e :: (c.subterms ++ t.subterms ++ subtermsOfOption f)
  | e@(.assignment _ target value) => e :: (target.subterms ++ value.subterms)
  | e@(.unary _ operand) => e :: operand.subterms
  | e@(.binary _ left right) => e :: (left.subterms ++ right.subterms)

def subtermsOf : List Expr → List Expr
  | [] => []
  | e :: rest => e.subterms ++ subtermsOf rest

def subtermsOfOption : Option Expr → List Expr
  | none => []
  | some e => e.subterms

end

/-! ## Size -/

mutual

/-- A measure of expressions. A step alone counts as much as the path of it, so that a path can be
taken apart; a path counts one more than its steps. -/
def size : Expr → Nat
  | .literal _ => 1
  | .key _ => 1
  | .index target position => target.size + position.size + 1
  | .call _ args => sizeOfSteps args + 1
  | .chain steps => sizeOfSteps steps + 1
  | .conditional c t f => c.size + t.size + sizeOfOption f + 1
  | .assignment _ target value => target.size + value.size + 1
  | .unary _ operand => operand.size + 1
  | .binary _ left right => left.size + right.size + 1

def sizeOfSteps : List Expr → Nat
  | [] => 0
  | e :: rest => e.size + sizeOfSteps rest

def sizeOfOption : Option Expr → Nat
  | none => 0
  | some e => e.size

end

theorem size_pos (e : Expr) : 0 < e.size := by
  cases e <;> simp [size]

end Expr

end Rowlang
