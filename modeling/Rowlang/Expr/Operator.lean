import Rowlang.Value.Order

/-!
# Operators

* `BinaryOperator`, `UnaryOperator`, `AssignOperator` : the operators and their symbols;
* `BinaryOperator.apply` : the value of an operator on two values.
-/

namespace Rowlang

/-- The operators between two operands. -/
inductive BinaryOperator where
  | equal | notEqual | less | greater | lessEqual | greaterEqual
  | add | subtract | multiply | divide | remainder
  | and | or
deriving DecidableEq, Repr

namespace BinaryOperator

def all : List BinaryOperator :=
  [.equal, .notEqual, .less, .greater, .lessEqual, .greaterEqual, .add, .subtract, .multiply,
    .divide, .remainder, .and, .or]

def symbol : BinaryOperator → String
  | .equal => "=="
  | .notEqual => "!="
  | .less => "<"
  | .greater => ">"
  | .lessEqual => "<="
  | .greaterEqual => ">="
  | .add => "+"
  | .subtract => "-"
  | .multiply => "*"
  | .divide => "/"
  | .remainder => "%"
  | .and => "&&"
  | .or => "||"

def ofSymbol? (s : String) : Option BinaryOperator := all.find? (·.symbol == s)

theorem ofSymbol?_symbol (op : BinaryOperator) : ofSymbol? op.symbol = some op := by
  cases op <;> decide

/-- Whether an operator compares its operands. -/
def isComparison : BinaryOperator → Bool
  | .equal | .notEqual | .less | .greater | .lessEqual | .greaterEqual => true
  | _ => false

/-- Whether a comparison holds for operands in the given order. -/
def holds (op : BinaryOperator) (o : Ordering) : Bool :=
  match op with
  | .equal => o == .eq
  | .notEqual => o != .eq
  | .less => o == .lt
  | .greater => o == .gt
  | .lessEqual => o != .gt
  | _ => o != .lt

/-- The value of an operator on two numbers; none for an operator that is not arithmetic. -/
def onNumbers? (op : BinaryOperator) (a b : Number) : Option Number :=
  match op with
  | .add => some (a.add b)
  | .subtract => some (a.sub b)
  | .multiply => some (a.mul b)
  | .divide => some (a.div b)
  | .remainder => some (a.rem b)
  | _ => none

/-- The value of an operator. A sum of other values than numbers joins their texts; other arithmetic
on them is null. -/
def apply (op : BinaryOperator) (a b : Value) : Value :=
  if op.isComparison then .boolean (op.holds (a.compare b))
  else
    match op, a, b with
    | .and, a, b => .boolean (a.isTruthy && b.isTruthy)
    | .or, a, b => .boolean (a.isTruthy || b.isTruthy)
    | op, .number x, .number y => ((op.onNumbers? x y).map .number).getD .null
    | .add, a, b => .text (a.render ++ b.render)
    | _, _, _ => .null

end BinaryOperator

/-- The operators before an operand. -/
inductive UnaryOperator where
  | negate
  | not
deriving DecidableEq, Repr

namespace UnaryOperator

def symbol : UnaryOperator → String
  | .negate => "-"
  | .not => "!"

def ofSymbol? (s : String) : Option UnaryOperator := [negate, not].find? (·.symbol == s)

/-- The value of an operator. Only a number has an opposite. -/
def apply (op : UnaryOperator) (v : Value) : Value :=
  match op, v with
  | .negate, .number n => .number n.neg
  | .negate, _ => .null
  | .not, v => .boolean !v.isTruthy

end UnaryOperator

/-- The operators of an assignment. -/
inductive AssignOperator where
  | assign
  /-- adds to what the variable holds -/
  | addAssign
deriving DecidableEq, Repr

namespace AssignOperator

def symbol : AssignOperator → String
  | .assign => "="
  | .addAssign => "+="

def ofSymbol? (s : String) : Option AssignOperator := [assign, addAssign].find? (·.symbol == s)

/-- The value that a variable has after an assignment, if it held `old` before. -/
def combine (op : AssignOperator) (old : Option Value) (v : Value) : Value :=
  match op, old with
  | .addAssign, some old => if old.isNull then v else BinaryOperator.add.apply old v
  | _, _ => v

end AssignOperator

end Rowlang
