import Rowlang.Functions.Builtin
import Rowlang.Expr.Basic

/-!
# Aggregates

The functions over the rows of a list. Each is given the rows and a function that evaluates an
expression on a row.

* `Aggregate`, `Aggregate.ofName?` : the aggregates by their names, without regard to case;
* `Expr.aggregate?`, `referencesAggregate` : the aggregates that an expression names;
* `total`, `totalStrict`, `firstWhere`, `rowsWhere`, `distinctCount` : sums, searches and counts;
* `classes` : the rows with equivalent values, in the order of their first appearance;
* `Aggregate.overRows` : the value of an aggregate that has no other arguments.
-/

namespace Rowlang
open Rowlang.Text

/-! ## Names -/

/-- The functions over the rows of a list. -/
inductive Aggregate where
  | total | totalStrict
  | count | countDeep | countUnique
  | average | averageStrict
  | min | max
  | get | filter
  | group
  | join
  | listOf
deriving DecidableEq, Repr

namespace Aggregate

def all : List Aggregate :=
  [.total, .totalStrict, .count, .countDeep, .countUnique, .average, .averageStrict, .min, .max,
    .get, .filter, .group, .join, .listOf]

def name : Aggregate → String
  | .total => "total"
  | .totalStrict => "totalStrict"
  | .count => "count"
  | .countDeep => "countDeep"
  | .countUnique => "countUnique"
  | .average => "average"
  | .averageStrict => "averageStrict"
  | .min => "min"
  | .max => "max"
  | .get => "get"
  | .filter => "filter"
  | .group => "group"
  | .join => "join"
  | .listOf => "listOf"

def ofName? (s : String) : Option Aggregate := all.find? fun a => equalIgnoringCase a.name s

end Aggregate

namespace Expr

def aggregate? : Expr → Option Aggregate
  | .key name => Aggregate.ofName? name
  | .call name _ => Aggregate.ofName? name
  | _ => none

end Expr

def referencesAggregate (steps : List Expr) : Bool :=
  (Expr.subtermsOf steps).any fun e => e.aggregate?.isSome

/-! ## Sums, searches and counts -/

/-- The sum of the values that read as numbers. -/
def total (values : List Value) : Number :=
  (values.filterMap Value.toNumber?).foldl Number.add .zero

/-- What is left of a list if a value that is equivalent to the last one left before it is dropped. -/
def withoutRepeats (kept : Value) : List Value → List Value
  | [] => []
  | v :: rest => if v.isEquivalent kept then withoutRepeats kept rest else v :: withoutRepeats v rest

def distinctCount (values : List Value) : Nat :=
  match values.mergeSort fun a b => a.compare b != .gt with
  | [] => 0
  | v :: rest => (withoutRepeats v rest).length + 1

section

variable {m : Type → Type} [Monad m]

/-- The sum of the values of the rows, from `sum` on; none as soon as one does not read as a
number. -/
def totalStrict (f : Value → m Value) (sum : Number) : List Value → m (Option Number)
  | [] => pure (some sum)
  | row :: rest => do
    match (← f row).toNumber? with
    | some n => totalStrict f (sum.add n) rest
    | none => pure none

def firstWhere (f : Value → m Value) : List Value → m Value
  | [] => pure .null
  | row :: rest => do
    if (← f row).isTruthy then pure row else firstWhere f rest

def rowsWhere (f : Value → m Value) : List Value → m (List Value)
  | [] => pure []
  | row :: rest => do
    let v ← f row
    let kept ← rowsWhere f rest
    pure (if v.isTruthy then row :: kept else kept)

end

/-! ## Groups -/

/-- Adds a row to the group with an equivalent value, or as a new group behind all. -/
def addToClass (value row : Value) : List (Value × List Value) → List (Value × List Value)
  | [] => [(value, [row])]
  | (v, rows) :: rest =>
    if v.isEquivalent value then (v, rows ++ [row]) :: rest
    else (v, rows) :: addToClass value row rest

/-- The rows with equivalent values, each class in the order of the rows, and the classes in the
order of their first appearance. -/
def classes (values rows : List Value) : List (List Value) :=
  ((values.zip rows).foldl (fun acc e => addToClass e.1 e.2 acc) []).map Prod.snd

/-- A group marked by its key, unless it is grouped further and has a mark of its own. -/
def markGroup (key : String) : Value → Value
  | .list items none => .list items (some key)
  | v => v

/-! ## Values over rows -/

/-- The value of an aggregate over rows. Those that need more than the rows have none here. -/
def Aggregate.overRows {m : Type → Type} [Monad m] (a : Aggregate) (rows : List Value)
    (f : Value → m Value) : m Value :=
  let mean (sum : Number) : Value := .number (sum.div (.ofNat rows.length))
  match a with
  | .total => return .number (Rowlang.total (← rows.mapM f))
  | .totalStrict => return ((← Rowlang.totalStrict f .zero rows).map .number).getD .null
  | .count | .countDeep => return .ofNat ((← rows.mapM f).countP Value.isTruthy)
  | .countUnique => return .ofNat (distinctCount (← rows.mapM f))
  | .average =>
    if rows.isEmpty then return .null else return mean (Rowlang.total (← rows.mapM f))
  | .averageStrict =>
    if rows.isEmpty then return .null
    else return ((← Rowlang.totalStrict f .zero rows).map mean).getD .null
  | .min => return (Functions.least? ((← rows.mapM f).filter (!·.isNull))).getD .null
  | .max => return (Functions.greatest? ((← rows.mapM f).filter (!·.isNull))).getD .null
  | .get => firstWhere f rows
  | .filter => return .ofList (← rowsWhere f rows)
  | .listOf => return .ofList (← rows.mapM f)
  | .group | .join => return .null

end Rowlang
