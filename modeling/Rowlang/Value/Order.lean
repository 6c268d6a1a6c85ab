import Rowlang.Value.Basic

/-!
# The order of values

* `Value.compare` : the order behind comparisons, sorting, and the least and greatest value;
* `Value.equal` : the stricter equality of values of one kind.

Values of different kinds are ordered by kind: null, booleans, numbers, dates, texts, lists,
objects. A text that reads as a number takes part as that number.
-/

namespace Rowlang.Value

def rank : Value → Nat
  | .null => 0
  | .boolean _ => 1
  | .number _ => 2
  | .date _ => 3
  | .text _ => 4
  | .list .. => 5
  | .object _ => 6

/-- The number that a value is ordered by: numbers, and texts that read as numbers. -/
def numericKey? : Value → Option Number
  | .number n => some n
  | .text s => Number.ofText? s
  | _ => none

/-- The place of a value in the order of kinds, in which a text that reads as a number has the place
of numbers. -/
def orderRank (v : Value) : Nat := if v.numericKey?.isSome then 2 else v.rank

/-- The order of two values that are not both null, booleans, dates, lists or objects. -/
def comparePlain (a b : Value) : Ordering :=
  match a.numericKey?, b.numericKey? with
  | some x, some y => x.compare y
  | none, none =>
    match a, b with
    | .text s, .text t => Ord.compare s t
    | _, _ => Ord.compare a.orderRank b.orderRank
  | _, _ => Ord.compare a.orderRank b.orderRank

mutual

/-- The order of values. -/
def compare : Value → Value → Ordering
  | .null, .null => .eq
  | .boolean x, .boolean y => Ord.compare x y
  | .date x, .date y => x.compare y
  | .list xs _, .list ys _ => compareItems xs ys
  | .object x, .object y => Ord.compare x.id y.id
  | a, b => comparePlain a b

/-- The order of lists: the first items that differ decide, and then the lengths. -/
def compareItems : List Value → List Value → Ordering
  | [], [] => .eq
  | [], _ :: _ => .lt
  | _ :: _, [] => .gt
  | x :: xs, y :: ys => (x.compare y).then (compareItems xs ys)

end

mutual

/-- Equality of values of one kind. Lists must have been grouped alike, too. -/
def equal : Value → Value → Bool
  | .null, .null => true
  | .boolean x, .boolean y => x == y
  | .number x, .number y => x.compare y == .eq
  | .text s, .text t => s == t
  | .date x, .date y => x.compare y == .eq
  | .list xs j, .list ys k => equalItems xs ys && j == k
  | .object x, .object y => x.id == y.id
  | _, _ => false

def equalItems : List Value → List Value → Bool
  | [], [] => true
  | x :: xs, y :: ys => x.equal y && equalItems xs ys
  | _, _ => false

end

def isEquivalent (a b : Value) : Bool := a.compare b == .eq

end Rowlang.Value
