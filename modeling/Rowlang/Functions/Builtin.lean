import Rowlang.Functions.Format
import Rowlang.Functions.Text
import Rowlang.Value.Order

/-!
# The built-in functions

Most functions work on a subject, which is the value that the function is called on or its first
argument: `name.upper()` and `upper(name)`.

* `SubjectKind` : the kinds of subjects;
* `chooseSubject` : the subject of a call and its other arguments;
* `builtins` : the provider of all built-in functions.
-/

namespace Rowlang

/-- The kind of value that a function works on. -/
inductive SubjectKind where
  | text
  | number
  | any
deriving DecidableEq, Repr

def SubjectKind.has : SubjectKind → Value → Bool
  | .text, .text _ => true
  | .number, .number _ => true
  | .any, _ => true
  | _, _ => false

/-- The subject of a call and its other arguments, of which the function takes at most `most`: the
value called on, unless there are more arguments than that, or it is not of the right kind and there
is an argument. -/
def chooseSubject (most : Nat) (kind : SubjectKind) (target : Value) (args : List Value) :
    Value × List Value :=
  match args with
  | first :: rest =>
    if most < args.length || !kind.has target then (first, rest) else (target, args)
  | [] => (target, [])

namespace Functions

/-- A built-in function of a subject: it takes from `least` to `most` arguments besides. -/
structure SubjectFunction where
  name : String
  least : Nat
  most : Nat
  kind : SubjectKind
  run : Builtin

/-- A function whose failures are those of the function `name`. -/
def named (name : String) (run : Builtin) : Function := fun target args =>
  (run target args).mapError (.functionFailed name)

/-- The function as it is called, with its subject before the point or among its arguments. -/
def SubjectFunction.toFunction (f : SubjectFunction) : Function :=
  named f.name fun target args =>
    let (subject, rest) := chooseSubject f.most f.kind target args
    f.run subject rest

def subjectFunctions : List SubjectFunction := [
  ⟨"abs", 0, 0, .number, abs⟩,
  ⟨"ceil", 0, 0, .number, ceil⟩,
  ⟨"floor", 0, 0, .number, floor⟩,
  ⟨"round", 0, 1, .number, round⟩,
  ⟨"pow", 1, 1, .number, pow⟩,
  ⟨"substring", 1, 2, .text, substring⟩,
  ⟨"indexOf", 1, 1, .text, indexOf⟩,
  ⟨"split", 1, 1, .text, split⟩,
  ⟨"pad", 1, 2, .text, pad⟩,
  ⟨"wrap", 1, 1, .text, wrap⟩,
  ⟨"startsWith", 1, 1, .text, startsWith⟩,
  ⟨"endsWith", 1, 1, .text, endsWith⟩,
  ⟨"upper", 0, 0, .text, upper⟩,
  ⟨"lower", 0, 0, .text, lower⟩,
  ⟨"trim", 0, 0, .text, trim⟩,
  ⟨"date", 0, 1, .text, date⟩,
  ⟨"length", 0, 0, .any, length⟩,
  ⟨"format", 1, 1, .any, format⟩,
  ⟨"isNull", 0, 0, .any, fun subject _ => .ok (.boolean subject.isNull)⟩,
  ⟨"roman", 0, 0, .any, roman⟩]

/-- The least of some values, the first of several. -/
def least? : List Value → Option Value
  | [] => none
  | v :: rest => some (rest.foldl (fun a b => if a.compare b == .gt then b else a) v)

/-- The greatest of some values, the last of several. -/
def greatest? : List Value → Option Value
  | [] => none
  | v :: rest => some (rest.foldl (fun a b => if a.compare b == .gt then a else b) v)

/-- The values among which the least or the greatest is sought: the arguments that are not null. A
number that is called on takes part if there is a single argument. -/
def candidates (target : Value) (args : List Value) : List Value :=
  let own := match args, target with
    | [_], .number n => [.number n]
    | _, _ => []
  args.filter (!·.isNull) ++ own

def max : Builtin := fun target args => .ok ((greatest? (candidates target args)).getD .null)

def min : Builtin := fun target args => .ok ((least? (candidates target args)).getD .null)

def list : Builtin := fun _ args => .ok (.ofList args)

/-- Adds a function of a subject, for all numbers of arguments with the subject before the point or
among them. -/
def addSubjectFunction (p : FunctionProvider) (f : SubjectFunction) : FunctionProvider :=
  (List.range (f.most + 2 - f.least)).foldl
    (fun p i => p.function f.name (f.least + i) f.toFunction) p

end Functions

def builtins : FunctionProvider :=
  ((Functions.subjectFunctions.foldl Functions.addSubjectFunction (.empty "builtin")).varargs "max"
    (Functions.named "max" Functions.max)).varargs "min" (Functions.named "min" Functions.min)
    |>.varargs "list" (Functions.named "list" Functions.list)

end Rowlang
