/-!
# Errors of evaluation

* `EvalError` : why a function failed, or why a value could not be written;
* `EvalError.message` : the wording.

Reading an expression does not fail: where a call fails, the value is null.
-/

namespace Rowlang

/-- Why a function failed, or why a value could not be written. -/
inductive EvalError where
  | typeMismatch (message : String)
  | unknownFunction (name : String) (arity : Nat)
  /-- a function ran and failed -/
  | functionFailed (name message : String)
  /-- the expression is neither a key nor a path that ends in one -/
  | unsupportedTarget (target : String)
  /-- what the key would be written into is no object -/
  | notAnObject (path found : String)
  | readOnly (typeName key : String)
  /-- the value is none of those that the attribute may have -/
  | invalidChoice (key value : String) (choices : List String)
deriving DecidableEq, Repr

namespace EvalError

def message : EvalError → String
  | .typeMismatch message => "type error: " ++ message
  | .unknownFunction name arity =>
    "no function '" ++ name ++ "' taking " ++ toString arity ++ " argument(s)"
  | .functionFailed name message => name ++ ": " ++ message
  | .unsupportedTarget target => "cannot set a value through '" ++ target ++ "'"
  | .notAnObject path found => "'" ++ path ++ "' is " ++ found ++ ", not an object"
  | .readOnly typeName key => typeName ++ "." ++ key ++ " is read-only"
  | .invalidChoice key value choices =>
    "'" ++ value ++ "' is not a valid " ++ key ++ ", expected one of: "
      ++ String.intercalate ", " choices

end EvalError

end Rowlang
