import CallGuard.Resolve

/-!
# Faults

Everything that can go wrong once a type is declared: a type that does not resolve, a misuse of the
library, a value that a contract refuses, and a failure inside a function.
-/

namespace CallGuard

/-- A use of the library that no value could make right. -/
inductive Misuse where
  | noReturnMatched
  | notInvokable (typeName : String)
  | arity (function : String) (expected : Count) (given : Nat)
  | alreadyGuarded (cls : String)
  deriving DecidableEq

/-- The message of a misuse. -/
def Misuse.message : Misuse → String
  | noReturnMatched => "NoReturn is a declaration marker and cannot be used as a match target"
  | notInvokable typeName =>
    "cannot wrap a value of type '" ++ typeName ++ "': target is not invokable"
  | arity function expected given =>
    "function '" ++ function ++ "' takes " ++ expected.text ++ " positional argument(s) but "
      ++ toString given ++ " were given"
  | alreadyGuarded cls => "class '" ++ cls ++ "' already has contracts applied"

/-- Why an operation ended without a value. -/
inductive Fault where
  | resolve (e : ResolveError)
  | misuse (m : Misuse)
  /-- An argument that the contract refuses. -/
  | argument (function parameter expected actual : String)
  /-- A result that the contract refuses. -/
  | result (function expected : String)
  /-- A failure that a function body raised. -/
  | raised (text : String)
  /-- Calls were nested deeper than the evaluation allows. -/
  | exhausted
  deriving DecidableEq

/-- The message of a fault. -/
def Fault.message : Fault → String
  | resolve e => e.message
  | misuse m => m.message
  | argument function parameter expected actual =>
    "function '" ++ function ++ "' argument '" ++ parameter ++ "' must be type '" ++ expected
      ++ "', got '" ++ actual ++ "'"
  | result function expected => "function '" ++ function ++ "' must return type '" ++ expected ++ "'"
  | raised text => text
  | exhausted => "calls nested too deeply"

/-- Refuses a number of arguments that `expected` does not admit. -/
def Count.check (expected : Count) (function : String) (given : Nat) : Except Misuse Unit :=
  if expected.admits given then .ok () else .error (.arity function expected given)

end CallGuard
