import CallGuard.Class

/-!
# Evaluation of bodies

`Body.eval` evaluates a body when the behaviour of the bodies it calls is given. `behaviour` ties
the knot: it bounds how deeply calls may nest, and running out of that bound is a fault of its own.
-/

namespace CallGuard

namespace Body

/-- The integer that a value counts as in arithmetic. -/
def number (v : Value) : Int64 := v.int?.getD 0

/-- Calls a value. -/
def callValue (run : Behaviour) (target : Value) (args : List Value) : Run Value :=
  match target with
  | .callable c => c.callWith run args
  | _ => throw (.raised "not callable")

/-- Makes an object of a type value. -/
def instantiateValue (run : Behaviour) (target : Value) (args : List Value) : Run Value :=
  match target with
  | .type t => t.instantiateWith run args
  | _ => throw (.raised "not a type")

variable (run : Behaviour) (frames : List (List Value))

mutual
/-- The value of a body that sees the argument lists `frames`, its own first. Parts are evaluated
from left to right, and the first fault is the result. -/
def eval : Body → Run Value
  | const v => return v
  | function name signature body => do
    return .callable (← Run.newFunction name (← evalSignature signature) frames body)
  | arg depth index => return ((frames.getD depth [])[index]?).getD .none
  | args => return .list (frames.getD 0 [])
  | list items => return .list (← evalAll items)
  | tuple items => return .tuple (← evalAll items)
  | dict entries => return .dict (← evalEntries entries)
  | seq parts => return (← evalAll parts).getLast?.getD .none
  | add a b => return .int (number (← eval a) + number (← eval b))
  | mul a b => return .int (number (← eval a) * number (← eval b))
  | concat parts => return .str (String.join ((← evalAll parts).filterMap Value.str?))
  | eq a b => return .bool ((← eval a) == (← eval b))
  | ite cond yes no => do
    match ← eval cond with
    | .bool true => eval yes
    | _ => eval no
  | typeName a => return .str (← eval a).typeName
  | raise text => throw (.raised text)
  | get target field => do
    match ← eval target with
    | .object id _ => return (← Run.getField id field).getD .none
    | _ => return .none
  | set target field value => do
    let o ← eval target
    let v ← eval value
    match o with
    | .object id _ => Run.setField id field v
    | _ => pure ()
    return .none
  | member target name => do
    match ← (← eval target).member name with
    | some c => return .callable c
    | none => return .none
  | call target given => do
    let f ← eval target
    callValue run f (← evalAll given)
  | new target given => do
    let t ← eval target
    instantiateValue run t (← evalAll given)

/-- The values of bodies from left to right. -/
def evalAll : List Body → Run (List Value)
  | [] => return []
  | b :: bs => return (← eval b) :: (← evalAll bs)

/-- The values of entries, each key before its value. -/
def evalEntries : List (Body × Body) → Run (List (Value × Value))
  | [] => return []
  | (k, b) :: rest => return (← eval k, ← eval b) :: (← evalEntries rest)

/-- A signature with its defaults evaluated. -/
def evalSignature : Signature Body → Run (Signature Value)
  | ⟨params, result⟩ => return ⟨← evalParams params, result⟩

/-- Parameters with their defaults evaluated. -/
def evalParams : List (Param Body) → Run (List (Param Value))
  | [] => return []
  | p :: ps => return (← evalParam p) :: (← evalParams ps)

/-- A parameter with its default evaluated. -/
def evalParam : Param Body → Run (Param Value)
  | ⟨name, variadic, default, declared⟩ =>
    return ⟨name, variadic, ← evalDefault default, declared⟩

/-- A default, evaluated. -/
def evalDefault : Option Body → Run (Option Value)
  | some b => return some (← eval b)
  | none => return none
end

end Body

/-- What bodies do when calls nest at most `depth` levels. -/
def behaviour : (depth : Nat) → Behaviour
  | 0, _, _ => throw .exhausted
  | depth + 1, frames, body => body.eval (behaviour depth) frames

/-- How deeply calls may nest. -/
def callDepth : Nat := 1000000

/-- Calls a callable. -/
def Callable.call (c : Callable) (args : List Value) : Run Value :=
  c.callWith (behaviour callDepth) args

/-- A new object of a type. -/
def Ty.instantiate (t : Ty) (args : List Value) : Run Value :=
  t.instantiateWith (behaviour callDepth) args

end CallGuard
