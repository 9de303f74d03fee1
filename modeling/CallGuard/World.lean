import CallGuard.Event
import CallGuard.Fault
import CallGuard.Matching
import CallGuard.OrderedMap
import CallGuard.Value.Basic

/-!
# The world in which calls run

A `World` holds what calls can change or look up: the fields of objects, the methods of sealed
classes, the next unused identity, and the recorded events. A `Run` is a computation on the world
that may end in a fault; the changes made before the fault remain.
-/

namespace CallGuard

/-- What a method is given as its first argument. -/
inductive MethodKind where
  /-- The object it is reached through. -/
  | onObject
  /-- The class it is reached through. -/
  | onClass
  /-- Nothing. -/
  | static
  deriving DecidableEq

/-- A method of a class. -/
structure Method where
  kind : MethodKind
  callable : Callable

/-- The state that calls share. Fields and methods are listed by the identity of their object or
class. -/
structure World where
  fresh : Nat
  fields : IdMap (NameMap Value)
  methods : IdMap (NameMap Method)
  recording : Bool
  events : Array Event

namespace World

/-- The world before anything was made. -/
def start (recording : Bool) : World :=
  { fresh := 0, fields := .empty, methods := .empty, recording, events := #[] }

/-- The fields of the object `id`, none before the first is set. -/
def fieldsOf (w : World) (id : Nat) : NameMap Value :=
  (w.fields.get? id).getD .empty

/-- The methods of the sealed class `id`. -/
def methodsOf (w : World) (id : Nat) : NameMap Method :=
  (w.methods.get? id).getD .empty

end World

/-- A computation on the world that yields a value or a fault. -/
abbrev Run := ExceptT Fault (StateM World)

namespace Run

/-- An identity that nothing has yet. -/
def newId : Run Nat :=
  modifyGet fun w => (w.fresh, { w with fresh := w.fresh + 1 })

/-- Records events, if anyone asked for them. -/
def record (events : Unit → List Event) : Run Unit :=
  modify fun w => if w.recording then { w with events := w.events ++ events () } else w

/-- Ends with the misuse that `x` reports, if it reports one. -/
def ofMisuse {α : Type} : Except Misuse α → Run α
  | .ok a => return a
  | .error m => throw (.misuse m)

/-- Ends with the error that `x` reports, if it reports one. -/
def ofResolve {α : Type} : Except ResolveError α → Run α
  | .ok a => return a
  | .error e => throw (.resolve e)

/-- Matches a value against a descriptor and records the decisions. -/
def accepts (rule : TypeRefRule) (d : Descriptor) (v : Value) : Run Bool := do
  record fun _ => d.decisions rule v
  ofMisuse (d.accepts rule v)

/-- A new object of a class, without fields. -/
def newObject (cls : Class) : Run Value :=
  return .object (← newId) cls

/-- A new function. -/
def newFunction (name : String) (signature : Signature Value) (frames : List (List Value))
    (body : Body) : Run Callable :=
  return .function (← newId) name signature frames body

/-- A new callable that puts `receiver` before the arguments of `method`. -/
def bind (receiver : Value) (method : Callable) : Run Callable :=
  return .bound (← newId) receiver method

/-- A new callable that holds the calls of `target` against a contract. -/
def guarded (target : Callable) (contract : Contract) (rule : TypeRefRule) : Run Callable := do
  record fun _ => [.guarding target.name contract.params.length contract.result.text]
  return .guarded (← newId) target contract rule

/-- The value of a field of the object `id`. -/
def getField (id : Nat) (field : String) : Run (Option Value) :=
  return ((← get).fieldsOf id).get? field

/-- Sets a field of the object `id`. -/
def setField (id : Nat) (field : String) (v : Value) : Run Unit :=
  modify fun w => { w with fields := w.fields.insert id ((w.fieldsOf id).insert field v) }

end Run

end CallGuard
