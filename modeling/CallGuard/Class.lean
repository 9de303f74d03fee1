import CallGuard.Call

/-!
# Classes

A class is put together as a `ClassDef`, which can still be put under contracts, and declared as a
type. A member is looked up in the class and then along its bases, and bound to the object or the
class through which it was reached.
-/

namespace CallGuard

/-- The name of the method that sets up new objects. -/
def initializerName : String := "__init__"

/-- A class that is not declared yet. -/
structure ClassDef where
  name : String
  base : Ty := .builtin .object
  methods : NameMap Method := .empty
  /-- Whether its methods were put under contracts. -/
  guarded : Bool := false

namespace ClassDef

/-- The definition with a method under the name of its callable, in place of any before it. -/
def addMethod (d : ClassDef) (kind : MethodKind) (c : Callable) : ClassDef :=
  { d with methods := d.methods.insert c.name ⟨kind, c⟩ }

/-- The definition with the method that sets up new objects. -/
def addInitializer (d : ClassDef) (c : Callable) : ClassDef :=
  { d with methods := d.methods.insert initializerName ⟨.onObject, c⟩ }

/-- Whether a method of this name is put under a contract. -/
def isExposed (name : String) : Bool :=
  !name.startsWith "__" || name == initializerName

/-- The names of methods that are put under contracts: of those that begin with two underscores,
only that of the initializer. -/
def Exposed (name : String) : Prop :=
  ['_', '_'] <+: name.toList → name = initializerName

theorem isExposed_iff {name : String} : isExposed name = true ↔ Exposed name := by
  rw [isExposed, Bool.or_eq_true, Bool.not_eq_true', beq_iff_eq,
    String.startsWith_string_eq_false_iff, Exposed]
  exact Decidable.imp_iff_not_or.symm

instance : DecidablePred Exposed := fun _ => decidable_of_iff _ isExposed_iff

/-- Puts each exposed method of a list under the contract of its signature, in order. -/
def guardMethods (s : Scope) (rule : TypeRefRule) (guardsReturned : Bool) :
    List (String × Method) → Run (List (String × Callable))
  | [] => return []
  | (name, m) :: rest => do
    if isExposed name then
      let contract ← Run.ofResolve (Contract.ofSignature s m.callable.signature)
      let c ← Run.guarded m.callable { contract with guardsReturned } rule
      return (name, c) :: (← guardMethods s rule guardsReturned rest)
    else guardMethods s rule guardsReturned rest

/-- The definition with the given callables in place of those of the same method names. -/
def replaceCallables (d : ClassDef) (callables : List (String × Callable)) : ClassDef :=
  { d with methods := d.methods.map fun name m =>
      match callables.lookup name with
      | some c => { m with callable := c }
      | none => m }

/-- A change to a definition, made while the world runs on. What was changed before a fault remains
changed, in the definition as in the world. -/
abbrev Change := ExceptT Fault (StateM (ClassDef × World))

namespace Change

/-- The definition as it stands. -/
def definition : Change ClassDef := return (← get).1

/-- Puts another definition in the place of the one that stands. -/
def amend (f : ClassDef → ClassDef) : Change Unit :=
  modify fun s => (f s.1, s.2)

/-- Runs a computation on the world, which leaves the definition alone. -/
def ofRun {α : Type} (x : Run α) : Change α :=
  ExceptT.mk fun s => let (r, w) := x.run.run s.2; pure (r, (s.1, w))

end Change

/-- Puts the exposed methods of a definition under contracts, and tells how many. It can be done
once, and every contract is made before the first method is replaced. -/
def applyContracts (s : Scope) (rule : TypeRefRule) (guardsReturned : Bool) : Change Nat := do
  let d ← Change.definition
  if d.guarded then throw (.misuse (.alreadyGuarded d.name))
  let callables ← Change.ofRun (guardMethods s rule guardsReturned d.methods.entries)
  Change.amend fun d => d.replaceCallables callables
  Change.amend fun d => { d with guarded := true }
  Change.ofRun (Run.record fun _ => [.applied d.name callables.length])
  return callables.length

/-- Makes a type of a definition, which can no longer be changed. -/
def declare (d : ClassDef) : Run Ty := do
  let id ← Run.newId
  modify fun w => { w with methods := w.methods.insert id d.methods }
  return .declared id d.name d.base

end ClassDef

/-- The method of this name that a type has, its own or that of the nearest base with one. -/
def Ty.method? (w : World) : Ty → String → Option Method
  | .builtin _, _ => none
  | .declared id _ base, name =>
    match (w.methodsOf id).get? name with
    | some m => some m
    | none => base.method? w name

/-- The method that a definition has, its own or that of the nearest base with one. -/
def ClassDef.method? (w : World) (d : ClassDef) (name : String) : Option Method :=
  match d.methods.get? name with
  | some m => some m
  | none => d.base.method? w name

/-- A method as a callable, reached through the class `cls` and, if there is one, an object of
it. -/
def Method.access (m : Method) (cls : Ty) (object : Option Value) : Run Callable :=
  match m.kind, object with
  | .onObject, some o => Run.bind o m.callable
  | .onClass, _ => Run.bind (.type cls) m.callable
  | .onObject, none => return m.callable
  | .static, _ => return m.callable

/-- Looks up the method of this name that a type has. -/
def Run.method? (t : Ty) (name : String) : Run (Option Method) :=
  return t.method? (← get) name

/-- The member of an object or a type under this name. Other values have none. -/
def Value.member (v : Value) (name : String) : Run (Option Callable) := do
  match v with
  | .object _ cls =>
    match ← Run.method? cls.ty name with
    | some m => return some (← m.access cls.ty (some v))
    | .none => return .none
  | .type t =>
    match ← Run.method? t name with
    | some m => return some (← m.access t .none)
    | .none => return .none
  | _ => return .none

/-- A new object of a class, set up by its initializer. Without one, no arguments are taken. -/
def Ty.instantiateWith (run : Behaviour) (t : Ty) (args : List Value) : Run Value :=
  match t with
  | .builtin b => throw (.misuse (.notInvokable ("Type[" ++ b.name ++ "]")))
  | .declared id name base => do
    let o ← Run.newObject ⟨id, name, base⟩
    match ← o.member initializerName with
    | some init => let _ ← init.callWith run args
    | none =>
      Run.ofMisuse
        ((Count.exactly 0).check (name ++ "." ++ initializerName) args.length)
    return o

end CallGuard
