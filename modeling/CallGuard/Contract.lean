import CallGuard.Descriptor.Basic
import CallGuard.Resolve
import CallGuard.Signature

/-!
# Contracts

A contract holds a descriptor for each positional parameter of a callable and one for its result. It
is made from the declared types of a signature, or derived for a callable that another one returned
under a `Callable[...]` declaration. Both keep the argument counts of the signature.
-/

namespace CallGuard

/-- What a contract says about one positional parameter. -/
structure ParamContract where
  name : String
  descriptor : Descriptor
  hasDefault : Bool
  deriving DecidableEq

/-- What is held against the calls of a callable. -/
structure Contract where
  params : List ParamContract
  result : Descriptor
  variadic : Bool := false
  /-- Whether callables returned under a `Callable[...]` declaration are guarded in turn. -/
  guardsReturned : Bool := true
  deriving DecidableEq

namespace Contract

/-- How many parameters the caller must supply. -/
def required (k : Contract) : Nat :=
  k.params.countP fun p => !p.hasDefault

/-- How many arguments the contract lets through. -/
def arity (k : Contract) : Count :=
  .ofPositions k.required k.params.length k.variadic

/-- The descriptor of a declared type; a type that is not declared admits every value. -/
def declaredDescriptor (s : Scope) : Option TypeExpr → Except ResolveError Descriptor
  | some e => e.resolve s
  | none => .ok .any

/-- What a contract says about a parameter of a declared type. -/
def ofParam {α : Type} (s : Scope) (p : Param α) : Except ResolveError ParamContract := do
  return ⟨p.name, ← declaredDescriptor s p.declared, p.default.isSome⟩

/-- The contract of the declared types of a signature, with the parameters in order and the result
last. -/
def ofSignature {α : Type} (s : Scope) (sig : Signature α) : Except ResolveError Contract := do
  let params ← sig.positional.mapM (ofParam s)
  return { params, result := ← declaredDescriptor s sig.result, variadic := sig.hasVariadic }

/-- The contract for a callable that is returned under a `Callable[...]` declaration: its own
parameters take the declared descriptors by position, and those past them take every value. -/
def returned {α : Type} (k : Contract) (sig : Signature α) : Option Contract :=
  match k.result with
  | .callable ds result =>
    some
      { params := sig.positional.mapIdx fun i p => ⟨p.name, ds.getD i .any, p.default.isSome⟩
        result
        variadic := sig.hasVariadic
        guardsReturned := k.guardsReturned }
  | _ => none

end Contract

end CallGuard
