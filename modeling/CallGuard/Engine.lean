import CallGuard.Config
import CallGuard.Evaluation

/-!
# The engine

An engine is a configuration and a scope: what is needed to make contracts from declarations and to
put callables and classes under them.
-/

namespace CallGuard

/-- A configuration and the names in scope. -/
structure Engine where
  config : Config := {}
  scope : Scope := .builtins

namespace Engine

/-- The contract of the declared types of a signature. -/
def contractFor {α : Type} (e : Engine) (signature : Signature α) :
    Except ResolveError Contract := do
  let contract ← Contract.ofSignature e.scope signature
  return { contract with guardsReturned := e.config.guardsReturned }

/-- Puts a value under a contract. It must be a callable. -/
def wrapWith (e : Engine) (target : Value) (contract : Contract) : Run Callable :=
  match target with
  | .callable c => Run.guarded c contract e.config.rule
  | _ => throw (.misuse (.notInvokable target.typeName))

/-- Puts a value under the contract of its own signature. It must be a callable. -/
def wrap (e : Engine) (target : Value) : Run Callable :=
  match target with
  | .callable c => do
    let contract ← Run.ofResolve (e.contractFor c.signature)
    Run.guarded c contract e.config.rule
  | _ => throw (.misuse (.notInvokable target.typeName))

/-- Puts the exposed methods of a class under the contracts of their signatures. -/
def applyToClass (e : Engine) : ClassDef.Change Nat :=
  ClassDef.applyContracts e.scope e.config.rule e.config.guardsReturned

/-- Matches a value against a descriptor. -/
def accepts (e : Engine) (d : Descriptor) (v : Value) : Run Bool :=
  Run.accepts e.config.rule d v

end Engine

end CallGuard
