import CallGuard.World

/-!
# Calls

`Callable.callWith` calls a callable when the behaviour of function bodies is given from outside.
Everything that surrounds a body is decided here: the count of arguments, defaults, receivers, and
contracts (`Contract.enforce`). What the bodies themselves do plays no part in it.
-/

namespace CallGuard

/-- What bodies do: the result of a body that sees the given argument lists, its own first. -/
abbrev Behaviour := List (List Value) → Body → Run Value

namespace Contract

/-- Checks arguments against the descriptors of the parameters in order, and ends at the first that
is refused. Arguments past the parameters are not checked. -/
def checkArguments (rule : TypeRefRule) (function : String) :
    List ParamContract → List Value → Run Unit
  | p :: ps, arg :: args => do
    if ← Run.accepts rule p.descriptor arg then checkArguments rule function ps args
    else
      Run.record fun _ => [.argumentRefused function p.name p.descriptor.text arg.typeName]
      throw (.argument function p.name p.descriptor.text arg.typeName)
  | _, _ => return ()

/-- The contract under which a result is handed on, if it is a callable that is to be guarded. -/
def returnedContract? (k : Contract) (result : Value) : Option (Callable × Contract) :=
  match result with
  | .callable c => if k.guardsReturned then (k.returned c.signature).map fun n => (c, n) else none
  | _ => none

/-- Hands a result on: a callable returned under a `Callable[...]` declaration is put under a new
contract, and any other result is checked. -/
def checkResult (k : Contract) (rule : TypeRefRule) (function : String) (result : Value) :
    Run Value :=
  match k.returnedContract? result with
  | some (c, nested) => do
    Run.record fun _ => [.derived function c.name nested.params.length]
    return .callable (← Run.guarded c nested rule)
  | none => do
    if ← Run.accepts rule k.result result then return result
    else
      Run.record fun _ => [.resultRefused function k.result.text result.typeName]
      throw (.result function k.result.text)

/-- A call of `target` under a contract: the count of arguments, then each argument, then the call
with the arguments as they are, then the result. -/
def enforce (k : Contract) (rule : TypeRefRule) (function : String)
    (target : List Value → Run Value) (args : List Value) : Run Value := do
  Run.ofMisuse (k.arity.check function args.length)
  checkArguments rule function k.params args
  let result ← target args
  k.checkResult rule function result

end Contract

/-- Calls a callable, where `run` is what function bodies do. -/
def Callable.callWith (run : Behaviour) : Callable → List Value → Run Value
  | .function _ name signature frames body, args => do
    Run.ofMisuse (signature.arity.check name args.length)
    run ((args ++ signature.defaultsAfter args.length) :: frames) body
  | .bound _ receiver method, args => method.callWith run (receiver :: args)
  | .guarded _ target contract rule, args =>
    contract.enforce rule target.name (fun given => target.callWith run given) args

end CallGuard
