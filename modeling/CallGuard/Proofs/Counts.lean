import CallGuard.Proofs.Declarations
import CallGuard.Proofs.Enforcement

/-!
# Argument counts under contracts

A contract that is made from a signature, or derived for a callable that was returned, has the
parameters of the signature with their names and default flags, and takes what is left over if the
signature does (`Contract.Follows`). So it counts arguments as the signature does. A function under any
number of such contracts (`Callable.Wraps`) is called as if the arguments were counted once, by the
function's own count (`Callable.Wraps.callWith_eq`).
-/

namespace CallGuard

namespace Contract

variable {α : Type}

/-- The contract has the parameters of the signature. -/
structure Follows (k : Contract) (sig : Signature α) : Prop where
  params : k.params.map (fun q => (q.name, q.hasDefault)) =
    sig.positional.map fun p => (p.name, p.default.isSome)
  variadic : k.variadic = sig.hasVariadic

theorem Follows.arity_eq {k : Contract} {sig : Signature α} (h : k.Follows sig) :
    k.arity = sig.arity := by
  have hrequired : k.required = sig.required := by
    have hcount := congrArg (List.countP fun q => !q.2) h.params
    rw [List.countP_map, List.countP_map] at hcount
    simpa [required, Signature.required, Function.comp_def] using hcount
  have hlength : k.params.length = sig.positional.length := by
    simpa using congrArg List.length h.params
  rw [arity, Signature.arity, hrequired, hlength, h.variadic]

theorem Declares.follows {s : Scope} {sig : Signature α} {k : Contract} (h : k.Declares s sig) :
    k.Follows sig := by
  refine ⟨?_, h.variadic⟩
  have hparams := h.params
  generalize sig.positional = ps, k.params = qs at hparams ⊢
  induction hparams with
  | nil => rfl
  | cons hq _ ih => rw [List.map_cons, List.map_cons, ih, hq.name, hq.hasDefault]

theorem follows_of_returned {outer k : Contract} {sig : Signature α}
    (h : outer.returned sig = some k) : k.Follows sig := by
  obtain ⟨ds, r, hr⟩ := result_of_returned h
  simp only [returned, hr, Option.some.injEq] at h
  subst h
  refine ⟨List.ext_getElem? fun i => ?_, rfl⟩
  simp [Function.comp_def]

/-- The contract was made from the signature, by itself or by an engine, or was derived for a callable
with this signature that another one returned. -/
inductive DerivedFor (sig : Signature α) (k : Contract) : Prop where
  | built {s : Scope} (h : ofSignature s sig = .ok k)
  | configured {e : Engine} (h : e.contractFor sig = .ok k)
  | returned {outer : Contract} (h : outer.returned sig = some k)

theorem DerivedFor.follows {sig : Signature α} {k : Contract} (h : k.DerivedFor sig) :
    k.Follows sig := by
  cases h with
  | built h => exact (ofSignature_eq_ok_iff.1 h).1.follows
  | configured h => exact (Engine.contractFor_eq_ok_iff.1 h).1.follows
  | returned h => exact follows_of_returned h

end Contract

namespace Callable

/-- The callable is `f` under some number of contracts, each derived from the signature of what it
guards. -/
inductive Wraps (f : Callable) : Callable → Prop where
  | bare : Wraps f f
  | guarded {c : Callable} {k : Contract} (id : Nat) (rule : TypeRefRule) (h : Wraps f c)
      (derived : k.DerivedFor c.signature) : Wraps f (.guarded id c k rule)

/-- A call in which no arguments are counted, neither by contracts nor by the function inside. -/
def callUncounted (run : Behaviour) : Callable → List Value → Run Value
  | .function _ _ signature frames body, args =>
    run ((args ++ signature.defaultsAfter args.length) :: frames) body
  | .bound _ receiver method, args => method.callUncounted run (receiver :: args)
  | .guarded _ target contract rule, args => do
    Contract.checkArguments rule target.name contract.params args
    let result ← target.callUncounted run args
    contract.checkResult rule target.name result

namespace Wraps

variable {f c : Callable}

theorem signature_eq (h : Wraps f c) : c.signature = f.signature := by
  induction h with
  | bare => rfl
  | guarded id rule h derived ih => exact ih

theorem name_eq (h : Wraps f c) : c.name = f.name := by
  induction h with
  | bare => rfl
  | guarded id rule h derived ih => exact ih

theorem arity_eq {k : Contract} (h : Wraps f c) (hk : k.DerivedFor c.signature) :
    k.arity = f.signature.arity := by
  rw [hk.follows.arity_eq, h.signature_eq]

/-- If a callable counts its arguments once, by its own signature, it does so under contracts: of all
the counts, the first decides. -/
theorem callWith_eq {run : Behaviour} {args : List Value} (h : Wraps f c)
    (hf : f.callWith run args =
      (Run.ofMisuse (f.signature.arity.check f.name args.length) >>= fun _ =>
        f.callUncounted run args)) :
    c.callWith run args =
      (Run.ofMisuse (f.signature.arity.check f.name args.length) >>= fun _ =>
        c.callUncounted run args) := by
  induction h with
  | bare => exact hf
  | @guarded c k id rule h derived ih =>
    rw [callWith, Contract.enforce, h.name_eq, h.arity_eq derived, callUncounted, h.name_eq]
    simp only [ih]
    rcases f.signature.arity.check f.name args.length with m | ⟨⟩ <;> rfl

/-- What an engine puts under the contract of its signature is the function under one more. -/
theorem wrap {e : Engine} {c' : Callable} {w w' : World} (h : Wraps f c)
    (hwrap : (e.wrap (.callable c)).exec w = (.ok c', w')) : Wraps f c' := by
  rcases hk : e.contractFor c.signature with err | k
  · rw [Engine.exec_wrap_of_error hk] at hwrap
    cases hwrap
  · rw [Engine.exec_wrap_of_ok hk] at hwrap
    cases hwrap
    exact .guarded _ _ h (.configured hk)

/-- What a contract hands on, if the function under contracts is returned to it, is the function under
the same contracts or one more. -/
theorem handedOn {k : Contract} {rule : TypeRefRule} {function : String} {v : Value} {w w' : World}
    (h : Wraps f c) (hresult : (k.checkResult rule function (.callable c)).exec w = (.ok v, w')) :
    ∃ c', v = .callable c' ∧ Wraps f c' := by
  have hsettles := k.settles_checkResult rule function (.callable c) w
  rw [hresult] at hsettles
  cases hsettles with
  | guarded flag declared returned derived =>
    cases returned
    exact ⟨_, rfl, .guarded _ _ h (.returned derived)⟩
  | passed plain matched => exact ⟨c, rfl, h⟩

end Wraps

end Callable

open Callable (Wraps)

/-- Derived contracts count as what they guard does. A contract that is made from a signature, or
derived for a callable of this signature that was returned, gives the same answer to every count, under
every name. Let `c` be the function `f` under contracts of this kind, as engines and contracts put them
around it. Then all its contracts count as `f` does, and under the same name; a count that `f` does not
admit is answered as `f` answers it, and once the outermost contract has admitted the count, the call
is what it would be if neither the contracts inside nor `f` counted arguments at all. -/
theorem derived_contracts_count_as_the_function (f c : Callable) (id : Nat) (name : String)
    (sig : Signature Value) (frames : List (List Value)) (body : Body)
    (hf : f = .function id name sig frames body) (h : Wraps f c) :
    (∀ k : Contract, k.DerivedFor sig → ∀ function n,
      k.arity.check function n = sig.arity.check function n) ∧
    (∀ e c' w w', (Engine.wrap e (.callable c)).exec w = (.ok c', w') → Wraps f c') ∧
    (∀ (k : Contract) rule function v w w',
      (k.checkResult rule function (.callable c)).exec w = (.ok v, w') →
        ∃ c', v = .callable c' ∧ Wraps f c') ∧
    (∀ t (k : Contract), Wraps f t → k.DerivedFor t.signature → ∀ n,
      k.arity.check t.name n = sig.arity.check name n) ∧
    (∀ run args m w, sig.arity.check name args.length = .error m →
      (f.callWith run args).exec w = (.error (.misuse m), w) ∧
      (c.callWith run args).exec w = (.error (.misuse m), w)) ∧
    ∀ run args id t k rule, c = .guarded id t k rule →
      k.arity.check t.name args.length = .ok () →
        c.callWith run args = c.callUncounted run args := by
  have hcall : ∀ run args, c.callWith run args =
      (Run.ofMisuse (sig.arity.check name args.length) >>= fun _ => c.callUncounted run args) := by
    intro run args
    subst hf
    exact h.callWith_eq rfl
  have hlayer : ∀ t (k : Contract), Wraps f t → k.DerivedFor t.signature → ∀ n,
      k.arity.check t.name n = sig.arity.check name n := by
    intro t k ht hk n
    rw [ht.arity_eq hk, ht.name_eq, hf]
    rfl
  refine ⟨fun k hk function n => by rw [hk.follows.arity_eq], fun e c' w w' => h.wrap,
    fun k rule function v w w' => h.handedOn, hlayer, fun run args m w hm => ⟨?_, ?_⟩,
    fun run args id' t k rule hc hadmits => ?_⟩
  · rw [hf, Callable.callWith, hm]
    rfl
  · rw [hcall, hm]
    rfl
  · subst hc
    cases h with
    | bare => cases hf
    | guarded _ _ ht derived =>
      rw [hlayer t k ht derived] at hadmits
      rw [hcall, hadmits]
      rfl

/-- A function with a parameter that has a default. -/
def scale : Callable :=
  .function 0 "scale"
    { params := [⟨"x", false, none, some (.ty (.builtin .int))⟩,
        ⟨"by", false, some (.int 2), some (.ty (.builtin .int))⟩]
      result := some (.ty (.builtin .int)) }
    [] (.mul (.arg 0 0) (.arg 0 1))

/-- Under two contracts, `scale` refuses three arguments as it does by itself, and one argument is
counted by the outer contract only. -/
theorem scale_wrapped_twice_counts_once :
    ∃ once twice w₁ w₂ k,
      (({} : Engine).wrap (.callable scale)).exec (World.start true) = (.ok once, w₁) ∧
      (({} : Engine).wrap (.callable once)).exec w₁ = (.ok twice, w₂) ∧
      twice = .guarded 1 once k .subtype ∧
      (twice.callWith (behaviour 1) [.int 1, .int 2, .int 3]).exec w₂ =
        (.error (.misuse (.arity "scale" (.between 1 2) 3)), w₂) ∧
      twice.callWith (behaviour 1) [.int 3] = twice.callUncounted (behaviour 1) [.int 3] := by
  obtain ⟨once, w₁, honce⟩ : ∃ once w₁,
      (({} : Engine).wrap (.callable scale)).exec (World.start true) = (.ok once, w₁) := ⟨_, _, rfl⟩
  obtain ⟨twice, w₂, k, htwice, hk, hadmits⟩ : ∃ twice w₂ k,
      (({} : Engine).wrap (.callable once)).exec w₁ = (.ok twice, w₂) ∧
      twice = .guarded 1 once k .subtype ∧ k.arity.check once.name 1 = .ok () := by
    cases honce
    exact ⟨_, _, _, rfl, rfl, rfl⟩
  obtain ⟨-, hwrap, -⟩ :=
    derived_contracts_count_as_the_function scale scale _ _ _ _ _ rfl .bare
  obtain ⟨-, hwrap', -⟩ :=
    derived_contracts_count_as_the_function scale once _ _ _ _ _ rfl (hwrap _ _ _ _ honce)
  obtain ⟨-, -, -, -, hrefused, hadmitted⟩ :=
    derived_contracts_count_as_the_function scale twice _ _ _ _ _ rfl (hwrap' _ _ _ _ htwice)
  exact ⟨once, twice, w₁, w₂, k, honce, htwice, hk, (hrefused _ _ _ _ rfl).2,
    hadmitted _ _ _ _ _ _ hk hadmits⟩

end CallGuard
