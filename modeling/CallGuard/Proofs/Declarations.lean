import CallGuard.Engine
import CallGuard.Proofs.Classification
import CallGuard.Proofs.Lists

/-!
# Contracts of declared types

A contract that is made from a signature says of each positional parameter, in order, and of the
result what is declared of it (`Contract.Declares`). There is one exactly if every declared type has
a descriptor (`Contract.ofSignature_eq_ok_iff`); otherwise the first that has none is the reason, the
result being the last of them (`Contract.ofSignature_eq_error_iff`). An engine adds its own choice
for callables that are returned, and nothing else.
-/

namespace CallGuard

variable {α : Type} {s : Scope} {sig : Signature α} {k : Contract} {err : ResolveError}

/-- The contract of a parameter says of it what is declared in the scope. -/
structure ParamContract.Declares (s : Scope) (p : Param α) (q : ParamContract) : Prop where
  name : q.name = p.name
  descriptor : Contract.declaredDescriptor s p.declared = .ok q.descriptor
  hasDefault : q.hasDefault = p.default.isSome

/-- The contract says of each parameter of a signature and of its result what is declared in the
scope. -/
structure Contract.Declares (s : Scope) (sig : Signature α) (k : Contract) : Prop where
  params : List.Forall₂ (ParamContract.Declares s) sig.positional k.params
  result : declaredDescriptor s sig.result = .ok k.result
  variadic : k.variadic = sig.hasVariadic

/-- The types that a signature declares, those of the parameters before that of the result. -/
def Signature.declarations (sig : Signature α) : List (Option TypeExpr) :=
  sig.positional.map (fun p => p.declared) ++ [sig.result]

/-- `err` is why a declared type has no descriptor, and those that are declared before it have
one. -/
def Signature.FirstUnresolved (s : Scope) (sig : Signature α) (err : ResolveError) : Prop :=
  ∃ before declared after, sig.declarations = before ++ declared :: after ∧
    Contract.declaredDescriptor s declared = .error err ∧
    ∀ earlier ∈ before, ∃ d, Contract.declaredDescriptor s earlier = .ok d

namespace Contract

theorem ofParam_eq_ok_iff {p : Param α} {q : ParamContract} :
    ofParam s p = .ok q ↔ ParamContract.Declares s p q := by
  constructor
  · intro h
    obtain ⟨d, hd, h⟩ := ok_of_bind h
    cases h
    exact ⟨rfl, hd, rfl⟩
  · rintro ⟨hname, hd, hdefault⟩
    rw [ofParam, hd, ← hname, ← hdefault]
    rfl

/-- A contract is made from a signature exactly if every declared type has a descriptor, and then it
says what is declared. -/
theorem ofSignature_eq_ok_iff :
    ofSignature s sig = .ok k ↔ k.Declares s sig ∧ k.guardsReturned = true := by
  unfold ofSignature
  constructor
  · intro h
    obtain ⟨params, hparams, h⟩ := ok_of_bind h
    obtain ⟨result, hresult, h⟩ := ok_of_bind h
    cases h
    have hdeclared := (List.mapM_eq_ok_iff.1 hparams).imp fun _ _ => ofParam_eq_ok_iff.1
    exact ⟨⟨hdeclared, hresult, rfl⟩, rfl⟩
  · obtain ⟨params, result, variadic, guardsReturned⟩ := k
    rintro ⟨⟨hparams, hresult, rfl⟩, rfl⟩
    have hmapM := List.mapM_eq_ok_iff.2 (hparams.imp fun _ _ => ofParam_eq_ok_iff.2)
    rw [hmapM, hresult]
    rfl

/-- The descriptors of a contract, those of the parameters before that of the result. -/
def descriptors (k : Contract) : List Descriptor :=
  k.params.map (fun q => q.descriptor) ++ [k.result]

theorem mapM_ofParam (s : Scope) (ps : List (Param α)) :
    (ps.mapM (ofParam s)).map (List.map fun q => q.descriptor) =
      ps.mapM fun p => declaredDescriptor s p.declared := by
  induction ps with
  | nil => rfl
  | cons p ps ih =>
    rw [List.mapM_cons, List.mapM_cons, ← ih, ofParam]
    rcases declaredDescriptor s p.declared with err | d
    · rfl
    · rcases ps.mapM (ofParam s) with err | qs <;> rfl

/-- Making a contract is finding the descriptors of the declared types, one after the other. -/
theorem descriptors_ofSignature (s : Scope) (sig : Signature α) :
    (ofSignature s sig).map descriptors = sig.declarations.mapM (declaredDescriptor s) := by
  have hparams := mapM_ofParam s sig.positional
  rw [ofSignature, Signature.declarations, List.mapM_append, List.mapM_map, List.mapM_cons,
    List.mapM_nil]
  rw [Function.comp_def, ← hparams]
  rcases sig.positional.mapM (ofParam s) with err | qs
  · rfl
  · rcases declaredDescriptor s sig.result with err | d <;> rfl

theorem ofSignature_eq_error_iff :
    ofSignature s sig = .error err ↔ sig.FirstUnresolved s err := by
  rw [Signature.FirstUnresolved, ← List.mapM_eq_error_iff, ← descriptors_ofSignature]
  rcases ofSignature s sig with err' | k <;> simp [Except.map]

end Contract

namespace Engine

variable {e : Engine}

theorem contractFor_eq_ok_iff :
    e.contractFor sig = .ok k ↔
      k.Declares e.scope sig ∧ k.guardsReturned = e.config.guardsReturned := by
  constructor
  · intro h
    obtain ⟨k₀, hk₀, h⟩ := ok_of_bind h
    cases h
    obtain ⟨⟨hparams, hresult, hvariadic⟩, -⟩ := Contract.ofSignature_eq_ok_iff.1 hk₀
    exact ⟨⟨hparams, hresult, hvariadic⟩, rfl⟩
  · rintro ⟨⟨hparams, hresult, hvariadic⟩, hreturned⟩
    have hk₀ : Contract.ofSignature e.scope sig = .ok { k with guardsReturned := true } :=
      Contract.ofSignature_eq_ok_iff.2 ⟨⟨hparams, hresult, hvariadic⟩, rfl⟩
    rw [contractFor, hk₀, ← hreturned]
    rfl

theorem contractFor_eq_error_iff :
    e.contractFor sig = .error err ↔ sig.FirstUnresolved e.scope err := by
  rw [← Contract.ofSignature_eq_error_iff, contractFor]
  rcases Contract.ofSignature e.scope sig with err' | k
  · rfl
  · constructor <;> intro h <;> cases h

end Engine

end CallGuard
