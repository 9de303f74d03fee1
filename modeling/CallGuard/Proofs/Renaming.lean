import CallGuard.Proofs.Execution
import CallGuard.Proofs.Shape

/-!
# Changing identities

Objects and callables are told apart by numbers, and no program can tell which numbers they are.
`Value.rename` replaces the identities in a value, in the callables it holds and in their bodies. What
a value is, what it is equal to and what a contract says about it do not depend on them.
-/

namespace CallGuard

/-! ## Signatures with other defaults -/

/-- The parameter with another default. -/
def Param.map {α β : Type} (f : α → β) (p : Param α) : Param β :=
  { p with default := p.default.map f }

/-- The signature with other defaults. -/
def Signature.map {α β : Type} (f : α → β) (s : Signature α) : Signature β :=
  { s with params := s.params.map (Param.map f) }

namespace Signature

variable {α β : Type} (f : α → β) (s : Signature α)

theorem positional_map : (s.map f).positional = s.positional.map (Param.map f) := by
  simp [positional, map, List.filter_map, Function.comp_def, Param.map]

@[simp] theorem hasVariadic_map : (s.map f).hasVariadic = s.hasVariadic := by
  simp [hasVariadic, map, List.any_map, Function.comp_def, Param.map]

@[simp] theorem arity_map : (s.map f).arity = s.arity := by
  simp [arity, required, positional_map, List.countP_map, Function.comp_def, Param.map]

theorem withoutReceiver_map : (s.map f).withoutReceiver = s.withoutReceiver.map f := by
  simp [withoutReceiver, map, List.eraseP_map, Function.comp_def, Param.map]

theorem defaultsAfter_map (given : Nat) :
    (s.map f).defaultsAfter given = (s.defaultsAfter given).map f := by
  simp [defaultsAfter, positional_map, ← List.map_drop, List.takeWhile_map, List.filterMap_map,
    Function.comp_def, Param.map, List.map_filterMap]

end Signature

/-- The names of the positional parameters, which of them have defaults, and whether left-over
arguments are taken are the same. -/
structure Signature.SameShape {α β : Type} (s : Signature α) (s' : Signature β) : Prop where
  positional : s.positional.map (fun p => (p.name, p.default.isSome)) =
    s'.positional.map fun p => (p.name, p.default.isSome)
  hasVariadic : s.hasVariadic = s'.hasVariadic

theorem Signature.sameShape_map {α β : Type} (f : α → β) (s : Signature α) :
    (s.map f).SameShape s where
  positional := by simp [positional_map, Function.comp_def, Param.map]
  hasVariadic := hasVariadic_map f s

/-- The contract for a callable that is returned depends on the shape of its signature only. -/
theorem Contract.returned_congr {α β : Type} (k : Contract) {s : Signature α} {s' : Signature β}
    (h : s.SameShape s') : k.returned s = k.returned s' := by
  unfold returned
  split
  · rename_i ds r _
    have hparams : ∀ {γ : Type} (t : Signature γ),
        t.positional.mapIdx (fun i p => ParamContract.mk p.name (ds.getD i .any) p.default.isSome) =
          (t.positional.map fun p => (p.name, p.default.isSome)).mapIdx
            fun i q => ⟨q.1, ds.getD i .any, q.2⟩ := by
      intro γ t
      simp [List.mapIdx_eq_zipIdx_map, List.zipIdx_map]
    rw [hparams s, hparams s', h.positional, h.hasVariadic]
  · rfl

theorem Contract.returned_map {α β : Type} (k : Contract) (f : α → β) (s : Signature α) :
    k.returned (s.map f) = k.returned s :=
  k.returned_congr (s.sameShape_map f)

theorem Contract.ofSignature_map {α β : Type} (s : Scope) (f : α → β) (sig : Signature α) :
    ofSignature s (sig.map f) = ofSignature s sig := by
  have hparam : ofParam s ∘ Param.map f = ofParam s :=
    funext fun p => by simp [ofParam, Param.map]
  rw [ofSignature, ofSignature, Signature.positional_map, List.mapM_map, Signature.hasVariadic_map,
    hparam]
  rfl

/-! ## Values with other identities -/

section Rename

variable (π : Nat → Nat)

mutual
/-- The value with the identities of objects and callables replaced. -/
def Value.rename : Value → Value
  | .list items => .list (Value.renameAll items)
  | .tuple items => .tuple (Value.renameAll items)
  | .dict entries => .dict (Value.renameEntries entries)
  | .object id cls => .object (π id) cls
  | .callable c => .callable c.rename
  | .none => .none
  | .bool b => .bool b
  | .int n => .int n
  | .float x => .float x
  | .str s => .str s
  | .type t => .type t

def Value.renameAll : List Value → List Value
  | [] => []
  | v :: vs => v.rename :: Value.renameAll vs

def Value.renameEntries : List (Value × Value) → List (Value × Value)
  | [] => []
  | (k, v) :: rest => (k.rename, v.rename) :: Value.renameEntries rest

def Value.renameFrames : List (List Value) → List (List Value)
  | [] => []
  | frame :: frames => Value.renameAll frame :: Value.renameFrames frames

def Value.renameSignature : Signature Value → Signature Value
  | ⟨params, result⟩ => ⟨Value.renameParams params, result⟩

def Value.renameParams : List (Param Value) → List (Param Value)
  | [] => []
  | p :: ps => Value.renameParam p :: Value.renameParams ps

def Value.renameParam : Param Value → Param Value
  | ⟨name, variadic, default, declared⟩ => ⟨name, variadic, Value.renameDefault default, declared⟩

def Value.renameDefault : Option Value → Option Value
  | some v => some v.rename
  | none => none

/-- The callable with the identities of objects and callables replaced. -/
def Callable.rename : Callable → Callable
  | .function id name signature frames body =>
    .function (π id) name (Value.renameSignature signature) (Value.renameFrames frames) body.rename
  | .bound id receiver method => .bound (π id) receiver.rename method.rename
  | .guarded id target contract rule => .guarded (π id) target.rename contract rule

/-- The body with the identities of objects and callables in it replaced. -/
def Body.rename : Body → Body
  | .const v => .const v.rename
  | .function name signature body => .function name (Body.renameSignature signature) body.rename
  | .arg depth index => .arg depth index
  | .args => .args
  | .list items => .list (Body.renameAll items)
  | .tuple items => .tuple (Body.renameAll items)
  | .dict entries => .dict (Body.renameEntries entries)
  | .seq parts => .seq (Body.renameAll parts)
  | .add a b => .add a.rename b.rename
  | .mul a b => .mul a.rename b.rename
  | .concat parts => .concat (Body.renameAll parts)
  | .eq a b => .eq a.rename b.rename
  | .ite cond yes no => .ite cond.rename yes.rename no.rename
  | .typeName a => .typeName a.rename
  | .raise text => .raise text
  | .get target field => .get target.rename field
  | .set target field value => .set target.rename field value.rename
  | .member target name => .member target.rename name
  | .call target args => .call target.rename (Body.renameAll args)
  | .new target args => .new target.rename (Body.renameAll args)

def Body.renameAll : List Body → List Body
  | [] => []
  | b :: bs => b.rename :: Body.renameAll bs

def Body.renameEntries : List (Body × Body) → List (Body × Body)
  | [] => []
  | (k, b) :: rest => (k.rename, b.rename) :: Body.renameEntries rest

def Body.renameSignature : Signature Body → Signature Body
  | ⟨params, result⟩ => ⟨Body.renameParams params, result⟩

def Body.renameParams : List (Param Body) → List (Param Body)
  | [] => []
  | p :: ps => Body.renameParam p :: Body.renameParams ps

def Body.renameParam : Param Body → Param Body
  | ⟨name, variadic, default, declared⟩ => ⟨name, variadic, Body.renameDefault default, declared⟩

def Body.renameDefault : Option Body → Option Body
  | some b => some b.rename
  | none => none
end

namespace Value

theorem renameAll_eq (vs : List Value) : renameAll π vs = vs.map (rename π) := by
  induction vs with
  | nil => rfl
  | cons v vs ih => rw [renameAll, ih, List.map_cons]

theorem renameEntries_eq (entries : List (Value × Value)) :
    renameEntries π entries = entries.map (Prod.map (rename π) (rename π)) := by
  induction entries with
  | nil => rfl
  | cons e entries ih => rw [renameEntries, ih, List.map_cons, Prod.map]

theorem renameFrames_eq (frames : List (List Value)) :
    renameFrames π frames = frames.map (List.map (rename π)) := by
  induction frames with
  | nil => rfl
  | cons frame frames ih => rw [renameFrames, ih, renameAll_eq, List.map_cons]

theorem renameParams_eq (params : List (Param Value)) :
    renameParams π params = params.map (Param.map (rename π)) := by
  induction params with
  | nil => rfl
  | cons p params ih =>
    obtain ⟨name, variadic, default, declared⟩ := p
    rw [renameParams, ih, List.map_cons]
    rcases default with _ | v <;> rfl

theorem renameSignature_eq (s : Signature Value) :
    renameSignature π s = s.map (rename π) := by
  obtain ⟨params, result⟩ := s
  rw [renameSignature, renameParams_eq, Signature.map]

theorem rename_list (items : List Value) :
    (Value.list items).rename π = .list (items.map (rename π)) := by
  rw [rename, renameAll_eq]

theorem rename_tuple (items : List Value) :
    (Value.tuple items).rename π = .tuple (items.map (rename π)) := by
  rw [rename, renameAll_eq]

theorem rename_dict (entries : List (Value × Value)) :
    (Value.dict entries).rename π = .dict (entries.map (Prod.map (rename π) (rename π))) := by
  rw [rename, renameEntries_eq]

@[simp] theorem ty_rename (v : Value) : (v.rename π).ty = v.ty := by
  cases v <;> rfl

@[simp] theorem typeName_rename (v : Value) : (v.rename π).typeName = v.typeName := by
  rw [typeName, ty_rename, typeName]

@[simp] theorem int?_rename (v : Value) : (v.rename π).int? = v.int? := by
  cases v <;> rfl

@[simp] theorem str?_rename (v : Value) : (v.rename π).str? = v.str? := by
  cases v <;> rfl

end Value

namespace Callable

theorem rename_function (i : Nat) (name : String) (s : Signature Value)
    (frames : List (List Value)) (b : Body) :
    (Callable.function i name s frames b).rename π = .function (π i) name
      (s.map (Value.rename π)) (frames.map (List.map (Value.rename π))) (b.rename π) := by
  rw [rename, Value.renameSignature_eq, Value.renameFrames_eq]

@[simp] theorem name_rename : ∀ c : Callable, (c.rename π).name = c.name
  | .function _ _ _ _ _ => rfl
  | .bound _ _ m => name_rename m
  | .guarded _ t _ _ => name_rename t

@[simp] theorem id_rename (c : Callable) : (c.rename π).id = π c.id := by
  cases c <;> rfl

theorem signature_rename : ∀ c : Callable,
    (c.rename π).signature = c.signature.map (Value.rename π)
  | .function _ _ s _ _ => Value.renameSignature_eq π s
  | .bound _ _ m => by
    rw [rename, signature, signature_rename m, Signature.withoutReceiver_map, signature]
  | .guarded _ t _ _ => signature_rename t

end Callable

/-! ## What does not depend on identities -/

theorem Contract.returnedContract?_rename (k : Contract) (v : Value) :
    k.returnedContract? (v.rename π) =
      (k.returnedContract? v).map fun r => (r.1.rename π, r.2) := by
  cases v with
  | callable c =>
    rw [Value.rename, returnedContract?, returnedContract?, Callable.signature_rename,
      returned_map]
    split
    · simp [Function.comp_def]
    · rfl
  | _ => rfl

namespace Value

mutual
theorem shapeBy_rename {α : Type} (keep : Ty → α) : ∀ v : Value,
    (v.rename π).shapeBy keep = v.shapeBy keep
  | .none | .bool _ | .int _ | .float _ | .str _ | .type _ | .object _ _ | .callable _ => rfl
  | .list items | .tuple items => by
    rw [rename, shapeBy, shapeBy, shapesBy_rename keep items]
  | .dict entries => by
    rw [rename, shapeBy, shapeBy, entryShapesBy_rename keep entries]

theorem shapesBy_rename {α : Type} (keep : Ty → α) : ∀ vs : List Value,
    shapesBy keep (renameAll π vs) = shapesBy keep vs
  | [] => rfl
  | v :: vs => by
    rw [renameAll, shapesBy, shapesBy, shapeBy_rename keep v, shapesBy_rename keep vs]

theorem entryShapesBy_rename {α : Type} (keep : Ty → α) : ∀ entries : List (Value × Value),
    entryShapesBy keep (renameEntries π entries) = entryShapesBy keep entries
  | [] => rfl
  | (k, v) :: rest => by
    rw [renameEntries, entryShapesBy, entryShapesBy, shapeBy_rename keep k, shapeBy_rename keep v,
      entryShapesBy_rename keep rest]
end

end Value

/-- Whether a value is accepted does not depend on the identities in it, which are no part of its
shape. -/
theorem Descriptor.accepts_rename (rule : TypeRefRule) (d : Descriptor) (v : Value) :
    d.accepts rule (v.rename π) = d.accepts rule v :=
  accepts_congr (fun _ => Function.injective_id) d _ _ (Value.shapeBy_rename π id v)

namespace Value

mutual
/-- Equality of values survives a change of identities that keeps them apart. -/
theorem same_rename {π : Nat → Nat} (hπ : Function.Injective π) :
    ∀ a b : Value, (a.rename π).same (b.rename π) = a.same b
  | a, b => by
    cases a <;> cases b <;> simp only [rename, same, Callable.id_rename, hπ.beq_eq]
    case list.list as bs => exact sameAll_rename hπ as bs
    case tuple.tuple as bs => exact sameAll_rename hπ as bs
    case dict.dict as bs => exact sameEntries_rename hπ as bs

theorem sameAll_rename {π : Nat → Nat} (hπ : Function.Injective π) : ∀ as bs : List Value,
    sameAll (renameAll π as) (renameAll π bs) = sameAll as bs
  | [], [] | [], _ :: _ | _ :: _, [] => by simp only [renameAll, sameAll]
  | a :: as, b :: bs => by
    rw [renameAll, renameAll, sameAll, sameAll, same_rename hπ a b, sameAll_rename hπ as bs]

theorem sameEntries_rename {π : Nat → Nat} (hπ : Function.Injective π) :
    ∀ as bs : List (Value × Value),
      sameEntries (renameEntries π as) (renameEntries π bs) = sameEntries as bs
  | [], [] | [], _ :: _ | _ :: _, [] => by simp only [renameEntries, sameEntries]
  | (j, a) :: as, (k, b) :: bs => by
    rw [renameEntries, renameEntries, sameEntries, sameEntries, same_rename hπ j k,
      same_rename hπ a b, sameEntries_rename hπ as bs]
end

end Value

mutual
theorem Value.rename_id : ∀ v : Value, v.rename id = v
  | .none | .bool _ | .int _ | .float _ | .str _ | .type _ | .object _ _ => rfl
  | .list items | .tuple items => by rw [Value.rename, Value.renameAll_id items]
  | .dict entries => by rw [Value.rename, Value.renameEntries_id entries]
  | .callable c => by rw [Value.rename, Callable.rename_id c]

theorem Value.renameAll_id : ∀ vs : List Value, Value.renameAll id vs = vs
  | [] => rfl
  | v :: vs => by rw [Value.renameAll, Value.rename_id v, Value.renameAll_id vs]

theorem Value.renameEntries_id : ∀ es : List (Value × Value), Value.renameEntries id es = es
  | [] => rfl
  | (k, v) :: es => by
    rw [Value.renameEntries, Value.rename_id k, Value.rename_id v, Value.renameEntries_id es]

theorem Value.renameFrames_id : ∀ fs : List (List Value), Value.renameFrames id fs = fs
  | [] => rfl
  | f :: fs => by rw [Value.renameFrames, Value.renameAll_id f, Value.renameFrames_id fs]

theorem Value.renameSignature_id : ∀ s : Signature Value, Value.renameSignature id s = s
  | ⟨params, result⟩ => by rw [Value.renameSignature, Value.renameParams_id params]

theorem Value.renameParams_id : ∀ ps : List (Param Value), Value.renameParams id ps = ps
  | [] => rfl
  | p :: ps => by rw [Value.renameParams, Value.renameParam_id p, Value.renameParams_id ps]

theorem Value.renameParam_id : ∀ p : Param Value, Value.renameParam id p = p
  | ⟨name, variadic, default, declared⟩ => by
    rw [Value.renameParam, Value.renameDefault_id default]

theorem Value.renameDefault_id : ∀ d : Option Value, Value.renameDefault id d = d
  | some v => by rw [Value.renameDefault, Value.rename_id v]
  | none => rfl

theorem Callable.rename_id : ∀ c : Callable, c.rename id = c
  | .function i name signature frames body => by
    rw [Callable.rename, Value.renameSignature_id signature, Value.renameFrames_id frames,
      Body.rename_id body, id_eq]
  | .bound i receiver method => by
    rw [Callable.rename, Value.rename_id receiver, Callable.rename_id method, id_eq]
  | .guarded i target contract rule => by
    rw [Callable.rename, Callable.rename_id target, id_eq]

theorem Body.rename_id : ∀ b : Body, b.rename id = b
  | .arg _ _ | .args | .raise _ => rfl
  | .const v => by rw [Body.rename, Value.rename_id v]
  | .function name signature body => by
    rw [Body.rename, Body.renameSignature_id signature, Body.rename_id body]
  | .list items | .tuple items | .seq items | .concat items => by
    rw [Body.rename, Body.renameAll_id items]
  | .dict entries => by rw [Body.rename, Body.renameEntries_id entries]
  | .add a b | .mul a b | .eq a b => by rw [Body.rename, Body.rename_id a, Body.rename_id b]
  | .ite cond yes no => by
    rw [Body.rename, Body.rename_id cond, Body.rename_id yes, Body.rename_id no]
  | .typeName a | .get a _ | .member a _ => by rw [Body.rename, Body.rename_id a]
  | .set target field value => by
    rw [Body.rename, Body.rename_id target, Body.rename_id value]
  | .call target args | .new target args => by
    rw [Body.rename, Body.rename_id target, Body.renameAll_id args]

theorem Body.renameAll_id : ∀ bs : List Body, Body.renameAll id bs = bs
  | [] => rfl
  | b :: bs => by rw [Body.renameAll, Body.rename_id b, Body.renameAll_id bs]

theorem Body.renameEntries_id : ∀ es : List (Body × Body), Body.renameEntries id es = es
  | [] => rfl
  | (k, b) :: es => by
    rw [Body.renameEntries, Body.rename_id k, Body.rename_id b, Body.renameEntries_id es]

theorem Body.renameSignature_id : ∀ s : Signature Body, Body.renameSignature id s = s
  | ⟨params, result⟩ => by rw [Body.renameSignature, Body.renameParams_id params]

theorem Body.renameParams_id : ∀ ps : List (Param Body), Body.renameParams id ps = ps
  | [] => rfl
  | p :: ps => by rw [Body.renameParams, Body.renameParam_id p, Body.renameParams_id ps]

theorem Body.renameParam_id : ∀ p : Param Body, Body.renameParam id p = p
  | ⟨name, variadic, default, declared⟩ => by
    rw [Body.renameParam, Body.renameDefault_id default]

theorem Body.renameDefault_id : ∀ d : Option Body, Body.renameDefault id d = d
  | some b => by rw [Body.renameDefault, Body.rename_id b]
  | none => rfl
end

theorem Value.map_rename_id (vs : List Value) : vs.map (Value.rename id) = vs := by
  rw [← renameAll_eq, renameAll_id]

/-- The method with the identities of objects and callables replaced. -/
def Method.rename (m : Method) : Method := { m with callable := m.callable.rename π }

end Rename

end CallGuard
