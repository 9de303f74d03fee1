import CallGuard.Matching
import CallGuard.Proofs.Classification
import CallGuard.Proofs.Lists

/-!
# Flattened unions match alike

Resolution takes the members of a union into the one around it, keeps the first of equal members and
makes a union of one that one. Members are tried in order and no further than the first that says
yes or fails, so what is dropped would only have been asked again after it had said no
(`List.anyM_eraseDups`): the union that is left matches as the one that was written
(`unionOf_alike`). Descriptors that match alike do so inside every other one, so resolution with and
without flattening yields descriptors that match alike, at any depth and through every bound
(`congruence_alike`).
-/

namespace CallGuard

namespace Descriptor

/-! ## Trying alternatives in order -/

theorem someAccepts_eq_anyM (rule : TypeRefRule) (ds : List Descriptor) (v : Value) :
    someAccepts rule ds v = ds.anyM fun d => accepts rule d v := by
  induction ds with
  | nil => rfl
  | cons d ds ih => rw [someAccepts, List.anyM_cons, ih]

theorem someAdmitsType_eq_anyM (ds : List Descriptor) (t : Ty) :
    someAdmitsType ds t = ds.anyM fun d => admitsType d t := by
  induction ds with
  | nil => rfl
  | cons d ds ih => rw [someAdmitsType, List.anyM_cons, ih]

/-- Whatever tries the members of a union in order cannot tell the flattened one from it. -/
theorem apply_unionOf {f : Descriptor → Except Misuse Bool} (hf : ∀ ds, f (union ds) = ds.anyM f)
    (ds : List Descriptor) : f (unionOf ds) = f (union ds) := by
  have hmembers : ∀ d : Descriptor, d.members.anyM f = f d := by
    intro d
    cases d with
    | union ds => exact (hf ds).symm
    | _ => exact List.anyM_singleton _
  have hflat : (ds.flatMap members).eraseDups.anyM f = f (union ds) := by
    rw [List.anyM_eraseDups, List.anyM_flatMap hmembers, hf]
  rw [← hflat, unionOf]
  split
  · rename_i d hd
    rw [hd, List.anyM_singleton]
  · exact hf _

/-! ## Descriptors that match alike -/

/-- The same types and the same values get the same results, failures included. -/
structure Alike (d p : Descriptor) : Prop where
  admitsType : ∀ t, d.admitsType t = p.admitsType t
  accepts : ∀ rule v, d.accepts rule v = p.accepts rule v

namespace Alike

variable {d p k q : Descriptor} {ds ps : List Descriptor}

theorem refl (d : Descriptor) : Alike d d := ⟨fun _ => rfl, fun _ _ => rfl⟩

theorem trans (h : Alike d p) (h' : Alike p q) : Alike d q :=
  ⟨fun t => (h.admitsType t).trans (h'.admitsType t),
    fun rule v => (h.accepts rule v).trans (h'.accepts rule v)⟩

theorem boundedVar (n : String) (h : Alike d p) : Alike (boundedVar n d) (boundedVar n p) where
  admitsType t := by rw [Descriptor.admitsType, Descriptor.admitsType, h.admitsType]
  accepts rule v := by rw [Descriptor.accepts, Descriptor.accepts, h.accepts]

theorem typeRefTo (h : Alike d p) : Alike (typeRefTo d) (typeRefTo p) where
  admitsType t := by rw [Descriptor.admitsType, Descriptor.admitsType]
  accepts rule v := by
    cases v with
    | type t => cases rule <;> simp only [Descriptor.accepts, h.admitsType, h.accepts]
    | _ => rfl

theorem listOf (h : Alike d p) : Alike (listOf d) (listOf p) where
  admitsType t := by rw [Descriptor.admitsType, Descriptor.admitsType]
  accepts rule v := by
    cases v with
    | list items => simp only [Descriptor.accepts, h.accepts]
    | _ => rfl

theorem dictOf (hk : Alike k q) (h : Alike d p) : Alike (dictOf k d) (dictOf q p) where
  admitsType t := by rw [Descriptor.admitsType, Descriptor.admitsType]
  accepts rule v := by
    cases v with
    | dict entries => simp only [Descriptor.accepts, hk.accepts, h.accepts]
    | _ => rfl

theorem callable (ds ps : List Descriptor) (d p : Descriptor) :
    Alike (callable ds d) (callable ps p) where
  admitsType t := by rw [Descriptor.admitsType, Descriptor.admitsType]
  accepts rule v := by cases v <;> rfl

theorem eachAccepts (h : List.Forall₂ Alike ds ps) (rule : TypeRefRule) :
    ∀ vs, eachAccepts rule ds vs = eachAccepts rule ps vs := by
  induction h with
  | nil => exact fun _ => rfl
  | cons h _ ih =>
    intro vs
    cases vs with
    | nil => rfl
    | cons v vs => rw [Descriptor.eachAccepts, Descriptor.eachAccepts, h.accepts, ih]

theorem tuple (h : List.Forall₂ Alike ds ps) : Alike (tuple ds) (tuple ps) where
  admitsType t := by rw [Descriptor.admitsType, Descriptor.admitsType]
  accepts rule v := by
    cases v with
    | tuple items =>
      have hempty : ds.isEmpty = ps.isEmpty := by cases h <;> rfl
      simp only [Descriptor.accepts, hempty, h.length_eq, eachAccepts h]
    | _ => rfl

theorem union (h : List.Forall₂ Alike ds ps) : Alike (union ds) (union ps) where
  admitsType t := by
    rw [Descriptor.admitsType, Descriptor.admitsType]
    induction h with
    | nil => rfl
    | cons h _ ih => rw [someAdmitsType, someAdmitsType, h.admitsType, ih]
  accepts rule v := by
    rw [Descriptor.accepts, Descriptor.accepts]
    induction h with
    | nil => rfl
    | cons h _ ih => rw [someAccepts, someAccepts, h.accepts, ih]

end Alike

theorem unionOf_alike (ds : List Descriptor) : Alike (unionOf ds) (union ds) where
  admitsType t := by
    refine apply_unionOf (f := fun d => d.admitsType t) (fun ds => ?_) ds
    rw [admitsType, someAdmitsType_eq_anyM]
  accepts rule v := by
    refine apply_unionOf (f := fun d => d.accepts rule v) (fun ds => ?_) ds
    rw [accepts, someAccepts_eq_anyM]

end Descriptor

/-! ## Resolution with and without flattening -/

namespace TypeExpr

open Descriptor (Alike)

section Alike

variable {join join' : List Descriptor → Descriptor} {s : Scope}
  {var var' : String → Option TypeExpr → Except ResolveError Descriptor}
  (hjoin : ∀ ds ps, List.Forall₂ Alike ds ps → Alike (join ds) (join' ps))

include hjoin

theorem congruence_alike : Descriptor.Congruence Alike join join' where
  atom d _ := .refl d
  boundedVar n _ _ h := h.boundedVar n
  typeRefTo h := h.typeRefTo
  listOf h := h.listOf
  dictOf hk h := hk.dictOf h
  tuple h := .tuple h
  callable _ _ := .callable _ _ _ _
  join h hs := hjoin _ _ (.cons h hs)

theorem resolveWith_alike (hvar : ∀ n bound, Related Alike (var n bound) (var' n bound))
    (e : TypeExpr) : Related Alike (e.resolveWith join s var) (e.resolveWith join' s var') :=
  resolveWith_related (congruence_alike hjoin) hvar e

theorem resolveVar_alike (budget : Nat) (R : List String) (n : String) (bound : Option TypeExpr) :
    Related Alike (s.resolveVar join budget R n bound) (s.resolveVar join' budget R n bound) :=
  resolveVar_related (congruence_alike hjoin) budget R n bound

end Alike

/-- The descriptor of a written type in which every union is left as it was written: `Union[...]` is
the union of its arguments in order, and `Optional[X]` the union of `X` and `None`. -/
def plain (s : Scope) (e : TypeExpr) : Except ResolveError Descriptor :=
  e.resolveJoining .union s

/-- Flattening unions keeps their meaning: what a written type resolves to and what it would resolve
to with its unions as written match every value with the same result. -/
theorem resolve_matches_plain (s : Scope) (e : TypeExpr) (d : Descriptor)
    (h : e.resolve s = .ok d) :
    ∃ p, e.plain s = .ok p ∧ ∀ rule v, d.accepts rule v = p.accepts rule v := by
  have hjoin : ∀ ds ps, List.Forall₂ Alike ds ps → Alike (Descriptor.unionOf ds) (.union ps) :=
    fun ds ps h => (Descriptor.unionOf_alike ds).trans (.union h)
  have hresolve : Related Alike (e.resolve s) (e.plain s) :=
    resolveWith_alike hjoin (resolveVar_alike hjoin s.vars.size []) e
  rw [h] at hresolve
  generalize hp : e.plain s = p at hresolve
  cases hresolve with
  | ok halike => exact ⟨_, rfl, halike.accepts⟩

/-- A scope with a type, and with a variable whose bound repeats itself. -/
def repeatingScope : Scope :=
  (Scope.empty.register "Int" (.builtin .int)).declareVar "N"
    (some (applied "Union" [name "Int", applied "Optional" [name "Int"]]))

/-- `List[Optional[Union[N, None]]]` -/
def nestedOptional : TypeExpr :=
  applied "List" [applied "Optional" [applied "Union" [name "N", name "None"]]]

theorem nestedOptional_matches_plain :
    ∃ d p, nestedOptional.resolve repeatingScope = .ok d ∧
      nestedOptional.plain repeatingScope = .ok p ∧
      ∀ rule v, d.accepts rule v = p.accepts rule v := by
  have h : nestedOptional.resolve repeatingScope =
      .ok (.listOf (.union
        [.boundedVar "N" (.union [.nominal (.builtin .int), .none]), .none])) := rfl
  obtain ⟨p, hp, hmatch⟩ := resolve_matches_plain repeatingScope nestedOptional _ h
  exact ⟨_, p, h, hp, hmatch⟩

end TypeExpr

end CallGuard
