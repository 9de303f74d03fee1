import CallGuard.Matching
import Mathlib.Logic.Function.Basic

/-!
# Matching sees the shape of a value

The shape of a value keeps its lists, tuples and dictionaries, the types that its type values denote
and the types of all its other parts. Numbers, texts, identities, bodies, signatures and contracts
are forgotten. A match sees nothing else (`accepts_congr`), and under the legacy rule it does not
even see which type a type value denotes.
-/

namespace CallGuard

/-- The containers of a value and the types of its parts, where a type value is known by an `α`. -/
inductive Shape (α : Type) where
  | list (items : List (Shape α))
  | tuple (items : List (Shape α))
  | dict (entries : List (Shape α × Shape α))
  | type (a : α)
  | leaf (t : Ty)

namespace Value

section Shape

variable {α : Type} (keep : Ty → α)

mutual
/-- The shape of a value, where `keep` says what is kept of the type that a type value denotes. -/
def shapeBy : Value → Shape α
  | list items => .list (shapesBy items)
  | tuple items => .tuple (shapesBy items)
  | dict entries => .dict (entryShapesBy entries)
  | type t => .type (keep t)
  | v => .leaf v.ty

def shapesBy : List Value → List (Shape α)
  | [] => []
  | v :: vs => shapeBy v :: shapesBy vs

def entryShapesBy : List (Value × Value) → List (Shape α × Shape α)
  | [] => []
  | (k, v) :: rest => (shapeBy k, shapeBy v) :: entryShapesBy rest
end

theorem shapesBy_eq_map (vs : List Value) : shapesBy keep vs = vs.map (shapeBy keep) := by
  induction vs with
  | nil => rfl
  | cons v vs ih => rw [shapesBy, ih, List.map_cons]

theorem entryShapesBy_eq_map (entries : List (Value × Value)) :
    entryShapesBy keep entries = entries.map (Prod.map (shapeBy keep) (shapeBy keep)) := by
  induction entries with
  | nil => rfl
  | cons e entries ih => rw [entryShapesBy, ih, List.map_cons, Prod.map]

/-- Two values of one shape are of one kind, and their parts are of the same shapes. -/
inductive SameShape : Value → Value → Prop
  | none : SameShape none none
  | bool (a b : Bool) : SameShape (bool a) (bool b)
  | int (m n : Int64) : SameShape (int m) (int n)
  | float (x y : Float) : SameShape (float x) (float y)
  | str (s t : String) : SameShape (str s) (str t)
  | list {as bs : List Value} (h : as.map (shapeBy keep) = bs.map (shapeBy keep)) :
    SameShape (list as) (list bs)
  | tuple {as bs : List Value} (h : as.map (shapeBy keep) = bs.map (shapeBy keep)) :
    SameShape (tuple as) (tuple bs)
  | dict {as bs : List (Value × Value)}
    (h : as.map (Prod.map (shapeBy keep) (shapeBy keep)) =
      bs.map (Prod.map (shapeBy keep) (shapeBy keep))) : SameShape (dict as) (dict bs)
  | type {t u : Ty} (h : keep t = keep u) : SameShape (type t) (type u)
  | object (i j : Nat) (cls : Class) : SameShape (object i cls) (object j cls)
  | callable (f g : Callable) : SameShape (callable f) (callable g)

theorem sameShape_of_eq {v w : Value} (h : v.shapeBy keep = w.shapeBy keep) :
    SameShape keep v w := by
  -- Values of different kinds have different shapes; what is left are the pairs of one kind.
  cases v <;> cases w <;>
    simp only [shapeBy, ty, Class.ty, reduceCtorEq, Shape.leaf.injEq, Ty.builtin.injEq,
      Shape.list.injEq, Shape.tuple.injEq, Shape.dict.injEq, Shape.type.injEq,
      shapesBy_eq_map, entryShapesBy_eq_map, Ty.declared.injEq] at h
  case none.none => exact .none
  case bool.bool => exact .bool _ _
  case int.int => exact .int _ _
  case float.float => exact .float _ _
  case str.str => exact .str _ _
  case list.list => exact .list h
  case tuple.tuple => exact .tuple h
  case dict.dict => exact .dict h
  case type.type => exact .type h
  case object.object i c j c' =>
    obtain ⟨id, name, base⟩ := c
    obtain ⟨rfl, rfl, rfl⟩ := h
    exact .object i j _
  case callable.callable => exact .callable _ _

end Shape

/-- The shape of a value with the types that its type values denote. -/
def shape (v : Value) : Shape Ty := v.shapeBy id

/-- The shape of a value in which all type values look the same. -/
def outline (v : Value) : Shape Unit := v.shapeBy fun _ => ()

end Value

namespace Descriptor

open Value (shapeBy SameShape sameShape_of_eq)

theorem allM_congr {β γ : Type} {view : β → γ} {f : β → Except Misuse Bool}
    (hf : ∀ a b, view a = view b → f a = f b) :
    ∀ as bs : List β, as.map view = bs.map view → as.allM f = bs.allM f := by
  intro as
  induction as with
  | nil =>
    intro bs h
    rw [List.map_eq_nil_iff.1 h.symm]
  | cons a as ih =>
    intro bs h
    obtain ⟨b, bs, rfl, hb, hbs⟩ := List.map_eq_cons_iff.1 h.symm
    rw [List.allM, List.allM, hf a b hb.symm, ih bs hbs.symm]

theorem accepts_typeRefTo_type (rule : TypeRefRule) (inner : Descriptor) (t : Ty) :
    (typeRefTo inner).accepts rule (.type t) =
      if rule = .subtype then inner.admitsType t else inner.accepts rule (.type t) := by
  cases rule <;> simp [accepts]

section Congruence

variable {α : Type} {keep : Ty → α} {rule : TypeRefRule}
  (hkeep : rule = .subtype → Function.Injective keep)

include hkeep

set_option linter.unusedSectionVars false in
mutual
/-- A match sees the shape of a value, with what is kept of type values enough to tell types apart
where the rule asks for that. -/
theorem accepts_congr : ∀ (d : Descriptor) (v w : Value), v.shapeBy keep = w.shapeBy keep →
    d.accepts rule v = d.accepts rule w
  | any, _, _, _ | noReturn, _, _, _ | freeVar _, _, _, _ | wildcard, _, _, _
  | forward _, _, _, _ => by rw [accepts, accepts]
  | none, _, _, h | list, _, _, h | dict, _, _, h | typeRef, _, _, h | callable _ _, _, _, h
  | nominal _, _, _, h => by cases sameShape_of_eq keep h <;> rfl
  | boundedVar _ bound, v, w, h => by
    rw [accepts, accepts]
    exact accepts_congr bound v w h
  | union ds, v, w, h => by
    rw [accepts, accepts]
    exact someAccepts_congr ds v w h
  | listOf d, v, w, h => by
    cases sameShape_of_eq keep h with
    | list hitems =>
      rw [accepts, accepts]
      exact allM_congr (accepts_congr d) _ _ hitems
    | _ => rfl
  | tuple ds, v, w, h => by
    cases sameShape_of_eq keep h with
    | @tuple as bs hitems =>
      have hlen : as.length = bs.length := by simpa using congrArg List.length hitems
      rw [accepts, accepts, hlen, eachAccepts_congr ds as bs hitems]
    | _ => rfl
  | dictOf k d, v, w, h => by
    cases sameShape_of_eq keep h with
    | dict hentries =>
      rw [accepts, accepts]
      refine allM_congr (fun e e' he => ?_) _ _ hentries
      rw [accepts_congr k e.1 e'.1 (congrArg Prod.fst he),
        accepts_congr d e.2 e'.2 (congrArg Prod.snd he)]
    | _ => rfl
  | typeRefTo inner, v, w, h => by
    cases sameShape_of_eq keep h with
    | type ht =>
      rw [accepts_typeRefTo_type, accepts_typeRefTo_type, accepts_congr inner _ _ h]
      split
      · rename_i hrule
        rw [hkeep hrule ht]
      · rfl
    | _ => rfl

theorem someAccepts_congr : ∀ (ds : List Descriptor) (v w : Value),
    v.shapeBy keep = w.shapeBy keep → someAccepts rule ds v = someAccepts rule ds w
  | [], _, _, _ => by rw [someAccepts, someAccepts]
  | d :: ds, v, w, h => by
    rw [someAccepts, someAccepts, accepts_congr d v w h, someAccepts_congr ds v w h]

theorem eachAccepts_congr : ∀ (ds : List Descriptor) (vs ws : List Value),
    vs.map (shapeBy keep) = ws.map (shapeBy keep) → eachAccepts rule ds vs = eachAccepts rule ds ws
  | d :: ds, v :: vs, w :: ws, h => by
    obtain ⟨h, hs⟩ := List.cons.inj h
    rw [eachAccepts, eachAccepts, accepts_congr d v w h, eachAccepts_congr ds vs ws hs]
  | [], _, _, _ => by
    rw [eachAccepts.eq_2, eachAccepts.eq_2] <;> simp
  | _ :: _, [], [], _ => rfl
end

end Congruence

/-- Matching depends on the shape of a value only, failures included. Under the legacy rule it
depends on less, so that `Type[X]` cannot tell two types apart. -/
theorem accepts_depends_on_shape (d : Descriptor) :
    (∀ rule v w, v.shape = w.shape → d.accepts rule v = d.accepts rule w) ∧
    (∀ v w, v.outline = w.outline → d.accepts .legacy v = d.accepts .legacy w) ∧
    (∀ t u, (typeRefTo d).accepts .legacy (.type t) = (typeRefTo d).accepts .legacy (.type u)) := by
  have hlegacy : ∀ (d : Descriptor) (v w : Value), v.outline = w.outline →
      d.accepts .legacy v = d.accepts .legacy w :=
    accepts_congr fun h => nomatch h
  exact ⟨fun rule v w => accepts_congr (fun _ => Function.injective_id) d v w, hlegacy d,
    fun t u => hlegacy (typeRefTo d) _ _ rfl⟩

/-- A number, a function of some name and a type. -/
def namedTriple (n : Int64) (name : String) (t : Ty) : Value :=
  .tuple [.int n, .callable (.function 0 name ⟨[], Option.none⟩ [] .args), .type t]

theorem namedTriple_matched_by_shape :
    (tuple [nominal (.builtin .int), callable [] any, typeRefTo (union [none, noReturn])]).accepts
        .subtype (namedTriple 1 "f" (.builtin .bool)) =
      (tuple [nominal (.builtin .int), callable [] any, typeRefTo (union [none, noReturn])]).accepts
        .subtype (namedTriple 2 "g" (.builtin .bool)) ∧
    (tuple [any, any, typeRefTo (nominal (.builtin .type))]).accepts
        .legacy (namedTriple 1 "f" (.builtin .bool)) =
      (tuple [any, any, typeRefTo (nominal (.builtin .type))]).accepts
        .legacy (namedTriple 2 "g" (.builtin .string)) :=
  ⟨(accepts_depends_on_shape _).1 .subtype _ _ rfl, (accepts_depends_on_shape _).2.1 _ _ rfl⟩

end Descriptor

end CallGuard
