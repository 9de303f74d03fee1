import CallGuard.Proofs.Runs
import Mathlib.Logic.Relation

/-!
# What is held by what

A list holds its items, a function what it captured and the constants in its body, a wrapper the
callable behind it, and the world what stands in fields and under the names of methods. Changing
identities changes the parts of a piece and nothing else about them (`Piece.parts_rename`). So what is
known, in that a change of identities not given away yet does not affect it, holds only what is known
(`Piece.Known.of_holds`); and an identity in it is one that was given away
(`Piece.Known.id_lt`, `World.Sound.id_lt`).
-/

namespace CallGuard

/-- A value or a piece of program. -/
inductive Piece where
  | value (v : Value)
  | body (b : Body)

/-- A callable, as a value. -/
abbrev Piece.callable (c : Callable) : Piece := .value (.callable c)

/-- The defaults of the parameters. -/
def Signature.defaults {α : Type} (s : Signature α) : List α :=
  s.params.filterMap fun p => p.default

theorem Signature.defaults_map {α β : Type} (f : α → β) (s : Signature α) :
    (s.map f).defaults = s.defaults.map f := by
  simp [defaults, map, List.filterMap_map, List.map_filterMap, Function.comp_def, Param.map]

/-! ## The parts of a piece -/

/-- What stands directly in a callable. -/
def Callable.parts : Callable → List Piece
  | .function _ _ s frames b => s.defaults.map .value ++ frames.flatten.map .value ++ [.body b]
  | .bound _ receiver method => [.value receiver, .callable method]
  | .guarded _ target _ _ => [.callable target]

/-- What stands directly in a value. -/
def Value.parts : Value → List Piece
  | .list items | .tuple items => items.map .value
  | .dict entries => entries.flatMap fun e => [.value e.1, .value e.2]
  | .callable c => c.parts
  | _ => []

/-- What stands directly in a body. -/
def Body.parts : Body → List Piece
  | .const v => [.value v]
  | .function _ s b => s.defaults.map .body ++ [.body b]
  | .arg _ _ | .args | .raise _ => []
  | .list items | .tuple items | .seq items | .concat items => items.map .body
  | .dict entries => entries.flatMap fun e => [.body e.1, .body e.2]
  | .add a b | .mul a b | .eq a b | .set a _ b => [.body a, .body b]
  | .ite cond yes no => [.body cond, .body yes, .body no]
  | .typeName a | .get a _ | .member a _ => [.body a]
  | .call target given | .new target given => .body target :: given.map .body

section Rename

variable (π : Nat → Nat)

namespace Body

theorem renameAll_eq (bs : List Body) : renameAll π bs = bs.map (rename π) := by
  induction bs with
  | nil => rfl
  | cons b bs ih => rw [renameAll, ih, List.map_cons]

theorem renameEntries_eq (entries : List (Body × Body)) :
    renameEntries π entries = entries.map (Prod.map (rename π) (rename π)) := by
  induction entries with
  | nil => rfl
  | cons e entries ih => rw [renameEntries, ih, List.map_cons, Prod.map]

theorem renameParams_eq (params : List (Param Body)) :
    renameParams π params = params.map (Param.map (rename π)) := by
  induction params with
  | nil => rfl
  | cons p params ih =>
    obtain ⟨name, variadic, default, declared⟩ := p
    rw [renameParams, ih, List.map_cons]
    rcases default with _ | b <;> rfl

theorem renameSignature_eq (s : Signature Body) : renameSignature π s = s.map (rename π) := by
  obtain ⟨params, result⟩ := s
  rw [renameSignature, renameParams_eq, Signature.map]

end Body

namespace Piece

/-- The piece with the identities of objects and callables replaced. -/
def rename : Piece → Piece
  | value v => value (v.rename π)
  | body b => body (b.rename π)

/-- What stands directly in a piece. -/
def parts : Piece → List Piece
  | value v => v.parts
  | body b => b.parts

theorem parts_callable_rename (c : Callable) : (c.rename π).parts = c.parts.map (rename π) := by
  cases c <;> simp [Callable.rename, Value.renameSignature_eq, Value.renameFrames_eq,
    Callable.parts, rename, Value.rename, Signature.defaults_map, List.map_flatten,
    Function.comp_def]

theorem parts_value_rename (v : Value) : (v.rename π).parts = v.parts.map (rename π) := by
  cases v with
  | callable c => exact parts_callable_rename π c
  | _ => simp [Value.rename, Value.renameAll_eq, Value.renameEntries_eq, Value.parts, rename,
      List.flatMap_map, List.map_flatMap, Function.comp_def]

theorem parts_body_rename (b : Body) : (b.rename π).parts = b.parts.map (rename π) := by
  cases b <;> simp [Body.rename, Body.renameAll_eq, Body.renameEntries_eq, Body.renameSignature_eq,
    Body.parts, rename, Signature.defaults_map, List.flatMap_map, List.map_flatMap,
    Function.comp_def]

/-- The parts of a piece with other identities are its parts with other identities. -/
theorem parts_rename (p : Piece) : (p.rename π).parts = p.parts.map (rename π) := by
  cases p with
  | value v => exact parts_value_rename π v
  | body b => exact parts_body_rename π b

end Piece

end Rename

/-! ## Pieces that are known -/

namespace Piece

variable {n m : Nat} {p q : Piece} {c : Callable}

/-- Every identity in the piece is below `n`: a change of other identities does not affect it. -/
def Known (n : Nat) (p : Piece) : Prop :=
  ∀ π, Function.Injective π → (∀ i < n, π i = i) → p.rename π = p

theorem known_value {v : Value} : (value v).Known n ↔ v.Known n := by
  simp [Known, Value.Known, rename]

theorem known_callable : (callable c).Known n ↔ c.Known n := by
  simp [Known, Callable.Known, rename, Value.rename]

theorem map_value_rename {vs : List Value} (h : ∀ v ∈ vs, (value v).Known n) {π : Nat → Nat}
    (hπ : Function.Injective π) (hfix : ∀ i < n, π i = i) : vs.map (Value.rename π) = vs :=
  Value.map_rename_of_known (fun v hv => known_value.1 (h v hv)) hπ hfix

theorem Known.mono (h : p.Known n) (hle : n ≤ m) : p.Known m :=
  fun π hπ hfix => h π hπ fun i hi => hfix i (Nat.lt_of_lt_of_le hi hle)

theorem rename_eq_of_map_eq {π : Nat → Nat} {ps : List Piece} (h : ps.map (rename π) = ps)
    (hp : p ∈ ps) : p.rename π = p :=
  List.map_inj_left.1 (h.trans (List.map_id ps).symm) p hp

theorem Known.of_part (h : p.Known n) (hq : q ∈ p.parts) : q.Known n := by
  intro π hπ hfix
  have hparts := parts_rename π p
  rw [h π hπ hfix] at hparts
  exact rename_eq_of_map_eq hparts.symm hq

/-- The one piece stands in the other, at any depth, or is the other. -/
def Holds : Piece → Piece → Prop := Relation.ReflTransGen fun p q => q ∈ p.parts

theorem Known.of_holds (h : p.Known n) (hq : p.Holds q) : q.Known n := by
  induction hq with
  | refl => exact h
  | tail _ hpart ih => exact ih.of_part hpart

/-- The change of identities that leaves those below `n` and moves the others up. -/
def moveFrom (n i : Nat) : Nat := if i < n then i else i + 1

theorem injective_moveFrom (n : Nat) : Function.Injective (moveFrom n) := by
  intro i j h
  unfold moveFrom at h
  split at h <;> split at h <;> omega

/-- The identity of a callable that is known was given away. -/
theorem Known.id_lt (h : (callable c).Known n) : c.id < n := by
  have hfix : ∀ i < n, moveFrom n i = i := fun i hi => if_pos hi
  have hid := congrArg Callable.id (known_callable.1 h _ (injective_moveFrom n) hfix)
  rw [Callable.id_rename] at hid
  by_contra hle
  rw [moveFrom, if_neg hle] at hid
  omega

end Piece

/-! ## What the world holds -/

/-- The callable stands in a field of an object that was made, or in a method of a class. -/
inductive World.Holds (w : World) (c : Callable) : Prop where
  | field {i : Nat} {name : String} {v : Value} (made : i < w.fresh)
      (found : (w.fieldsOf i).get? name = some v) (held : (Piece.value v).Holds (.callable c))
  | method {i : Nat} {name : String} {m : Method} (found : (w.methodsOf i).get? name = some m)
      (held : (Piece.callable m.callable).Holds (.callable c))

theorem World.Sound.id_lt {w : World} {c : Callable} (hw : w.Sound) (h : w.Holds c) :
    c.id < w.fresh := by
  cases h with
  | @field i name v made found held =>
    have hv : (Piece.value v).Known w.fresh := by
      refine Piece.known_value.2 fun π hπ hfix => ?_
      have hfields := (hw π hπ hfix).fieldsOf i
      rw [hfix i made] at hfields
      exact OrderedMap.map_eq_self_iff.1 hfields.symm name v found
    exact (hv.of_holds held).id_lt
  | @method i name m found held =>
    have hm : (Piece.callable m.callable).Known w.fresh := by
      refine Piece.known_callable.2 fun π hπ hfix => ?_
      have hmethods := (hw π hπ hfix).methodsOf i
      exact congrArg Method.callable (OrderedMap.map_eq_self_iff.1 hmethods.symm name m found)
    exact (hm.of_holds held).id_lt

end CallGuard
