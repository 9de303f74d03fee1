import CallGuard.Proofs.Ancestry
import CallGuard.Proofs.Runs

/-!
# The tree of declared classes

Classes are told apart by their identities, whatever they are called, and the question whether one
type is below another is answered by a walk from base to base that compares identities
(`Ty.Walks`). Nothing in the walk looks out for a circle. That it ends, and ends with the right
answer, is because a class can only be declared on a type that is there already: the types that were
declared one after another are closed under bases (`World.HasDeclared.among_of_isSubtype`), and no two
of them have the same identity (`World.HasDeclared.eq_of_identical`).
-/

namespace CallGuard

namespace Ty

/-- Whether two types are the same, told by their identities: the number of a class, or which built-in
type it is. -/
def identical : Ty → Ty → Bool
  | builtin a, builtin b => a == b
  | declared i _ _, declared j _ _ => i == j
  | _, _ => false

/-- The walk that looks for `u` and stands at the given type, or is past the last one, comes to the
answer. -/
inductive Walks (u : Ty) : Option Ty → Bool → Prop where
  | found {t : Ty} (same : t.identical u = true) : Walks u (some t) true
  | on {t : Ty} {answer : Bool} (other : t.identical u = false) (rest : Walks u t.base? answer) :
      Walks u (some t) answer
  | past : Walks u none false

theorem walks_none_iff {u : Ty} {answer : Bool} : Walks u none answer ↔ answer = false := by
  refine ⟨fun h => ?_, fun h => h ▸ .past⟩
  cases h
  rfl

theorem walks_some_iff {t u : Ty} {answer : Bool} :
    Walks u (some t) answer ↔
      if t.identical u = true then answer = true else Walks u t.base? answer := by
  rcases hsame : t.identical u with _ | _
  · refine ⟨fun h => ?_, .on hsame⟩
    cases h with
    | found same => simp [hsame] at same
    | on other rest => exact rest
  · refine ⟨fun h => ?_, fun h => h ▸ .found hsame⟩
    cases h with
    | found => rfl
    | on other rest => simp [hsame] at other

/-- The type is built in or is one of `ts`. -/
def Among (ts : List Ty) (t : Ty) : Prop := (∃ b, t = builtin b) ∨ t ∈ ts

theorem Among.cons {ts : List Ty} {t : Ty} (u : Ty) (h : Among ts t) : Among (u :: ts) t :=
  h.imp_right (List.mem_cons_of_mem u)

end Ty

open Ty (Among Walks)

/-- The types `ts` were declared in turn, the last first, each on a built-in type or on one that was
declared before. Between the declarations and after them the world may have run on. -/
inductive World.HasDeclared : World → List Ty → Prop where
  | start (w : World) : HasDeclared w []
  | later {w w' : World} {ts : List Ty} (h : HasDeclared w ts) (later : w.Keeps w') :
      HasDeclared w' ts
  | declare {w w' : World} {ts : List Ty} {d : ClassDef} {t : Ty} (h : HasDeclared w ts)
      (base : Among ts d.base) (declared : d.declare.exec w = (.ok t, w')) :
      HasDeclared w' (t :: ts)

namespace World.HasDeclared

variable {w : World} {ts : List Ty} {t u : Ty}

/-- What was declared is a class with an identity that is given away and a base that is there. -/
theorem exists_declared (h : w.HasDeclared ts) (ht : t ∈ ts) :
    ∃ id n base, t = .declared id n base ∧ id < w.fresh ∧ Among ts base := by
  induction h generalizing t with
  | start w => simp at ht
  | later _ hlater ih =>
    obtain ⟨id, n, base, rfl, hid, hbase⟩ := ih ht
    exact ⟨id, n, base, rfl, Nat.lt_of_lt_of_le hid hlater.fresh, hbase⟩
  | @declare w w' ts d t' _ hbase hdeclared ih =>
    obtain ⟨rfl, hfresh, -, -⟩ := ClassDef.declare_spec hdeclared
    rcases List.mem_cons.1 ht with rfl | ht
    · exact ⟨_, _, _, rfl, by omega, hbase.cons _⟩
    · obtain ⟨id, n, base, rfl, hid, hbase⟩ := ih ht
      exact ⟨id, n, base, rfl, by omega, hbase.cons _⟩

/-- A new class has an identity of its own, so no two classes ever share one. -/
theorem eq_of_identical (h : w.HasDeclared ts) (ht : t ∈ ts) (hu : u ∈ ts)
    (hsame : t.identical u = true) : t = u := by
  induction h generalizing t u with
  | start w => simp at ht
  | later _ _ ih => exact ih ht hu hsame
  | @declare w w' ts d t' h _ hdeclared ih =>
    obtain ⟨rfl, -, -, -⟩ := ClassDef.declare_spec hdeclared
    -- An earlier class has an identity below the one that the new class is given.
    have hold : ∀ v ∈ ts, v.identical (.declared w.fresh d.name d.base) = false ∧
        (Ty.declared w.fresh d.name d.base).identical v = false := by
      intro v hv
      obtain ⟨id, n, base, rfl, hid, -⟩ := h.exists_declared hv
      simp only [Ty.identical, beq_eq_false_iff_ne]
      omega
    rcases List.mem_cons.1 ht with rfl | ht <;> rcases List.mem_cons.1 hu with rfl | hu
    · rfl
    · simp [(hold u hu).2] at hsame
    · simp [(hold t ht).1] at hsame
    · exact ih ht hu hsame

theorem identical_iff (h : w.HasDeclared ts) (ht : Among ts t) (hu : Among ts u) :
    t.identical u = true ↔ t = u := by
  rcases ht with ⟨b, rfl⟩ | ht <;> rcases hu with ⟨c, rfl⟩ | hu
  · simp [Ty.identical]
  · obtain ⟨id, n, base, rfl, -, -⟩ := h.exists_declared hu
    simp [Ty.identical]
  · obtain ⟨id, n, base, rfl, -, -⟩ := h.exists_declared ht
    simp [Ty.identical]
  · refine ⟨h.eq_of_identical ht hu, ?_⟩
    rintro rfl
    obtain ⟨id, n, base, rfl, -, -⟩ := h.exists_declared ht
    simp [Ty.identical]

theorem among_of_base? (h : w.HasDeclared ts) (ht : Among ts t) (hbase : t.base? = some u) :
    Among ts u := by
  rcases ht with ⟨b, rfl⟩ | ht
  · obtain ⟨c, -, rfl⟩ := Option.map_eq_some_iff.1 hbase
    exact .inl ⟨c, rfl⟩
  · obtain ⟨id, n, base, rfl, -, hbase'⟩ := h.exists_declared ht
    cases hbase
    exact hbase'

theorem among_of_isSubtype (h : w.HasDeclared ts) (ht : Among ts t)
    (hsub : t.isSubtype u = true) : Among ts u := by
  induction t using Ty.base_induction with
  | top t hnone =>
    rw [Ty.isSubtype_of_base?_none hnone, decide_eq_true_eq] at hsub
    exact hsub ▸ ht
  | step t v hv ih =>
    rw [Ty.isSubtype_of_base? hv, Bool.or_eq_true, decide_eq_true_eq] at hsub
    rcases hsub with rfl | hsub
    · exact ht
    · exact ih (h.among_of_base? ht hv) hsub

/-- The walk from a declared type has one answer, and it is the right one. -/
theorem walks_iff (h : w.HasDeclared ts) (ht : Among ts t) (hu : Among ts u) (answer : Bool) :
    Walks u (some t) answer ↔ answer = t.isSubtype u := by
  induction t using Ty.base_induction with
  | top t hnone =>
    simp only [Ty.walks_some_iff, h.identical_iff ht hu, hnone, Ty.walks_none_iff,
      Ty.isSubtype_of_base?_none hnone]
    by_cases hsame : t = u
    · simp [hsame]
    · simp [hsame, Ne.symm hsame]
  | step t v hv ih =>
    simp only [Ty.walks_some_iff, h.identical_iff ht hu, hv, ih (h.among_of_base? ht hv),
      Ty.isSubtype_of_base? hv]
    by_cases hsame : t = u
    · simp [hsame]
    · simp [hsame, Ne.symm hsame]

end World.HasDeclared

/-- Declared classes and built-in types form a tree. Let the types `ts` be declared in turn. Among
them and the built-in types, those that have one identity are one type, supertypes are again among
them, and the walk by identities has exactly one answer, which is whether the one type is a subtype of
the other. Being a subtype is reflexive, transitive and antisymmetric, everything is below `Object`,
and the supertypes of a type are in line. The built-in supertypes of a type are those of the first
built-in type on its chain, and no built-in type is below a class. -/
theorem subtyping_is_a_tree_order (w : World) (ts : List Ty) (h : w.HasDeclared ts) :
    (∀ t u, Among ts t → Among ts u → (t.identical u = true ↔ t = u)) ∧
    (∀ t u, Among ts t → t.isSubtype u = true → Among ts u) ∧
    (∀ t u, Among ts t → Among ts u → ∀ answer, Walks u (some t) answer ↔ answer = t.isSubtype u) ∧
    (∀ t : Ty, t.isSubtype t = true) ∧
    (∀ t u v : Ty, t.isSubtype u = true → u.isSubtype v = true → t.isSubtype v = true) ∧
    (∀ t u : Ty, t.isSubtype u = true → u.isSubtype t = true → t = u) ∧
    (∀ t : Ty, t.isSubtype (.builtin .object) = true) ∧
    (∀ t a b : Ty, t.isSubtype a = true → t.isSubtype b = true →
      a.isSubtype b = true ∨ b.isSubtype a = true) ∧
    (∀ t : Ty, ∃ n c, t.up n = some (.builtin c) ∧ (∀ j < n, ∀ d, t.up j ≠ some (.builtin d)) ∧
      ∀ d, t.isSubtype (.builtin d) = (Ty.builtin c).isSubtype (.builtin d)) ∧
    ∀ t ∈ ts, ∀ b, (Ty.builtin b).isSubtype t = false := by
  refine ⟨fun t u => h.identical_iff, fun t u => h.among_of_isSubtype, fun t u => h.walks_iff,
    Ty.isSubtype_refl, fun t u v => Ty.isSubtype_trans, fun t u => Ty.isSubtype_antisymm,
    Ty.isSubtype_object, fun t a b => Ty.isSubtype_total, Ty.exists_first_builtin,
    fun t ht b => ?_⟩
  obtain ⟨id, n, base, rfl, -, -⟩ := h.exists_declared ht
  rw [← Bool.not_eq_true]
  intro hsub
  obtain ⟨c, hc⟩ := Ty.eq_builtin_of_isSubtype hsub
  cases hc

/-- A class of this name with the given identity. -/
def user (id : Nat) : Ty := .declared id "User" (.builtin .object)

/-- A class on the second of two such classes. -/
def admin : Ty := .declared 2 "Admin" (user 1)

/-- A class is below the one of two namesakes that it was declared on, and not below the other. -/
theorem namesakes_are_told_apart :
    ∃ w : World, w.HasDeclared [admin, user 1, user 0] ∧ (user 0).name = (user 1).name ∧
      Walks (user 1) (some admin) true ∧ Walks (user 0) (some admin) false := by
  have hfirst : World.HasDeclared _ [user 0] :=
    .declare (d := { name := "User" }) (.start (World.start false)) (.inl ⟨_, rfl⟩) rfl
  have hsecond : World.HasDeclared _ [user 1, user 0] :=
    .declare (d := { name := "User" }) hfirst (.inl ⟨_, rfl⟩) rfl
  have hadmin : World.HasDeclared _ [admin, user 1, user 0] :=
    .declare (d := { name := "Admin", base := user 1 }) hsecond (.inr List.mem_cons_self) rfl
  obtain ⟨-, -, hwalks, -⟩ := subtyping_is_a_tree_order _ _ hadmin
  exact ⟨_, hadmin, rfl, (hwalks admin (user 1) (.inr (by simp)) (.inr (by simp)) true).2 rfl,
    (hwalks admin (user 0) (.inr (by simp)) (.inr (by simp)) false).2 rfl⟩

end CallGuard
