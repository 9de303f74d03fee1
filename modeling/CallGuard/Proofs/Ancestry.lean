import CallGuard.Ty

/-!
# Chains of bases

A type has at most one base (`Ty.base?`), so there is one way up from it, and that way ends
(`Ty.base_induction`). The chain of a type is what is met on the way (`Ty.ancestors_getElem?`). One
type is a subtype of another exactly if the chain of the other is an end of its own
(`Ty.isSubtype_iff_suffix`), and two ends of one list are ends of each other one way or the other:
this is why the supertypes of a type are in line.
-/

namespace CallGuard

/-- The base of a built-in type, which only `object` lacks. -/
def Builtin.base? : Builtin → Option Builtin
  | object => .none
  | bool => some int
  | _ => some object

namespace Ty

/-- The base of a type. -/
def base? : Ty → Option Ty
  | builtin b => b.base?.map builtin
  | declared _ _ base => some base

/-- The type that is met after `n` steps up. -/
def up : Ty → Nat → Option Ty
  | t, 0 => some t
  | t, n + 1 => t.base?.bind fun u => u.up n

variable {t u a b : Ty}

theorem ancestors_of_base?_none (h : t.base? = none) : t.ancestors = [t] := by
  cases t with
  | builtin b =>
    cases b with
    | object => rfl
    | _ => cases h
  | declared id n base => cases h

theorem ancestors_of_base? (h : t.base? = some u) : t.ancestors = t :: u.ancestors := by
  cases t with
  | builtin b => cases b <;> cases h <;> rfl
  | declared id n base =>
    cases h
    rfl

/-- Whoever goes up from base to base comes to a type without one. -/
theorem base_induction {motive : Ty → Prop} (top : ∀ t : Ty, t.base? = none → motive t)
    (step : ∀ t u : Ty, t.base? = some u → motive u → motive t) : ∀ t, motive t
  | builtin .object => top _ rfl
  | builtin .bool => step _ (builtin .int) rfl (step _ (builtin .object) rfl (top _ rfl))
  | builtin .none | builtin .int | builtin .float | builtin .string | builtin .list
  | builtin .tuple | builtin .dict | builtin .type | builtin .function =>
    step _ (builtin .object) rfl (top _ rfl)
  | declared _ _ base => step _ base rfl (base_induction top step base)

theorem ancestors_getElem? (t : Ty) (n : Nat) : t.ancestors[n]? = t.up n := by
  induction n generalizing t with
  | zero =>
    rcases h : t.base? with _ | u
    · simp [ancestors_of_base?_none h, up]
    · simp [ancestors_of_base? h, up]
  | succ n ih =>
    rcases h : t.base? with _ | u
    · simp [ancestors_of_base?_none h, up, h]
    · simp [ancestors_of_base? h, up, h, ih]

theorem isSubtype_iff : t.isSubtype u = true ↔ u ∈ t.ancestors := by
  rw [isSubtype, List.contains_iff_mem]

theorem isSubtype_iff_up : t.isSubtype u = true ↔ ∃ n, t.up n = some u := by
  simp only [isSubtype_iff, List.mem_iff_getElem?, ancestors_getElem?]

theorem ancestors_head? (t : Ty) : t.ancestors.head? = some t := by
  rw [List.head?_eq_getElem?, ancestors_getElem?, up]

theorem isSubtype_of_base?_none (h : t.base? = none) (u : Ty) :
    t.isSubtype u = decide (u = t) := by
  rw [isSubtype, ancestors_of_base?_none h, List.contains_cons, List.contains_nil, Bool.or_false]
  rfl

theorem isSubtype_of_base? {v : Ty} (h : t.base? = some v) (u : Ty) :
    t.isSubtype u = (decide (u = t) || v.isSubtype u) := by
  rw [isSubtype, ancestors_of_base? h, List.contains_cons, isSubtype]
  rfl

/-- A subtype's chain ends in the chain of the supertype. -/
theorem isSubtype_iff_suffix : t.isSubtype u = true ↔ u.ancestors <:+ t.ancestors := by
  refine ⟨fun h => ?_, fun h => ?_⟩
  · induction t using base_induction with
    | top t ht =>
      rw [isSubtype_of_base?_none ht, decide_eq_true_eq] at h
      exact h ▸ List.suffix_refl _
    | step t v hv ih =>
      rw [isSubtype_of_base? hv, Bool.or_eq_true, decide_eq_true_eq] at h
      rcases h with rfl | h
      · exact List.suffix_refl _
      · rw [ancestors_of_base? hv]
        exact (ih h).trans (List.suffix_cons _ _)
  · exact isSubtype_iff.2 (h.subset (List.mem_of_mem_head? u.ancestors_head?))

theorem isSubtype_refl (t : Ty) : t.isSubtype t = true :=
  isSubtype_iff_suffix.2 (List.suffix_refl _)

theorem isSubtype_trans (h : t.isSubtype u = true) (h' : u.isSubtype a = true) :
    t.isSubtype a = true := by
  rw [isSubtype_iff_suffix] at *
  exact h'.trans h

theorem isSubtype_antisymm (h : t.isSubtype u = true) (h' : u.isSubtype t = true) : t = u := by
  rw [isSubtype_iff_suffix] at *
  have heq : t.ancestors = u.ancestors := h'.eq_of_length_le h.length_le
  have hhead := t.ancestors_head?
  rw [heq, ancestors_head?] at hhead
  exact (Option.some.inj hhead).symm

/-- Two supertypes of one type are supertypes of each other one way or the other. -/
theorem isSubtype_total (ha : t.isSubtype a = true) (hb : t.isSubtype b = true) :
    a.isSubtype b = true ∨ b.isSubtype a = true := by
  simp only [isSubtype_iff_suffix] at *
  exact List.suffix_or_suffix_of_suffix hb ha

theorem isSubtype_object (t : Ty) : t.isSubtype (builtin .object) = true := by
  induction t using base_induction with
  | top t ht =>
    cases t with
    | builtin b => cases b <;> rfl
    | declared id n base => cases ht
  | step t u hu ih =>
    rw [isSubtype_of_base? hu, ih, Bool.or_true]

/-- Above a built-in type there are built-in types only. -/
theorem eq_builtin_of_isSubtype {c : Builtin} (h : (builtin c).isSubtype u = true) :
    ∃ d, u = builtin d := by
  rw [isSubtype_iff, ancestors] at h
  obtain ⟨d, -, rfl⟩ := List.mem_map.1 h
  exact ⟨d, rfl⟩

/-- The way up from a type comes to a first built-in type, and the built-in supertypes of the type are
those of this one. -/
theorem exists_first_builtin (t : Ty) :
    ∃ n c, t.up n = some (builtin c) ∧ (∀ j < n, ∀ d, t.up j ≠ some (builtin d)) ∧
      ∀ d, t.isSubtype (builtin d) = (builtin c).isSubtype (builtin d) := by
  induction t with
  | builtin c => exact ⟨0, c, rfl, fun j hj => absurd hj (Nat.not_lt_zero j), fun d => rfl⟩
  | declared id name base ih =>
    obtain ⟨n, c, hn, hbefore, hsame⟩ := ih
    refine ⟨n + 1, c, hn, fun j hj d => ?_, fun d => ?_⟩
    · rcases j with _ | j
      · simp [up]
      · exact hbefore j (by omega) d
    · rw [← hsame d, isSubtype_of_base? rfl]
      simp

end Ty

end CallGuard
