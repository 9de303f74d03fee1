import CallGuard.Matching
import Mathlib.Data.List.Forall2
import Mathlib.Data.Set.Insert

/-!
# The values that belong to a descriptor

A descriptor stands for a set of values, its extent, and under the subtype rule `Type[X]` asks
whether a type is in a set of types, the type extent of `X`. Both are defined by the form of the
descriptor alone, without an order of trying and without failure. A match that answers is right
about the extent, whatever the descriptor holds (`accepts_answers`); it answers if `NoReturn` is
nowhere to be reached, and inside a `Callable[...]` it never is.
-/

namespace CallGuard

/-- The types below `u`, itself included. -/
def Ty.subtypes (u : Ty) : Set Ty := {t | t.isSubtype u}

namespace Descriptor

mutual
/-- The types that satisfy a descriptor as `X` in `Type[X]`. Bounds and unions are read through,
containers and callables stand for their own types, and `Type[...]` for the type of types. -/
def typeExtent : Descriptor → Set Ty
  | any | wildcard | forward _ | freeVar _ => Set.univ
  | noReturn => ∅
  | none => {.builtin .none}
  | typeRef | typeRefTo _ => {.builtin .type}
  | boundedVar _ bound => typeExtent bound
  | union ds => {t | ∃ S ∈ typeExtents ds, t ∈ S}
  | list | listOf _ => Ty.subtypes (.builtin .list)
  | tuple _ => Ty.subtypes (.builtin .tuple)
  | dict | dictOf _ _ => Ty.subtypes (.builtin .dict)
  | callable _ _ => Ty.subtypes (.builtin .function)
  | nominal u => u.subtypes

def typeExtents : List Descriptor → List (Set Ty)
  | [] => []
  | d :: ds => typeExtent d :: typeExtents ds
end

mutual
/-- The values that belong to a descriptor. -/
def extent (rule : TypeRefRule) : Descriptor → Set Value
  | any | wildcard | forward _ | freeVar _ => Set.univ
  | noReturn => ∅
  | none => {.none}
  | boundedVar _ bound => extent rule bound
  | union ds => {v | ∃ S ∈ extents rule ds, v ∈ S}
  | list => {v | ∃ items, v = .list items}
  | listOf d => {v | ∃ items, v = .list items ∧ ∀ item ∈ items, item ∈ extent rule d}
  | tuple [] => {v | ∃ items, v = .tuple items}
  | tuple (d :: ds) =>
    {v | ∃ items, v = .tuple items ∧
      List.Forall₂ (fun S item => item ∈ S) (extent rule d :: extents rule ds) items}
  | dict => {v | ∃ entries, v = .dict entries}
  | dictOf k d =>
    {v | ∃ entries, v = .dict entries ∧
      ∀ entry ∈ entries, entry.1 ∈ extent rule k ∧ entry.2 ∈ extent rule d}
  | callable _ _ => {v | ∃ c, v = .callable c}
  | nominal u => {v | v.ty ∈ u.subtypes}
  | typeRef => {v | ∃ t, v = .type t}
  | typeRefTo inner =>
    {v | ∃ t, v = .type t ∧
      match rule with
      | .subtype => t ∈ typeExtent inner
      | .legacy => v ∈ extent rule inner}

def extents (rule : TypeRefRule) : List Descriptor → List (Set Value)
  | [] => []
  | d :: ds => extent rule d :: extents rule ds
end

theorem length_extents (rule : TypeRefRule) (ds : List Descriptor) :
    (extents rule ds).length = ds.length := by
  induction ds with
  | nil => rfl
  | cons d ds ih => simp [extents, ih]

mutual
/-- `NoReturn` occurs at most inside a `Callable[...]`, where nothing is matched against it. -/
def NoReturnFree : Descriptor → Prop
  | noReturn => False
  | union ds | tuple ds => AllNoReturnFree ds
  | listOf d | typeRefTo d | boundedVar _ d => NoReturnFree d
  | dictOf k d => NoReturnFree k ∧ NoReturnFree d
  | any | none | list | dict | freeVar _ | typeRef | wildcard | callable _ _ | forward _
  | nominal _ => True

def AllNoReturnFree : List Descriptor → Prop
  | [] => True
  | d :: ds => NoReturnFree d ∧ AllNoReturnFree ds
end

/-! ## Answers -/

/-- Where `x` answers, it answers whether `P` holds, and it does answer if `safe` holds. -/
structure Answers (safe : Prop) (x : Except Misuse Bool) (P : Prop) : Prop where
  right : ∀ b, x = .ok b → (b = true ↔ P)
  answered : safe → ∃ b, x = .ok b

section Answers

variable {α : Type} {safe safe' P Q : Prop} {x y : Except Misuse Bool}

theorem Answers.of_ok {b : Bool} (h : b = true ↔ P) : Answers safe (.ok b) P where
  right := by
    intro c hc
    cases hc
    exact h
  answered := fun _ => ⟨b, rfl⟩

theorem Answers.of_error (m : Misuse) : Answers False (.error m) P where
  right := by
    intro b hb
    cases hb
  answered := False.elim

theorem Answers.congr (h : Answers safe x P) (hPQ : P ↔ Q) : Answers safe x Q where
  right := fun b hb => (h.right b hb).trans hPQ
  answered := h.answered

/-- What a decision answers after `x` has told whether `P` holds. -/
theorem Answers.bind {f : Bool → Except Misuse Bool} (hx : Answers safe x P)
    (hf : ∀ b, (b = true ↔ P) → Answers safe' (f b) Q) : Answers (safe ∧ safe') (x >>= f) Q := by
  rcases x with m | b
  · refine ⟨fun b hb => (nomatch hb), fun hs => ?_⟩
    obtain ⟨b, hb⟩ := hx.answered hs.1
    cases hb
  · have h := hf b (hx.right b rfl)
    exact ⟨h.right, fun hs => h.answered hs.2⟩

theorem Answers.or (hx : Answers safe x P) (hy : Answers safe' y Q) :
    Answers (safe ∧ safe') (do if ← x then return true else y) (P ∨ Q) := by
  refine hx.bind fun b hb => ?_
  cases b
  · have hne : ¬ P := fun hp => by simpa using hb.2 hp
    exact hy.congr ⟨.inr, fun h => h.resolve_left hne⟩
  · exact .of_ok ⟨fun h => .inl (hb.1 h), fun _ => rfl⟩

theorem Answers.and (hx : Answers safe x P) (hy : Answers safe' y Q) :
    Answers (safe ∧ safe') (do if ← x then y else return false) (P ∧ Q) := by
  refine hx.bind fun b hb => ?_
  cases b
  · exact .of_ok ⟨fun h => (nomatch h), fun h => hb.2 h.1⟩
  · exact hy.congr ⟨fun h => ⟨hb.1 rfl, h⟩, fun h => h.2⟩

theorem Answers.allM {f : α → Except Misuse Bool} {P : α → Prop}
    (hf : ∀ a, Answers safe (f a) (P a)) : ∀ l : List α, Answers safe (l.allM f) (∀ a ∈ l, P a)
  | [] => .of_ok (by simp)
  | a :: l => by
    have ih := Answers.allM hf l
    have h : Answers (safe ∧ safe) ((a :: l).allM f) (∀ b ∈ a :: l, P b) := by
      refine (hf a).bind fun b hb => ?_
      cases b
      · exact .of_ok ⟨fun h => (nomatch h), fun h => hb.2 (h a List.mem_cons_self)⟩
      · rw [List.forall_mem_cons]
        exact ih.congr ⟨fun h => ⟨hb.1 rfl, h⟩, fun h => h.2⟩
    exact ⟨h.right, fun hs => h.answered ⟨hs, hs⟩⟩

end Answers

/-! ## Types -/

mutual
theorem admitsType_answers : ∀ (d : Descriptor) (t : Ty),
    Answers d.NoReturnFree (d.admitsType t) (t ∈ d.typeExtent)
  | any, _ | wildcard, _ | forward _, _ | freeVar _, _ => by
    rw [admitsType, typeExtent]
    exact .of_ok (by simp)
  | noReturn, _ => by
    rw [admitsType, NoReturnFree]
    exact .of_error _
  | none, _ | typeRef, _ | typeRefTo _, _ => by
    rw [admitsType, typeExtent]
    exact .of_ok (by simp)
  | list, _ | listOf _, _ | tuple _, _ | dict, _ | dictOf _ _, _ | callable _ _, _
  | nominal _, _ => by
    rw [admitsType, typeExtent]
    exact .of_ok (by simp [Ty.subtypes])
  | boundedVar _ bound, t => by
    rw [admitsType, typeExtent, NoReturnFree]
    exact admitsType_answers bound t
  | union ds, t => by
    rw [admitsType, typeExtent, NoReturnFree]
    exact someAdmitsType_answers ds t

theorem someAdmitsType_answers : ∀ (ds : List Descriptor) (t : Ty),
    Answers (AllNoReturnFree ds) (someAdmitsType ds t) (∃ S ∈ typeExtents ds, t ∈ S)
  | [], _ => by
    rw [someAdmitsType, typeExtents]
    exact .of_ok (by simp)
  | d :: ds, t => by
    rw [someAdmitsType, typeExtents, AllNoReturnFree]
    simp only [List.mem_cons, exists_eq_or_imp]
    exact (admitsType_answers d t).or (someAdmitsType_answers ds t)
end

/-! ## Values -/

mutual
/-- A match that answers is right about the extent, and it answers unless it can reach
`NoReturn`. -/
theorem accepts_answers (rule : TypeRefRule) : ∀ (d : Descriptor) (v : Value),
    Answers d.NoReturnFree (d.accepts rule v) (v ∈ d.extent rule)
  | any, _ | wildcard, _ | forward _, _ | freeVar _, _ => by
    rw [accepts, extent]
    exact .of_ok (by simp)
  | noReturn, _ => by
    rw [accepts, NoReturnFree]
    exact .of_error _
  | nominal _, _ => by
    rw [accepts, extent]
    exact .of_ok (by simp [Ty.subtypes, Value.isInstance])
  | none, v | list, v | dict, v | typeRef, v | callable _ _, v => by
    rw [extent]
    unfold accepts
    split
    · exact .of_ok (by simp)
    · rename_i h
      exact .of_ok (by simpa using h)
  | boundedVar _ bound, v => by
    rw [accepts, extent, NoReturnFree]
    exact accepts_answers rule bound v
  | union ds, v => by
    rw [accepts, extent, NoReturnFree]
    exact someAccepts_answers rule ds v
  | listOf d, v => by
    rw [extent, NoReturnFree]
    unfold accepts
    split
    · rename_i items
      exact (Answers.allM (accepts_answers rule d) items).congr (by simp)
    · rename_i h
      exact .of_ok (by simpa using fun items hv => absurd hv (h items))
  | tuple [], v => by
    rw [extent]
    unfold accepts
    split
    · exact .of_ok (by simp)
    · rename_i h
      exact .of_ok (by simpa using h)
  | tuple (d :: ds), v => by
    rw [extent, NoReturnFree]
    unfold accepts
    split
    · rename_i items
      rw [if_neg (by simp)]
      split
      · rename_i hlen
        have h := eachAccepts_answers rule (d :: ds) items hlen.symm
        rw [extents] at h
        exact h.congr (by simp)
      · rename_i hlen
        refine .of_ok ⟨fun h => (nomatch h), ?_⟩
        rintro ⟨items', hv, h⟩
        cases hv
        exact absurd h.length_eq.symm (by simpa [length_extents] using hlen)
    · rename_i h
      exact .of_ok (by simpa using fun items hv => absurd hv (h items))
  | dictOf k d, v => by
    rw [extent, NoReturnFree]
    unfold accepts
    split
    · rename_i entries
      have h := Answers.allM (fun entry : Value × Value =>
        (accepts_answers rule k entry.1).and (accepts_answers rule d entry.2)) entries
      exact h.congr (by simp)
    · rename_i h
      exact .of_ok (by simpa using fun items hv => absurd hv (h items))
  | typeRefTo inner, v => by
    rw [extent, NoReturnFree]
    unfold accepts
    split
    · rename_i t
      split
      · exact (admitsType_answers inner t).congr (by simp)
      · exact (accepts_answers _ inner (.type t)).congr (by simp)
    · rename_i h
      exact .of_ok (by simpa using fun t hv => absurd hv (h t))

theorem someAccepts_answers (rule : TypeRefRule) : ∀ (ds : List Descriptor) (v : Value),
    Answers (AllNoReturnFree ds) (someAccepts rule ds v) (∃ S ∈ extents rule ds, v ∈ S)
  | [], _ => by
    rw [someAccepts, extents]
    exact .of_ok (by simp)
  | d :: ds, v => by
    rw [someAccepts, extents, AllNoReturnFree]
    simp only [List.mem_cons, exists_eq_or_imp]
    exact (accepts_answers rule d v).or (someAccepts_answers rule ds v)

theorem eachAccepts_answers (rule : TypeRefRule) : ∀ (ds : List Descriptor) (vs : List Value),
    ds.length = vs.length → Answers (AllNoReturnFree ds) (eachAccepts rule ds vs)
      (List.Forall₂ (fun S v => v ∈ S) (extents rule ds) vs)
  | [], [], _ => by
    rw [eachAccepts, extents]
    · exact .of_ok (by simp)
    · simp
  | d :: ds, v :: vs, h => by
    rw [eachAccepts, extents, AllNoReturnFree, List.forall₂_cons]
    exact (accepts_answers rule d v).and (eachAccepts_answers rule ds vs (by simpa using h))
end

/-- Matching computes the extent: against a descriptor without `NoReturn` outside `Callable[...]`
it never fails, and it says yes to exactly the values that belong to the descriptor. -/
theorem accepts_computes_extent (rule : TypeRefRule) (d : Descriptor) (v : Value)
    (h : d.NoReturnFree) :
    ∃ b, d.accepts rule v = .ok b ∧ (b = true ↔ v ∈ d.extent rule) := by
  obtain ⟨b, hb⟩ := (accepts_answers rule d v).answered h
  exact ⟨b, hb, (accepts_answers rule d v).right b hb⟩

/-- An integer, a type within the bound of `N`, and a callable or a list of absent values. -/
def typedTriple : Descriptor :=
  .tuple [.nominal (.builtin .int),
    .typeRefTo (.boundedVar "N" (.union [.none, .nominal (.builtin .int)])),
    .union [.callable [.any] .noReturn, .listOf .none]]

theorem typedTriple_computed :
    typedTriple.NoReturnFree ∧
      .tuple [.bool true, .type (.builtin .bool), .list [.none]] ∈ typedTriple.extent .subtype ∧
      .tuple [.bool true, .type (.builtin .bool), .list [.none]] ∉ typedTriple.extent .legacy := by
  have hfree : typedTriple.NoReturnFree := by simp [typedTriple, NoReturnFree, AllNoReturnFree]
  refine ⟨hfree, ?_, ?_⟩
  · obtain ⟨b, hb, h⟩ := accepts_computes_extent .subtype typedTriple
      (.tuple [.bool true, .type (.builtin .bool), .list [.none]]) hfree
    exact h.1 (Except.ok.inj hb).symm
  · obtain ⟨b, hb, h⟩ := accepts_computes_extent .legacy typedTriple
      (.tuple [.bool true, .type (.builtin .bool), .list [.none]]) hfree
    intro hv
    cases h.2 hv
    cases hb

end Descriptor

end CallGuard
