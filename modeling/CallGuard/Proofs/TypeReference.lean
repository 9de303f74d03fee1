import CallGuard.Matching

/-!
# `Type[X]` and the values of `X`

Whether a value is accepted by `X` and whether its type is admitted by `X` are answered by two
recursions over the same descriptor. They stay in step: where the value gets an answer the type gets
one too, and a type whose value is accepted is admitted (`admitsType_follows`). Only containers,
callables and `Type[...]` look at more of a value than its type; without them the two are the same
(`accepts_eq_admitsType`).
-/

namespace CallGuard.Descriptor

/-- Whether `y` answers wherever `x` does, and says yes wherever `x` does. -/
def Follows (x y : Except Misuse Bool) : Prop :=
  ∀ b, x = .ok b → ∃ c, y = .ok c ∧ (b = true → c = true)

theorem Follows.refl (x : Except Misuse Bool) : Follows x x :=
  fun b hb => ⟨b, hb, id⟩

theorem Follows.of_ok {x : Except Misuse Bool} {c : Bool} (h : x = .ok true → c = true) :
    Follows x (.ok c) := by
  intro b hb
  exact ⟨c, rfl, fun hbt => h (hbt ▸ hb)⟩

/-- The second try is reached on both sides, or the first has said yes on the right. -/
theorem Follows.or {x y x' y' : Except Misuse Bool} (h : Follows x y) (h' : Follows x' y') :
    Follows (do if ← x then return true else x') (do if ← y then return true else y') := by
  intro b hb
  rcases x with m | a
  · cases hb
  · obtain ⟨c, rfl, hc⟩ := h a rfl
    cases c
    · cases a
      · exact h' b hb
      · cases hc rfl
    · exact ⟨true, rfl, fun _ => rfl⟩

mutual
/-- What is true of a value's membership is true of its type's. -/
theorem admitsType_follows (rule : TypeRefRule) : ∀ (d : Descriptor) (v : Value),
    Follows (d.accepts rule v) (d.admitsType v.ty)
  | any, _ | wildcard, _ | forward _, _ | freeVar _, _ => by
    rw [admitsType]
    exact .of_ok fun _ => rfl
  | noReturn, _ => by
    rw [accepts]
    exact fun b hb => nomatch hb
  | nominal _, _ => by
    rw [accepts, admitsType]
    exact .refl _
  | boundedVar _ bound, v => by
    rw [accepts, admitsType]
    exact admitsType_follows rule bound v
  | union ds, v => by
    rw [accepts, admitsType]
    exact someAdmitsType_follows rule ds v
  | none, v | list, v | listOf _, v | tuple _, v | dict, v | dictOf _ _, v | typeRef, v
  | typeRefTo _, v | callable _ _, v => by
    rw [admitsType]
    refine .of_ok fun h => ?_
    unfold accepts at h
    split at h
    · rfl
    · cases h

theorem someAdmitsType_follows (rule : TypeRefRule) : ∀ (ds : List Descriptor) (v : Value),
    Follows (someAccepts rule ds v) (someAdmitsType ds v.ty)
  | [], _ => by
    rw [someAccepts, someAdmitsType]
    exact .refl _
  | d :: ds, v => by
    rw [someAccepts, someAdmitsType]
    exact (admitsType_follows rule d v).or (someAdmitsType_follows rule ds v)
end

mutual
/-- Built without containers, callables and `Type[X]`: nothing in it asks for more than the type of
a value. -/
def Flat : Descriptor → Prop
  | any | wildcard | forward _ | noReturn | none | typeRef | nominal _ | freeVar _ => True
  | boundedVar _ bound => Flat bound
  | union ds => AllFlat ds
  | list | listOf _ | tuple _ | dict | dictOf _ _ | typeRefTo _ | callable _ _ => False

def AllFlat : List Descriptor → Prop
  | [] => True
  | d :: ds => Flat d ∧ AllFlat ds
end

mutual
theorem accepts_eq_admitsType (rule : TypeRefRule) : ∀ (d : Descriptor) (v : Value), d.Flat →
    d.accepts rule v = d.admitsType v.ty
  | any, _, _ | wildcard, _, _ | forward _, _, _ | freeVar _, _, _ | noReturn, _, _ => by
    rw [accepts, admitsType]
  | nominal _, _, _ => by
    rw [accepts, admitsType, Value.isInstance]
  | none, v, _ | typeRef, v, _ => by
    -- An object is of a declared class, so its type is neither of the two.
    rw [admitsType]
    cases v <;> simp [accepts, Value.ty, Class.ty]
  | boundedVar _ bound, v, h => by
    rw [Flat] at h
    rw [accepts, admitsType]
    exact accepts_eq_admitsType rule bound v h
  | union ds, v, h => by
    rw [Flat] at h
    rw [accepts, admitsType]
    exact someAccepts_eq_someAdmitsType rule ds v h
  | list, _, h | listOf _, _, h | tuple _, _, h | dict, _, h | dictOf _ _, _, h
  | typeRefTo _, _, h | callable _ _, _, h => by
    rw [Flat] at h
    exact h.elim

theorem someAccepts_eq_someAdmitsType (rule : TypeRefRule) : ∀ (ds : List Descriptor) (v : Value),
    AllFlat ds → someAccepts rule ds v = someAdmitsType ds v.ty
  | [], _, _ => by rw [someAccepts, someAdmitsType]
  | d :: ds, v, h => by
    rw [AllFlat] at h
    rw [someAccepts, someAdmitsType, accepts_eq_admitsType rule d v h.1,
      someAccepts_eq_someAdmitsType rule ds v h.2]
end

/-- Under the subtype rule, `Type[X]` accepts the type of every value that `X` accepts, and where
`X` is flat the two matches have the same result, failures included. -/
theorem typeRefTo_agrees_with_instances (rule : TypeRefRule) (X : Descriptor) (v : Value) :
    (X.accepts rule v = .ok true → (typeRefTo X).accepts .subtype (.type v.ty) = .ok true) ∧
    (X.Flat → (typeRefTo X).accepts .subtype (.type v.ty) = X.accepts rule v) := by
  have href : (typeRefTo X).accepts .subtype (.type v.ty) = X.admitsType v.ty := by
    rw [accepts]
  rw [href]
  refine ⟨fun h => ?_, fun h => (accepts_eq_admitsType rule X v h).symm⟩
  obtain ⟨c, hc, hyes⟩ := admitsType_follows rule X v true h
  rw [hc, hyes rfl]

/-- `NoReturn` in `X` does no harm where it is not reached, and fails on both sides where it is. -/
theorem typeRefTo_agrees_despite_noReturn :
    ((union [listOf noReturn, noReturn]).accepts .legacy (.list []) = .ok true ∧
      (typeRefTo (union [listOf noReturn, noReturn])).accepts .subtype (.type (.builtin .list)) =
        .ok true) ∧
    ((union [none, boundedVar "T" noReturn]).Flat ∧
      (typeRefTo (union [none, boundedVar "T" noReturn])).accepts .subtype
        (.type (.builtin .bool)) =
        (union [none, boundedVar "T" noReturn]).accepts .legacy (.bool true)) := by
  have hyes : (union [listOf noReturn, noReturn]).accepts .legacy (.list []) = .ok true := rfl
  have hflat : (union [none, boundedVar "T" noReturn]).Flat := by simp [Flat, AllFlat]
  exact ⟨⟨hyes, (typeRefTo_agrees_with_instances .legacy _ (.list [])).1 hyes⟩,
    hflat, (typeRefTo_agrees_with_instances .legacy _ (.bool true)).2 hflat⟩

end CallGuard.Descriptor
