import CallGuard.Matching

/-!
# How matching fails

The only way for a match to end without an answer is to reach `NoReturn` (`accepts_error`): every
other descriptor decides, and a descriptor with parts fails only as one of them does.
-/

namespace CallGuard.Descriptor

/-- Whether the only fault a decision can end in is that `NoReturn` was reached. -/
def Decides {α : Type} (x : Except Misuse α) : Prop :=
  ∀ m, x = .error m → m = .noReturnMatched

section Decides

variable {α β : Type}

theorem decides_ok (a : α) : Decides (.ok a) := by
  intro m h
  cases h

theorem decides_bind {x : Except Misuse α} {f : α → Except Misuse β} (hx : Decides x)
    (hf : ∀ a, Decides (f a)) : Decides (x >>= f) := by
  intro m h
  rcases x with e | a
  · have he : (Except.error e : Except Misuse β) = .error m := h
    cases he
    exact hx m rfl
  · exact hf a m h

theorem decides_allM {f : α → Except Misuse Bool} (hf : ∀ a, Decides (f a)) :
    ∀ l : List α, Decides (l.allM f)
  | [] => decides_ok true
  | a :: l => by
    rw [List.allM]
    refine decides_bind (hf a) fun b => ?_
    cases b
    · exact decides_ok false
    · exact decides_allM hf l

end Decides

mutual
theorem admitsType_decides : ∀ (d : Descriptor) (t : Ty), Decides (admitsType d t)
  | any, _ | none, _ | list, _ | listOf _, _ | tuple _, _ | dict, _ | dictOf _ _, _ | freeVar _, _
  | typeRef, _ | typeRefTo _, _ | wildcard, _ | callable _ _, _ | forward _, _ | nominal _, _ => by
    rw [admitsType]
    exact decides_ok _
  | noReturn, _ => by
    intro m h
    rw [admitsType] at h
    cases h
    rfl
  | union ds, t => by
    rw [admitsType]
    exact someAdmitsType_decides ds t
  | boundedVar _ bound, t => by
    rw [admitsType]
    exact admitsType_decides bound t

theorem someAdmitsType_decides : ∀ (ds : List Descriptor) (t : Ty), Decides (someAdmitsType ds t)
  | [], _ => by
    rw [someAdmitsType]
    exact decides_ok _
  | d :: ds, t => by
    rw [someAdmitsType]
    refine decides_bind (admitsType_decides d t) fun b => ?_
    cases b
    · exact someAdmitsType_decides ds t
    · exact decides_ok _
end

mutual
theorem accepts_decides (rule : TypeRefRule) :
    ∀ (d : Descriptor) (v : Value), Decides (accepts rule d v)
  | any, _ | freeVar _, _ | wildcard, _ | forward _, _ | nominal _, _ => by
    rw [accepts]
    exact decides_ok _
  | none, v | list, v | dict, v | typeRef, v | callable _ _, v => by
    unfold accepts
    split <;> exact decides_ok _
  | noReturn, _ => by
    intro m h
    rw [accepts] at h
    cases h
    rfl
  | union ds, v => by
    rw [accepts]
    exact someAccepts_decides rule ds v
  | listOf d, v => by
    unfold accepts
    split
    · exact decides_allM (fun item => accepts_decides rule d item) _
    · exact decides_ok _
  | tuple ds, v => by
    unfold accepts
    split
    · split
      · exact decides_ok _
      · split
        · exact eachAccepts_decides rule ds _
        · exact decides_ok _
    · exact decides_ok _
  | dictOf k d, v => by
    unfold accepts
    split
    · refine decides_allM (fun entry => ?_) _
      refine decides_bind (accepts_decides rule k entry.1) fun b => ?_
      cases b
      · exact decides_ok _
      · exact accepts_decides rule d entry.2
    · exact decides_ok _
  | boundedVar _ bound, v => by
    rw [accepts]
    exact accepts_decides rule bound v
  | typeRefTo inner, v => by
    unfold accepts
    split
    · split
      · exact admitsType_decides inner _
      · exact accepts_decides _ inner _
    · exact decides_ok _

theorem someAccepts_decides (rule : TypeRefRule) :
    ∀ (ds : List Descriptor) (v : Value), Decides (someAccepts rule ds v)
  | [], _ => by
    rw [someAccepts]
    exact decides_ok _
  | d :: ds, v => by
    rw [someAccepts]
    refine decides_bind (accepts_decides rule d v) fun b => ?_
    cases b
    · exact someAccepts_decides rule ds v
    · exact decides_ok _

theorem eachAccepts_decides (rule : TypeRefRule) :
    ∀ (ds : List Descriptor) (vs : List Value), Decides (eachAccepts rule ds vs)
  | d :: ds, v :: vs => by
    rw [eachAccepts]
    refine decides_bind (accepts_decides rule d v) fun b => ?_
    cases b
    · exact decides_ok _
    · exact eachAccepts_decides rule ds vs
  | [], _ => by
    rw [eachAccepts]
    · exact decides_ok _
    · simp
  | _ :: _, [] => by
    rw [eachAccepts]
    · exact decides_ok _
    · simp
end

/-- A match that fails reached `NoReturn`. -/
theorem accepts_error {rule : TypeRefRule} {d : Descriptor} {v : Value} {m : Misuse}
    (h : d.accepts rule v = .error m) : m = .noReturnMatched :=
  accepts_decides rule d v m h

/-- A match says yes, says no, or reached `NoReturn`. -/
theorem accepts_cases (rule : TypeRefRule) (d : Descriptor) (v : Value) :
    d.accepts rule v = .ok true ∨ d.accepts rule v = .ok false ∨
      d.accepts rule v = .error .noReturnMatched := by
  rcases h : d.accepts rule v with m | b
  · rw [accepts_error h]
    exact .inr (.inr rfl)
  · cases b
    · exact .inr (.inl rfl)
    · exact .inl rfl

end CallGuard.Descriptor
