import CallGuard.Ty

/-!
# Descriptors

A `Descriptor` is a declared type whose names have been looked up: what values are matched against.
Descriptors are compared as trees (`Descriptor.same`), which decides equality.
-/

namespace CallGuard

/-- What a value is matched against. -/
inductive Descriptor where
  /-- Every value. -/
  | any
  /-- The mark of a callable that does not return; nothing may be matched against it. -/
  | noReturn
  /-- The absent value. -/
  | none
  /-- The values of any of the members. -/
  | union (members : List Descriptor)
  /-- Every list. -/
  | list
  /-- The lists of such elements. -/
  | listOf (element : Descriptor)
  /-- The tuples of such elements in this order; every tuple, if there are none. -/
  | tuple (elements : List Descriptor)
  /-- Every dictionary. -/
  | dict
  /-- The dictionaries with such keys and values. -/
  | dictOf (key value : Descriptor)
  /-- A type variable without a bound. -/
  | freeVar (name : String)
  /-- A type variable with its bound. -/
  | boundedVar (name : String) (bound : Descriptor)
  /-- Every type value. -/
  | typeRef
  /-- The type values that denote such a type. -/
  | typeRefTo (inner : Descriptor)
  /-- Written `type`: every value. -/
  | wildcard
  /-- The callables; parameters and result are held against the calls, not the value. -/
  | callable (params : List Descriptor) (result : Descriptor)
  /-- A name declared later, against which every value passes. -/
  | forward (name : String)
  /-- The values whose type is a subtype of this one. -/
  | nominal (t : Ty)

namespace Descriptor

instance : Inhabited Descriptor := ⟨any⟩

mutual
/-- Whether two descriptors are the same tree. -/
def same : Descriptor → Descriptor → Bool
  | any, any => true
  | noReturn, noReturn => true
  | none, none => true
  | union as, union bs => sameAll as bs
  | list, list => true
  | listOf a, listOf b => same a b
  | tuple as, tuple bs => sameAll as bs
  | dict, dict => true
  | dictOf j a, dictOf k b => same j k && same a b
  | freeVar m, freeVar n => m == n
  | boundedVar m a, boundedVar n b => m == n && same a b
  | typeRef, typeRef => true
  | typeRefTo a, typeRefTo b => same a b
  | wildcard, wildcard => true
  | callable as a, callable bs b => sameAll as bs && same a b
  | forward m, forward n => m == n
  | nominal t, nominal u => t == u
  | _, _ => false

/-- Whether two lists hold the same trees in the same places. -/
def sameAll : List Descriptor → List Descriptor → Bool
  | [], [] => true
  | a :: as, b :: bs => same a b && sameAll as bs
  | _, _ => false
end

mutual
theorem same_refl : ∀ d : Descriptor, same d d = true
  | any | noReturn | none | list | dict | typeRef | wildcard => by simp [same]
  | union ds | tuple ds => by simp [same, sameAll_refl ds]
  | listOf d | typeRefTo d => by simp [same, same_refl d]
  | dictOf k v => by simp [same, same_refl k, same_refl v]
  | freeVar n | forward n => by simp [same]
  | boundedVar n d => by simp [same, same_refl d]
  | callable ps r => by simp [same, sameAll_refl ps, same_refl r]
  | nominal t => by simp [same]

theorem sameAll_refl : ∀ ds : List Descriptor, sameAll ds ds = true
  | [] => by simp [sameAll]
  | d :: ds => by simp [sameAll, same_refl d, sameAll_refl ds]
end

mutual
theorem eq_of_same : ∀ a b : Descriptor, same a b = true → a = b
  | any, b, h | noReturn, b, h | none, b, h | list, b, h | dict, b, h | typeRef, b, h
  | wildcard, b, h => by cases b <;> simp_all [same]
  | union as, b, h => by
    cases b <;> simp only [same, Bool.false_eq_true] at h
    exact congrArg union (eq_of_sameAll as _ h)
  | tuple as, b, h => by
    cases b <;> simp only [same, Bool.false_eq_true] at h
    exact congrArg tuple (eq_of_sameAll as _ h)
  | listOf a, b, h => by
    cases b <;> simp only [same, Bool.false_eq_true] at h
    exact congrArg listOf (eq_of_same a _ h)
  | typeRefTo a, b, h => by
    cases b <;> simp only [same, Bool.false_eq_true] at h
    exact congrArg typeRefTo (eq_of_same a _ h)
  | dictOf j a, b, h => by
    cases b <;> simp only [same, Bool.false_eq_true, Bool.and_eq_true] at h
    rw [eq_of_same j _ h.1, eq_of_same a _ h.2]
  | freeVar m, b, h | forward m, b, h | nominal t, b, h => by cases b <;> simp_all [same]
  | boundedVar m a, b, h => by
    cases b <;> simp only [same, Bool.false_eq_true, Bool.and_eq_true, beq_iff_eq] at h
    rw [h.1, eq_of_same a _ h.2]
  | callable as a, b, h => by
    cases b <;> simp only [same, Bool.false_eq_true, Bool.and_eq_true] at h
    rw [eq_of_sameAll as _ h.1, eq_of_same a _ h.2]

theorem eq_of_sameAll : ∀ as bs : List Descriptor, sameAll as bs = true → as = bs
  | [], bs, h => by cases bs <;> simp_all [sameAll]
  | a :: as, bs, h => by
    cases bs <;> simp only [sameAll, Bool.false_eq_true, Bool.and_eq_true] at h
    rw [eq_of_same a _ h.1, eq_of_sameAll as _ h.2]
end

theorem same_iff_eq {a b : Descriptor} : same a b = true ↔ a = b :=
  ⟨eq_of_same a b, fun h => h ▸ same_refl a⟩

instance : DecidableEq Descriptor := fun _ _ => decidable_of_iff _ same_iff_eq

/-- Whether the descriptor stands for callables with parameters and a result. -/
def isCallable : Descriptor → Bool
  | callable _ _ => true
  | _ => false

/-- The members that `d` brings to a union: its own, if it is one, else itself. -/
def members : Descriptor → List Descriptor
  | union ds => ds
  | d => [d]

/-- The union of descriptors that are not to hold unions or repetitions: members of members are
taken in, the first of equal ones is kept, and a union of one is that one. -/
def unionOf (ds : List Descriptor) : Descriptor :=
  match (ds.flatMap members).eraseDups with
  | [d] => d
  | ds => union ds

end Descriptor

end CallGuard
