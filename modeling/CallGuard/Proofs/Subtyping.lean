import CallGuard.Proofs.Ancestry
import CallGuard.Proofs.Extent

/-!
# A refined value is accepted where the value is

One value refines another if its type is below the other's, and so on through lists, tuples and
dictionaries. The extent of every descriptor is closed under refinement (`extent_hereditary`), since
being a subtype is reflexive and transitive; so a match that says yes to a value says yes to what
refines it.
-/

namespace CallGuard

namespace Value

/-- A truth value, a number, a text or an object: matching asks such a value for its type only. -/
def isNominal : Value → Bool
  | bool _ | int _ | float _ | str _ | object _ _ => true
  | none | list _ | tuple _ | dict _ | type _ | callable _ => false

/-- The first value may stand for the second: they are the same, or containers of one kind whose
parts refine each other place by place, or nominal values whose types do. -/
inductive Refines : Value → Value → Prop
  | refl (v : Value) : Refines v v
  | list {as bs : List Value} (h : List.Forall₂ Refines as bs) : Refines (.list as) (.list bs)
  | tuple {as bs : List Value} (h : List.Forall₂ Refines as bs) : Refines (.tuple as) (.tuple bs)
  | dict {as bs : List (Value × Value)}
    (keys : List.Forall₂ Refines (as.map Prod.fst) (bs.map Prod.fst))
    (values : List.Forall₂ Refines (as.map Prod.snd) (bs.map Prod.snd)) :
    Refines (.dict as) (.dict bs)
  | nominal {v w : Value} (hv : v.isNominal = true) (hw : w.isNominal = true)
    (h : v.ty.isSubtype w.ty = true) : Refines v w

namespace Refines

variable {v : Value}

theorem forall₂_refl (vs : List Value) : List.Forall₂ Refines vs vs :=
  List.forall₂_same.2 fun v _ => .refl v

theorem list_inv {bs : List Value} (h : Refines v (.list bs)) :
    ∃ as, v = .list as ∧ List.Forall₂ Refines as bs := by
  cases h with
  | refl => exact ⟨bs, rfl, forall₂_refl bs⟩
  | list h => exact ⟨_, rfl, h⟩
  | nominal _ hw _ => cases hw

theorem tuple_inv {bs : List Value} (h : Refines v (.tuple bs)) :
    ∃ as, v = .tuple as ∧ List.Forall₂ Refines as bs := by
  cases h with
  | refl => exact ⟨bs, rfl, forall₂_refl bs⟩
  | tuple h => exact ⟨_, rfl, h⟩
  | nominal _ hw _ => cases hw

theorem dict_inv {bs : List (Value × Value)} (h : Refines v (.dict bs)) :
    ∃ as, v = .dict as ∧ List.Forall₂ Refines (as.map Prod.fst) (bs.map Prod.fst) ∧
      List.Forall₂ Refines (as.map Prod.snd) (bs.map Prod.snd) := by
  cases h with
  | refl => exact ⟨bs, rfl, forall₂_refl _, forall₂_refl _⟩
  | dict keys values => exact ⟨_, rfl, keys, values⟩
  | nominal _ hw _ => cases hw

/-- The absent value, types and callables are refined by themselves only. -/
theorem eq_of_ty {w : Value} (h : Refines v w)
    (hw : w.ty ∈ [Ty.builtin .none, .builtin .type, .builtin .function]) : v = w := by
  cases h with
  | refl => rfl
  | list | tuple | dict => simp [ty] at hw
  | nominal _ hn _ => cases w <;> simp_all [isNominal, ty, Class.ty]

theorem ty_isSubtype {w : Value} (h : Refines v w) : v.ty.isSubtype w.ty = true := by
  cases h with
  | refl | list | tuple | dict => exact Ty.isSubtype_refl _
  | nominal _ _ h => exact h

end Refines

/-- The set holds whatever refines one of its values. -/
def Hereditary (S : Set Value) : Prop :=
  ∀ v w, Refines v w → w ∈ S → v ∈ S

namespace Hereditary

variable {as bs : List Value}

theorem forall_mem {S : Set Value} (hS : Hereditary S) (h : List.Forall₂ Refines as bs)
    (hbs : ∀ b ∈ bs, b ∈ S) : ∀ a ∈ as, a ∈ S := by
  induction h with
  | nil => simp
  | cons hab _ ih =>
    obtain ⟨hb, hbs⟩ := List.forall_mem_cons.1 hbs
    exact List.forall_mem_cons.2 ⟨hS _ _ hab hb, ih hbs⟩

theorem forall₂_mem {Ss : List (Set Value)} (hS : ∀ S ∈ Ss, Hereditary S)
    (h : List.Forall₂ Refines as bs) (hbs : List.Forall₂ (fun S b => b ∈ S) Ss bs) :
    List.Forall₂ (fun S a => a ∈ S) Ss as := by
  induction hbs generalizing as with
  | nil =>
    cases h
    exact .nil
  | cons hb _ ih =>
    cases h with
    | cons hab h =>
      obtain ⟨hSs, hS⟩ := List.forall_mem_cons.1 hS
      exact .cons (hSs _ _ hab hb) (ih hS h)

end Hereditary

end Value

namespace Descriptor

open Value (Refines Hereditary)

mutual
/-- What refines a value that belongs to a descriptor belongs to it too. -/
theorem extent_hereditary (rule : TypeRefRule) : ∀ d : Descriptor, Hereditary (d.extent rule)
  | any | wildcard | forward _ | freeVar _ => by
    rw [extent]
    exact fun _ _ _ _ => trivial
  | noReturn => by
    rw [extent]
    exact fun _ _ _ hw => hw.elim
  | none => by
    rw [extent]
    rintro v _ h rfl
    exact h.eq_of_ty (by simp [Value.ty])
  | typeRef => by
    rw [extent]
    rintro v _ h ⟨t, rfl⟩
    exact ⟨t, h.eq_of_ty (by simp [Value.ty])⟩
  | callable _ _ => by
    rw [extent]
    rintro v _ h ⟨c, rfl⟩
    exact ⟨c, h.eq_of_ty (by simp [Value.ty])⟩
  | typeRefTo inner => by
    rw [extent]
    rintro v _ h ⟨t, rfl, ht⟩
    -- Only the type itself refines it, so nothing has to be known about `inner`.
    rw [h.eq_of_ty (by simp [Value.ty])]
    exact ⟨t, rfl, ht⟩
  | nominal u => by
    rw [extent]
    exact fun v w h hw => Ty.isSubtype_trans h.ty_isSubtype hw
  | boundedVar _ bound => by
    rw [extent]
    exact extent_hereditary rule bound
  | union ds => by
    rw [extent]
    rintro v w h ⟨S, hS, hw⟩
    exact ⟨S, hS, extents_hereditary rule ds S hS v w h hw⟩
  | list => by
    rw [extent]
    rintro v _ h ⟨bs, rfl⟩
    obtain ⟨as, rfl, -⟩ := h.list_inv
    exact ⟨as, rfl⟩
  | listOf d => by
    rw [extent]
    rintro v _ h ⟨bs, rfl, hbs⟩
    obtain ⟨as, rfl, has⟩ := h.list_inv
    exact ⟨as, rfl, (extent_hereditary rule d).forall_mem has hbs⟩
  | tuple [] => by
    rw [extent]
    rintro v _ h ⟨bs, rfl⟩
    obtain ⟨as, rfl, -⟩ := h.tuple_inv
    exact ⟨as, rfl⟩
  | tuple (d :: ds) => by
    rw [extent]
    rintro v _ h ⟨bs, rfl, hbs⟩
    obtain ⟨as, rfl, has⟩ := h.tuple_inv
    have hall : ∀ S ∈ extent rule d :: extents rule ds, Hereditary S :=
      List.forall_mem_cons.2 ⟨extent_hereditary rule d, extents_hereditary rule ds⟩
    exact ⟨as, rfl, Hereditary.forall₂_mem hall has hbs⟩
  | dict => by
    rw [extent]
    rintro v _ h ⟨bs, rfl⟩
    obtain ⟨as, rfl, -⟩ := h.dict_inv
    exact ⟨as, rfl⟩
  | dictOf k d => by
    rw [extent]
    rintro v _ h ⟨bs, rfl, hbs⟩
    obtain ⟨as, rfl, hkeys, hvalues⟩ := h.dict_inv
    have hk := (extent_hereditary rule k).forall_mem hkeys
      (List.forall_mem_map.2 fun b hb => (hbs b hb).1)
    have hd := (extent_hereditary rule d).forall_mem hvalues
      (List.forall_mem_map.2 fun b hb => (hbs b hb).2)
    exact ⟨as, rfl, fun a ha =>
      ⟨hk _ (List.mem_map_of_mem ha), hd _ (List.mem_map_of_mem ha)⟩⟩

theorem extents_hereditary (rule : TypeRefRule) :
    ∀ ds : List Descriptor, ∀ S ∈ extents rule ds, Hereditary S
  | [] => by simp [extents]
  | d :: ds => by
    rw [extents]
    exact List.forall_mem_cons.2 ⟨extent_hereditary rule d, extents_hereditary rule ds⟩
end

/-- Where a descriptor without `NoReturn` outside `Callable[...]` accepts a value, it accepts
whatever refines the value. -/
theorem refined_value_is_accepted (rule : TypeRefRule) (d : Descriptor) (v w : Value)
    (hfree : d.NoReturnFree) (href : Refines v w) (h : d.accepts rule w = .ok true) :
    d.accepts rule v = .ok true := by
  have hw : w ∈ d.extent rule := ((accepts_answers rule d w).right true h).1 rfl
  have hv : v ∈ d.extent rule := extent_hereditary rule d v w href hw
  obtain ⟨b, hb⟩ := (accepts_answers rule d v).answered hfree
  rw [hb, ((accepts_answers rule d v).right b hb).2 hv]

/-- A class. -/
def animal : Class := ⟨0, "Animal", .builtin .object⟩

/-- A class below it. -/
def dog : Class := ⟨1, "Dog", animal.ty⟩

/-- `Dict[String: List[Tuple[Int, Union[None, Animal]]]]` -/
def registry : Descriptor :=
  .dictOf (.nominal (.builtin .string))
    (.listOf (.tuple [.nominal (.builtin .int), .union [.none, .nominal animal.ty]]))

theorem dog_is_accepted_as_animal :
    registry.accepts .subtype
        (.dict [(.str "a", .list [.tuple [.int 4, .object 7 animal]])]) = .ok true ∧
      registry.accepts .subtype
        (.dict [(.str "b", .list [.tuple [.bool true, .object 9 dog]])]) = .ok true := by
  have hfree : registry.NoReturnFree := by simp [registry, NoReturnFree, AllNoReturnFree]
  have hanimal : registry.accepts .subtype
      (.dict [(.str "a", .list [.tuple [.int 4, .object 7 animal]])]) = .ok true := rfl
  refine ⟨hanimal, refined_value_is_accepted _ _ _ _ hfree ?_ hanimal⟩
  refine .dict (.cons (.nominal rfl rfl rfl) .nil) (.cons (.list (.cons (.tuple ?_) .nil)) .nil)
  exact .cons (.nominal rfl rfl rfl) (.cons (.nominal rfl rfl rfl) .nil)

end Descriptor

end CallGuard
