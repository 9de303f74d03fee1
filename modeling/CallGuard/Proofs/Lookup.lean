import CallGuard.Proofs.Access
import CallGuard.Proofs.Ancestry

/-!
# Where a method comes from

A method is that of the first class on the chain of bases that has one of its own
(`Ty.method?_eq_findSome?`), and this is the chain on which subtypes are looked for. What it is given
as its receiver depends on its kind and on the way that leads to it, but never on the class that it
comes from (`Method.exec_access_of_receiver?`).
-/

namespace CallGuard

namespace Ty

/-- The method that a class itself has under a name. Built-in types have none. -/
def own? (w : World) : Ty → String → Option Method
  | builtin _, _ => none
  | declared id _ _, name => (w.methodsOf id).get? name

theorem method?_eq_findSome? (w : World) (t : Ty) (name : String) :
    t.method? w name = t.ancestors.findSome? fun u => u.own? w name := by
  induction t with
  | builtin b =>
    rw [method?, eq_comm, List.findSome?_eq_none_iff]
    intro u hu
    obtain ⟨c, -, rfl⟩ := List.mem_map.1 hu
    rfl
  | declared id n base ih =>
    rw [ancestors, List.findSome?_cons, own?, method?, ih]
    rcases (w.methodsOf id).get? name with _ | m <;> rfl

theorem method?_eq_none_iff {w : World} {t : Ty} {name : String} :
    t.method? w name = none ↔ ∀ u, t.isSubtype u = true → u.own? w name = none := by
  simp only [method?_eq_findSome?, List.findSome?_eq_none_iff, isSubtype_iff]

/-- The class `u`, met after `n` steps up from `t`, is the first with a method of its own under the
name, and the method is `m`. -/
structure FirstWith (w : World) (name : String) (t : Ty) (n : Nat) (u : Ty) (m : Method) : Prop where
  up : t.up n = some u
  own : u.own? w name = some m
  before : ∀ j < n, ∀ v, t.up j = some v → v.own? w name = none

theorem FirstWith.unique {w : World} {name : String} {t u u' : Ty} {n n' : Nat} {m m' : Method}
    (h : FirstWith w name t n u m) (h' : FirstWith w name t n' u' m') : m = m' := by
  rcases Nat.lt_trichotomy n n' with hlt | rfl | hlt
  · have hnone := h'.before n hlt u h.up
    simp [h.own] at hnone
  · obtain rfl : u = u' := by simpa [h.up] using h'.up
    simpa [h.own] using h'.own
  · have hnone := h.before n' hlt u' h'.up
    simp [h'.own] at hnone

theorem exists_firstWith_of_method? {w : World} {t : Ty} {name : String} {m : Method}
    (h : t.method? w name = some m) : ∃ n u, FirstWith w name t n u m := by
  rw [method?_eq_findSome?, List.findSome?_eq_some_iff] at h
  obtain ⟨before, u, after, hchain, hown, hbefore⟩ := h
  refine ⟨before.length, u, ?_, hown, fun j hj v hv => hbefore v ?_⟩
  · simp [← ancestors_getElem?, hchain]
  · rw [← ancestors_getElem?, hchain, List.getElem?_append_left hj] at hv
    exact List.mem_of_getElem? hv

theorem method?_eq_some_iff {w : World} {t : Ty} {name : String} {m : Method} :
    t.method? w name = some m ↔ ∃ n u, FirstWith w name t n u m := by
  refine ⟨exists_firstWith_of_method?, ?_⟩
  rintro ⟨n, u, h⟩
  rcases hm : t.method? w name with _ | m'
  · have hnone := method?_eq_none_iff.1 hm u (isSubtype_iff_up.2 ⟨n, h.up⟩)
    simp [h.own] at hnone
  · obtain ⟨n', u', h'⟩ := exists_firstWith_of_method? hm
    rw [h.unique h']

/-- Whatever sets it up, an object that is made of a type is new and has that type. -/
theorem exists_object_of_instantiateWith {run : Behaviour} {t : Ty} {args : List Value}
    {w w' : World} {v : Value} (h : (t.instantiateWith run args).exec w = (.ok v, w')) :
    ∃ cls : Class, cls.ty = t ∧ v = .object w.fresh cls := by
  cases t with
  | builtin b => simp [instantiateWith] at h
  | declared id n base =>
    have hnew : (Run.newObject ⟨id, n, base⟩).exec w =
      (.ok (.object w.fresh ⟨id, n, base⟩), w.spendId) := rfl
    rw [instantiateWith, Run.exec_bind_ok hnew] at h
    refine ⟨⟨id, n, base⟩, rfl, ?_⟩
    rcases hm : ((Value.object w.fresh ⟨id, n, base⟩).member initializerName).exec w.spendId with
      ⟨f | c, w₁⟩
    · rw [Run.exec_bind_error hm] at h
      cases h
    · rw [Run.exec_bind_ok hm] at h
      rcases c with _ | c
      · exact Run.eq_of_exec_bind_pure h
      · exact Run.eq_of_exec_bind_pure h

end Ty

theorem Method.exec_access_of_receiver? (m : Method) (cls : Ty) (object : Option Value) (w : World) :
    (m.access cls object).exec w =
      ((m.receiver? cls object).elim (.ok m.callable, w) fun r =>
        (.ok (.bound w.fresh r m.callable), w.spendId)) := by
  obtain ⟨kind, callable⟩ := m
  cases kind <;> cases object <;> rfl

namespace Value.Leads

variable {E : Ty} {v : Value} {object : Option Value} {name : String} {w : World}

/-- A member is the method with its receiver supplied, where this way supplies one. -/
theorem exec_member_of_method? (h : Leads E v object) {m : Method}
    (hm : E.method? w name = some m) :
    (v.member name).exec w =
      ((m.receiver? E object).elim (.ok (some m.callable), w) fun r =>
        (.ok (some (.bound w.fresh r m.callable)), w.spendId)) := by
  rw [h.exec_member hm, Run.exec_bind, Method.exec_access_of_receiver?]
  rcases m.receiver? E object with _ | r <;> rfl

theorem exec_member_of_none (h : Leads E v object) (hm : E.method? w name = .none) :
    (v.member name).exec w = (.ok .none, w) := by
  cases h with
  | object id cls hcls =>
    subst hcls
    rw [member, Run.exec_bind_ok (Run.exec_method? _ name w), hm]
    rfl
  | type =>
    rw [member, Run.exec_bind_ok (Run.exec_method? _ name w), hm]
    rfl

end Value.Leads

/-- A declared class has the methods of its definition, for as long as the world runs on. -/
theorem ClassDef.own?_eq {d : ClassDef} {C : Ty} {w₀ w₁ w : World}
    (hdeclared : d.declare.exec w₀ = (.ok C, w₁)) (hlater : w₁.Keeps w) (name : String) :
    C.own? w name = d.methods.get? name := by
  obtain ⟨rfl, hfresh, hmethods, -⟩ := declare_spec hdeclared
  rw [Ty.own?, hlater.methods w₀.fresh (by omega), hmethods]

theorem ClassDef.method?_eq {d : ClassDef} {C : Ty} {w₀ w₁ w : World}
    (hdeclared : d.declare.exec w₀ = (.ok C, w₁)) (hlater : w₁.Keeps w) (name : String) :
    C.method? w name = d.method? w name := by
  have hown := ClassDef.own?_eq hdeclared hlater name
  obtain ⟨rfl, -, -, -⟩ := declare_spec hdeclared
  rw [Ty.own?] at hown
  rw [Ty.method?, ClassDef.method?, hown]

/-- Methods come from the chain of bases and are bound on the way to them. Let `C` be declared and
let the world run on. The method of `C` under a name is the one that its definition finds, and it is
that of the first class on the way up from `C` that has one of its own; there is none exactly if no
supertype of `C` has one, where the supertypes are what is met on this way. Reached through an object
of `C`, a method has the object or `C` itself before its arguments, or nothing, as its kind says;
reached through `C`, only methods on the class have a receiver, and it is `C`. An object that is made
of `C` is of type `C`, wherever its initializer comes from. -/
theorem method_resolution_follows_the_chain (d : ClassDef) (C : Ty) (w₀ w₁ w : World)
    (hdeclared : d.declare.exec w₀ = (.ok C, w₁)) (hlater : w₁.Keeps w) (name : String) :
    C.own? w name = d.methods.get? name ∧ C.method? w name = d.method? w name ∧
    (∀ u, C.isSubtype u = true ↔ ∃ n, C.up n = some u) ∧
    (∀ m, C.method? w name = some m ↔ ∃ n u, Ty.FirstWith w name C n u m) ∧
    (C.method? w name = none ↔ ∀ u, C.isSubtype u = true → u.own? w name = none) ∧
    (∀ m id cls, C.method? w name = some m → cls.ty = C →
      (m.kind = .onObject → ((Value.object id cls).member name).exec w =
        (.ok (some (.bound w.fresh (.object id cls) m.callable)), w.spendId)) ∧
      (m.kind = .onClass → ((Value.object id cls).member name).exec w =
        (.ok (some (.bound w.fresh (.type C) m.callable)), w.spendId)) ∧
      (m.kind = .static → ((Value.object id cls).member name).exec w =
        (.ok (some m.callable), w))) ∧
    (∀ m, C.method? w name = some m →
      (m.kind = .onClass → ((Value.type C).member name).exec w =
        (.ok (some (.bound w.fresh (.type C) m.callable)), w.spendId)) ∧
      (m.kind ≠ .onClass → ((Value.type C).member name).exec w = (.ok (some m.callable), w))) ∧
    (C.method? w name = none → ∀ v object, Value.Leads C v object →
      (v.member name).exec w = (.ok none, w)) ∧
    ∀ run args v w', (C.instantiateWith run args).exec w = (.ok v, w') →
      v.ty = C ∧ ∃ cls, v = .object w.fresh cls := by
  refine ⟨ClassDef.own?_eq hdeclared hlater name, ClassDef.method?_eq hdeclared hlater name,
    fun u => Ty.isSubtype_iff_up, fun m => Ty.method?_eq_some_iff, Ty.method?_eq_none_iff,
    fun m id cls hm hcls => ?_, fun m hm => ?_, fun hm v object hv => hv.exec_member_of_none hm,
    fun run args v w' h => ?_⟩
  · rw [(Value.Leads.object id cls hcls).exec_member_of_method? hm]
    refine ⟨fun hkind => ?_, fun hkind => ?_, fun hkind => ?_⟩ <;>
      simp [Method.receiver?, hkind]
  · rw [Value.Leads.type.exec_member_of_method? hm]
    refine ⟨fun hkind => by simp [Method.receiver?, hkind], fun hkind => ?_⟩
    rcases hk : m.kind with _ | _ | _
    · simp [Method.receiver?, hk]
    · exact absurd hk hkind
    · simp [Method.receiver?, hk]
  · obtain ⟨cls, rfl, rfl⟩ := Ty.exists_object_of_instantiateWith h
    exact ⟨rfl, cls, rfl⟩

/-- A class with an initializer, and with a method on the class that makes an object of it. -/
def mould : ClassDef :=
  box.addMethod .onClass
    (.function 1 "cast" ⟨[⟨"cls", false, none, none⟩], none⟩ [] (.new (.arg 0 0) [.const (.int 1)]))

/-- What is cast by a class that has `cast` and the initializer from `mould` is of that class. -/
theorem inherited_cast_binds_the_subclass :
    ∃ D E w₁ w c v w', mould.declare.exec (World.start true) = (.ok D, w₁) ∧
      (ClassDef.declare { name := "Crate", base := D }).exec w₁ = (.ok E, w) ∧
      ((Value.type E).member "cast").exec w = (.ok (some (.bound w.fresh (.type E) c)), w.spendId) ∧
      (E.instantiateWith (behaviour 1) [.int 1]).exec w = (.ok v, w') ∧ v.ty = E := by
  obtain ⟨D, w₁, hD⟩ : ∃ D w₁, mould.declare.exec (World.start true) = (.ok D, w₁) := ⟨_, _, rfl⟩
  obtain ⟨E, w, hE⟩ : ∃ E w,
      (ClassDef.declare { name := "Crate", base := D }).exec w₁ = (.ok E, w) := ⟨_, _, rfl⟩
  obtain ⟨-, -, -, -, -, -, hmember, -, hmade⟩ :=
    method_resolution_follows_the_chain _ E w₁ w w hE (.refl w) "cast"
  have hcast : ∃ c, E.method? w "cast" = some ⟨.onClass, c⟩ := by
    cases hD
    cases hE
    exact ⟨_, rfl⟩
  have hv : ∃ v w', (E.instantiateWith (behaviour 1) [.int 1]).exec w = (.ok v, w') := by
    cases hD
    cases hE
    exact ⟨_, _, rfl⟩
  obtain ⟨c, hc⟩ := hcast
  obtain ⟨v, w', hv⟩ := hv
  exact ⟨D, E, w₁, w, c, v, w', hD, hE, (hmember _ hc).1 rfl, hv, (hmade _ _ v w' hv).1⟩

end CallGuard
