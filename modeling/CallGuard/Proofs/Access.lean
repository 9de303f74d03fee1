import CallGuard.Proofs.ClassContracts
import CallGuard.Proofs.Enforcement
import CallGuard.Proofs.Runs

/-!
# Ways to a method

A method is reached through an object, through a class, or by making an object, and it may be that of
a base. Each way ends in the callable that the class was declared with (`Method.exec_access`,
`Ty.Inherits.method?_eq`), so where that callable is under a contract, no way leads past it.
-/

namespace CallGuard

/-- What a method puts before its arguments when it is reached through the class `cls` and, if there
is one, an object of it. -/
def Method.receiver? (m : Method) (cls : Ty) (object : Option Value) : Option Value :=
  match m.kind, object with
  | .onObject, some o => some o
  | .onClass, _ => some (.type cls)
  | .onObject, none => none
  | .static, _ => none

/-- A method that was reached is called as its own callable is, with the receiver in front. -/
theorem Method.exec_access (m : Method) (cls : Ty) (object : Option Value) (w : World) :
    ∃ c w', (m.access cls object).exec w = (.ok c, w') ∧ w'.fields = w.fields ∧
      c.contract? = m.callable.contract? ∧
      ∀ run args, c.callWith run args =
        m.callable.callWith run ((m.receiver? cls object).toList ++ args) := by
  obtain ⟨kind, callable⟩ := m
  rcases kind with _ | _ | _
  · rcases object with _ | o
    · exact ⟨callable, w, rfl, rfl, rfl, fun _ _ => rfl⟩
    · exact ⟨.bound w.fresh o callable, w.spendId, rfl, rfl, rfl, fun _ _ => rfl⟩
  · refine ⟨.bound w.fresh (.type cls) callable, w.spendId, ?_, rfl, rfl, fun _ _ => rfl⟩
    rcases object with _ | _ <;> rfl
  · refine ⟨callable, w, ?_, rfl, rfl, fun _ _ => ?_⟩ <;> rcases object with _ | _ <;> rfl

/-- The class `E` is `D`, or is below it with no method of this name on the way, its own included. -/
inductive Ty.Inherits (w : World) (name : String) (D : Ty) : Ty → Prop where
  | self : Inherits w name D D
  | derived {id : Nat} {n : String} {base : Ty} (own : (w.methodsOf id).get? name = none)
      (rest : Inherits w name D base) : Inherits w name D (.declared id n base)

theorem Ty.Inherits.method?_eq {w : World} {name : String} {D E : Ty}
    (h : Inherits w name D E) : E.method? w name = D.method? w name := by
  induction h with
  | self => rfl
  | derived own rest ih => rw [method?, own, ih]

/-- A value through which the members of the class `E` are reached, with the object that methods are
then given. -/
inductive Value.Leads (E : Ty) : Value → Option Value → Prop where
  | object (id : Nat) (cls : Class) (h : cls.ty = E) :
      Leads E (.object id cls) (some (.object id cls))
  | type : Leads E (.type E) .none

theorem Value.Leads.exec_member {E : Ty} {v : Value} {object : Option Value} (h : Leads E v object)
    {name : String} {m : Method} {w : World} (hm : E.method? w name = some m) :
    (v.member name).exec w = (m.access E object >>= fun c => pure (some c)).exec w := by
  cases h with
  | object id cls hcls =>
    subst hcls
    rw [member, Run.exec_bind_ok (Run.exec_method? _ name w), hm]
  | type => rw [member, Run.exec_bind_ok (Run.exec_method? _ name w), hm]

theorem Ty.method?_congr {w w' : World} (h : w.methods = w'.methods) (name : String) (t : Ty) :
    t.method? w name = t.method? w' name := by
  induction t with
  | builtin b => rfl
  | declared id n base ih => rw [method?, method?, World.methodsOf, World.methodsOf, h, ih]

/-- To make an object of a class that has an initializer is to call the initializer, reached through
the new object. -/
theorem Ty.exec_instantiateWith {cls : Class} {m : Method} {c : Callable} {w w' : World}
    (hm : cls.ty.method? w initializerName = some m)
    (haccess : (m.access cls.ty (some (.object w.fresh cls))).exec w.spendId = (.ok c, w'))
    (run : Behaviour) (args : List Value) :
    (cls.ty.instantiateWith run args).exec w =
      (c.callWith run args >>= fun _ => pure (.object w.fresh cls)).exec w' := by
  have hnew : (Run.newObject cls).exec w = (.ok (.object w.fresh cls), w.spendId) := rfl
  have hsame : w.spendId.methods = w.methods := rfl
  have hm' : cls.ty.method? w.spendId initializerName = some m :=
    (Ty.method?_congr hsame _ _).trans hm
  have hmember : ((Value.object w.fresh cls).member initializerName).exec w.spendId =
      (.ok (some c), w') := by
    rw [(Value.Leads.object w.fresh cls rfl).exec_member hm', Run.exec_bind_ok haccess,
      Run.exec_pure]
  unfold Class.ty instantiateWith
  rw [Run.exec_bind_ok hnew, Run.exec_bind_ok hmember]

namespace ClassDef

/-- A class without a method of its own under a name has it from its base, as far up as that. -/
theorem inherits_of_declare {d : ClassDef} {D E : Ty} {w w' : World}
    (h : d.declare.exec w = (.ok E, w')) {name : String} (hn : d.methods.get? name = none)
    (hbase : Ty.Inherits w' name D d.base) : Ty.Inherits w' name D E := by
  obtain ⟨rfl, -, hmethods, -⟩ := declare_spec h
  refine .derived ?_ hbase
  rwa [hmethods]

/-- Under the name of an exposed method, a class that has contracts and whatever inherits the method
from it have the method under its contract, for as long as the world runs on. -/
theorem Applied.method?_eq {e : Engine} {d d' : ClassDef} (h : Applied e d d') {D E : Ty}
    {w₂ w₃ w : World} (hdeclared : d'.declare.exec w₂ = (.ok D, w₃)) (hlater : w₃.Keeps w)
    {name : String} {m : Method} (hE : Ty.Inherits w name D E)
    (hm : d.methods.get? name = some m) (hx : Exposed name) :
    ∃ id k, e.contractFor m.callable.signature = .ok k ∧
      E.method? w name = some ⟨m.kind, .guarded id m.callable k e.config.rule⟩ := by
  obtain ⟨⟨kind, callable⟩, hm', hkind, hexposed, -⟩ := h.method name m hm
  obtain ⟨id, k, hcallable, hk, -⟩ := hexposed hx
  obtain rfl : kind = m.kind := hkind
  obtain rfl : callable = .guarded id m.callable k e.config.rule := hcallable
  obtain ⟨rfl, hfresh, hmethods, -⟩ := declare_spec hdeclared
  refine ⟨id, k, hk, ?_⟩
  rw [hE.method?_eq, Ty.method?, hlater.methods w₂.fresh (by omega), hmethods, hm']

end ClassDef

/-- No way to a method leads past the contract of its class. Let contracts be applied to a definition
and let it then be declared as `D`, and let `E` be `D` or a class below it that has the exposed method
`m` of `D` from there. Then the member of this name of every object of `E`, and of `E` itself, has the
contract `k` of the signature of `m`, at any later time. Whoever calls it calls what `m` was before
the contracts under `k`, with the receiver in front where this way binds one; so does whoever makes an
object of `E`, if `m` is the initializer. -/
theorem class_contract_is_not_bypassed (e : Engine) (d d' : ClassDef) (n : Nat) (D E : Ty)
    (w₀ w₁ w₂ w₃ w : World) (name : String) (m : Method)
    (happlied : e.applyToClass.exec (d, w₀) = (.ok n, (d', w₁)))
    (hdeclared : d'.declare.exec w₂ = (.ok D, w₃)) (hlater : w₃.Keeps w)
    (hE : Ty.Inherits w name D E) (hm : d.methods.get? name = some m)
    (hx : ClassDef.Exposed name) :
    ∃ k, e.contractFor m.callable.signature = .ok k ∧
      (∀ v object, Value.Leads E v object → ∃ c w', (v.member name).exec w = (.ok (some c), w') ∧
        w'.fields = w.fields ∧ c.contract? = some k ∧
        ∀ args, ∃ call,
          k.Held e.config.rule m.callable.name ((m.receiver? E object).toList ++ args) call ∧
          ∀ run, c.callWith run args = call fun given => m.callable.callWith run given) ∧
      (name = initializerName → ∀ args, ∃ cls w' call, cls.ty = E ∧ w'.fields = w.fields ∧
        k.Held e.config.rule m.callable.name
          ((m.receiver? E (some (.object w.fresh cls))).toList ++ args) call ∧
        ∀ run, (E.instantiateWith run args).exec w =
          (call (fun given => m.callable.callWith run given) >>= fun _ =>
            pure (.object w.fresh cls)).exec w') := by
  have happ : ClassDef.Applied e d d' := by
    rcases ClassDef.exec_applyToClass_cases e d w₀ with ⟨-, h⟩ | ⟨-, err, w', -, h⟩ |
      ⟨-, -, d'', w', hd'', h⟩
    · simp [h] at happlied
    · simp [h] at happlied
    · rw [h] at happlied
      cases happlied
      exact hd''
  obtain ⟨id, k, hk, hmethod⟩ := happ.method?_eq hdeclared hlater hE hm hx
  refine ⟨k, hk, fun v object hv => ?_, ?_⟩
  · obtain ⟨c, w', haccess, hfields, hcontract, hcall⟩ := Method.exec_access
      ⟨m.kind, .guarded id m.callable k e.config.rule⟩ E object w
    refine ⟨c, w', ?_, hfields, hcontract, fun args => ⟨_, k.held_enforce _ _ _, fun run => ?_⟩⟩
    · rw [hv.exec_member hmethod, Run.exec_bind_ok haccess, Run.exec_pure]
    · rw [hcall, Callable.callWith]
      rfl
  · rintro rfl args
    obtain ⟨cls, rfl⟩ : ∃ cls : Class, cls.ty = E := by
      cases E with
      | builtin b => cases hmethod
      | declared i n base => exact ⟨⟨i, n, base⟩, rfl⟩
    obtain ⟨c, w', haccess, hfields, -, hcall⟩ := Method.exec_access
      ⟨m.kind, .guarded id m.callable k e.config.rule⟩ cls.ty (some (.object w.fresh cls)) w.spendId
    refine ⟨cls, w', _, rfl, hfields, k.held_enforce _ _ _, fun run => ?_⟩
    rw [Ty.exec_instantiateWith hmethod haccess, hcall, Callable.callWith]
    rfl

/-- A class whose objects are set up with an integer. -/
def box : ClassDef :=
  ({ name := "Box" } : ClassDef).addInitializer
    (.function 0 "__init__"
      ⟨[⟨"self", false, none, none⟩, ⟨"size", false, none, some (.ty (.builtin .int))⟩], none⟩ []
      (.set (.arg 0 0) "size" (.arg 0 1)))

/-- The initializer of a class that has it from `box` is under the contract of `box`. -/
theorem box_contract_is_not_bypassed :
    ∃ n box' D crate w₁ w₃ w c w',
      ({} : Engine).applyToClass.exec (box, World.start true) = (.ok n, (box', w₁)) ∧
      box'.declare.exec w₁ = (.ok D, w₃) ∧
      (ClassDef.declare { name := "Crate", base := D }).exec w₃ = (.ok crate, w) ∧
      ((Value.type crate).member initializerName).exec w = (.ok (some c), w') ∧
      c.contract? = some
        { params := [⟨"self", .any, false⟩, ⟨"size", .nominal (.builtin .int), false⟩]
          result := .any } := by
  rcases ClassDef.exec_applyToClass_cases {} box (World.start true) with ⟨h, -⟩ |
    ⟨-, err, -, ⟨name, m, hm, -, herr, -⟩, -⟩ | ⟨-, -, box', w₁, -, happlied⟩
  · cases h
  · rcases List.mem_singleton.1 (OrderedMap.get?_eq_some_iff.1 hm) with ⟨⟩
    cases herr
  · obtain ⟨D, w₃, hD⟩ : ∃ D w₃, box'.declare.exec w₁ = (.ok D, w₃) := ⟨_, _, rfl⟩
    obtain ⟨crate, w, hcrate⟩ : ∃ crate w,
        (ClassDef.declare { name := "Crate", base := D }).exec w₃ = (.ok crate, w) := ⟨_, _, rfl⟩
    obtain ⟨k, hk, hmember, -⟩ := class_contract_is_not_bypassed {} box box' _ D crate _ w₁ w₁ w₃ w
      initializerName _ happlied hD (ClassDef.declare_spec hcrate).2.2.2
      (ClassDef.inherits_of_declare hcrate rfl .self) rfl (by decide +kernel)
    cases hk
    obtain ⟨c, w', hc, -, hcontract, -⟩ := hmember _ _ .type
    exact ⟨_, box', D, crate, w₁, w₃, w, c, w', happlied, hD, hcrate, hc, hcontract⟩

end CallGuard
