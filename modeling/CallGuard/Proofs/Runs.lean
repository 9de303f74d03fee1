import CallGuard.Proofs.Lists
import CallGuard.Proofs.Renaming

/-!
# What holds of every run

Nothing that a program does depends on which numbers serve as identities, or on the log. Two
computations are alike (`Run.Alike`) if, in worlds that differ in this way only, they have outcomes and
leave worlds that differ in this way only. The primitive steps are alike, and so is what is put
together of parts that are alike; hence every call is, as soon as bodies are
(`Run.Alike.callWith`), and bodies are (`behaviour_uniform`). It follows that the log has no influence
(`Run.Alike.exec_eq`) and that no identity becomes known that was not given away (`Run.Alike.sound`).
-/

namespace CallGuard

/-! ## Worlds with other identities -/

/-- Every class that `w` knows has in `w'` the methods it has in `w`. -/
structure World.Keeps (w w' : World) : Prop where
  fresh : w.fresh ≤ w'.fresh
  methods : ∀ id < w.fresh, w'.methodsOf id = w.methodsOf id

theorem World.Keeps.refl (w : World) : w.Keeps w := ⟨Nat.le_refl _, fun _ _ => rfl⟩

theorem World.Keeps.trans {w w' w'' : World} (h : w.Keeps w') (h' : w'.Keeps w'') :
    w.Keeps w'' where
  fresh := Nat.le_trans h.fresh h'.fresh
  methods id hid := (h'.methods id (Nat.lt_of_lt_of_le hid h.fresh)).trans (h.methods id hid)

theorem World.Keeps.of_eq {w w' : World} (hf : w.fresh ≤ w'.fresh) (hm : w'.methods = w.methods) :
    w.Keeps w' :=
  ⟨hf, fun id _ => by rw [methodsOf, methodsOf, hm]⟩

/-- The objects and classes of `w'` are those of `w` with other identities. -/
structure World.Renamed (π : Nat → Nat) (w w' : World) : Prop where
  fields : ∀ i, w'.fields.get? (π i) =
    (w.fields.get? i).map (OrderedMap.map fun _ v => v.rename π)
  methods : ∀ i, w'.methods.get? i =
    (w.methods.get? i).map (OrderedMap.map fun _ m => m.rename π)

/-- So are the objects that come next: the identities that `w` gives away before it reaches `n` are
renamed to those that `w'` gives away at the same time. -/
structure World.Tracks (π : Nat → Nat) (n : Nat) (w w' : World) : Prop extends
    World.Renamed π w w' where
  aligned : ∀ i, w.fresh + i < n → π (w.fresh + i) = w'.fresh + i

namespace World

variable {π : Nat → Nat} {n : Nat} {w w' : World}

theorem Renamed.fieldsOf (h : w.Renamed π w') (i : Nat) :
    w'.fieldsOf (π i) = (w.fieldsOf i).map fun _ v => v.rename π := by
  rw [World.fieldsOf, World.fieldsOf, h.fields i]
  rcases w.fields.get? i with _ | m <;> rfl

theorem Renamed.methodsOf (h : w.Renamed π w') (i : Nat) :
    w'.methodsOf i = (w.methodsOf i).map fun _ m => m.rename π := by
  rw [World.methodsOf, World.methodsOf, h.methods i]
  rcases w.methods.get? i with _ | m <;> rfl

theorem Renamed.note (h : w.Renamed π w') (events events' : List Event) :
    (w.note events).Renamed π (w'.note events') :=
  ⟨by simpa using h.fields, by simpa using h.methods⟩

theorem Tracks.note (h : w.Tracks π n w') (events events' : List Event) :
    (w.note events).Tracks π n (w'.note events') :=
  ⟨h.toRenamed.note events events', by simpa using h.aligned⟩

theorem Tracks.spendId (h : w.Tracks π n w') : w.spendId.Tracks π n w'.spendId where
  fields := h.fields
  methods := h.methods
  aligned i hi := by
    have hi' := h.aligned (1 + i) (by simp only [World.spendId] at hi; omega)
    simp only [World.spendId]
    rw [Nat.add_assoc, hi', Nat.add_assoc]

end World

theorem Ty.method?_rename {π : Nat → Nat} {w w' : World} (h : w.Renamed π w')
    (name : String) (t : Ty) : t.method? w' name = (t.method? w name).map (Method.rename π) := by
  induction t with
  | builtin b => rfl
  | declared id cls base ih =>
    rw [method?, method?, h.methodsOf id, OrderedMap.get?_map]
    rcases (w.methodsOf id).get? name with _ | m
    · exact ih
    · rfl

namespace Run

variable {α β : Type}

/-- Two computations do the same, but for the identities. Neither looks at the log. -/
structure Alike (π : Nat → Nat) (ren : α → α) (x x' : Run α) : Prop where
  keeps : ∀ w : World, w.Keeps (x.exec w).2
  exec : ∀ {n : Nat} {w w' : World}, w.Tracks π n w' → (x.exec w).2.fresh ≤ n →
    (x'.exec w').1 = (x.exec w).1.map ren ∧ (x.exec w).2.Tracks π n (x'.exec w').2

namespace Alike

variable {π : Nat → Nat} {ren : α → α} {ren' : β → β}

theorem pure {a a' : α} (h : a' = ren a) : Alike π ren (pure a) (pure a') where
  keeps w := .refl w
  exec hw _ := ⟨by rw [h]; rfl, hw⟩

theorem throw (f : Fault) : Alike π ren (throw f) (throw f) where
  keeps w := .refl w
  exec hw _ := ⟨rfl, hw⟩

theorem bind {x x' : Run α} {f f' : α → Run β} (hx : Alike π ren x x')
    (hf : ∀ a, Alike π ren' (f a) (f' (ren a))) : Alike π ren' (x >>= f) (x' >>= f') where
  keeps w := by
    have hxw := hx.keeps w
    rw [exec_bind]
    rcases hw : x.exec w with ⟨e | a, w₁⟩ <;> rw [hw] at hxw
    · exact hxw
    · exact hxw.trans ((hf a).keeps w₁)
  exec {n w w'} hw hn := by
    rw [exec_bind] at hn ⊢
    rw [exec_bind]
    have hxw := hx.exec hw
    rcases hxe : x.exec w with ⟨e | a, w₁⟩ <;> rw [hxe] at hn hxw
    · obtain ⟨hr, hw₁⟩ := hxw hn
      rcases hxe' : x'.exec w' with ⟨e' | a', w₁'⟩ <;> rw [hxe'] at hr hw₁ <;> cases hr
      exact ⟨rfl, hw₁⟩
    · obtain ⟨hr, hw₁⟩ := hxw (Nat.le_trans ((hf a).keeps w₁).fresh hn)
      rcases hxe' : x'.exec w' with ⟨e' | a', w₁'⟩ <;> rw [hxe'] at hr hw₁ <;> cases hr
      exact (hf a).exec hw₁ hn

theorem record (events events' : Unit → List Event) :
    Alike π id (Run.record events) (Run.record events') where
  keeps w := .of_eq (by simp) (by simp)
  exec hw _ := ⟨rfl, hw.note _ _⟩

theorem newId : Alike π π Run.newId Run.newId where
  keeps w := .of_eq (Nat.le_succ _) rfl
  exec hw hn := by
    refine ⟨?_, hw.spendId⟩
    have hfresh := hw.aligned 0 hn
    rw [exec_newId, exec_newId]
    exact congrArg Except.ok hfresh.symm

theorem method? (t : Ty) (name : String) :
    Alike π (Option.map (Method.rename π)) (Run.method? t name) (Run.method? t name) where
  keeps w := .refl w
  exec hw _ := ⟨congrArg Except.ok (Ty.method?_rename hw.toRenamed name t), hw⟩

theorem getField (i : Nat) (field : String) :
    Alike π (Option.map (Value.rename π)) (Run.getField i field) (Run.getField (π i) field) where
  keeps w := .refl w
  exec {_ w w'} hw _ := by
    refine ⟨congrArg Except.ok ?_, hw⟩
    show (w'.fieldsOf (π i)).get? field = ((w.fieldsOf i).get? field).map (Value.rename π)
    rw [hw.fieldsOf, OrderedMap.get?_map]

theorem setField (hπ : Function.Injective π) (i : Nat) (field : String) (v : Value) :
    Alike π id (Run.setField i field v) (Run.setField (π i) field (v.rename π)) where
  keeps w := .of_eq (Nat.le_refl _) rfl
  exec {_ w w'} hw _ := by
    refine ⟨rfl, ⟨fun j => ?_, hw.methods⟩, hw.aligned⟩
    show (w'.fields.insert (π i) ((w'.fieldsOf (π i)).insert field (v.rename π))).get? (π j) =
      ((w.fields.insert i ((w.fieldsOf i).insert field v)).get? j).map
        (OrderedMap.map fun _ v => v.rename π)
    rw [OrderedMap.get?_insert, OrderedMap.get?_insert]
    by_cases hj : j = i
    · rw [if_pos hj, if_pos (congrArg π hj), Option.map_some, OrderedMap.map_insert, hw.fieldsOf]
    · rw [if_neg hj, if_neg fun h => hj (hπ h), hw.fields]

theorem ofMisuse (x : Except Misuse α) : Alike π id (Run.ofMisuse x) (Run.ofMisuse x) := by
  rcases x with m | a
  · exact .throw _
  · exact .pure rfl

theorem accepts (rule : TypeRefRule) (d : Descriptor) (v : Value) :
    Alike π id (Run.accepts rule d v) (Run.accepts rule d (v.rename π)) := by
  refine .bind (.record _ _) fun _ => ?_
  rw [Descriptor.accepts_rename]
  exact .ofMisuse _

theorem newObject (cls : Class) :
    Alike π (Value.rename π) (Run.newObject cls) (Run.newObject cls) :=
  .bind .newId fun _ => .pure rfl

theorem bindTo (receiver : Value) (c : Callable) :
    Alike π (Callable.rename π) (Run.bind receiver c)
      (Run.bind (receiver.rename π) (c.rename π)) :=
  .bind .newId fun _ => .pure rfl

theorem guarded (c : Callable) (k : Contract) (rule : TypeRefRule) :
    Alike π (Callable.rename π) (Run.guarded c k rule) (Run.guarded (c.rename π) k rule) :=
  .bind (.record _ _) fun _ => .bind .newId fun _ => .pure rfl

theorem newFunction (name : String) (s : Signature Value) (frames : List (List Value)) (b : Body) :
    Alike π (Callable.rename π) (Run.newFunction name s frames b)
      (Run.newFunction name (s.map (Value.rename π)) (frames.map (List.map (Value.rename π)))
        (b.rename π)) :=
  .bind .newId fun _ => .pure (by rw [Callable.rename_function])

theorem checkArguments (rule : TypeRefRule) (function : String) (ps : List ParamContract)
    (args : List Value) :
    Alike π id (Contract.checkArguments rule function ps args)
      (Contract.checkArguments rule function ps (args.map (Value.rename π))) := by
  induction ps generalizing args with
  | nil => exact .pure rfl
  | cons p ps ih =>
    rcases args with _ | ⟨a, args⟩
    · exact .pure rfl
    · rw [List.map_cons, Contract.checkArguments, Contract.checkArguments]
      refine .bind (.accepts _ _ _) fun b => ?_
      cases b
      · refine .bind (.record _ _) fun _ => ?_
        rw [Value.typeName_rename]
        exact .throw _
      · exact ih args

theorem checkResult (k : Contract) (rule : TypeRefRule) (function : String) (u : Value) :
    Alike π (Value.rename π) (k.checkResult rule function u)
      (k.checkResult rule function (u.rename π)) := by
  unfold Contract.checkResult
  rw [Contract.returnedContract?_rename]
  rcases k.returnedContract? u with _ | ⟨c, nested⟩
  · refine .bind (.accepts _ _ _) fun b => ?_
    cases b
    · exact .bind (.record _ _) fun _ => .throw _
    · exact .pure rfl
  · exact .bind (.record _ _) fun _ => .bind (.guarded _ _ _) fun _ => .pure rfl

theorem enforce (k : Contract) (rule : TypeRefRule) (function : String)
    {target target' : List Value → Run Value}
    (ht : ∀ given, Alike π (Value.rename π) (target given) (target' (given.map (Value.rename π))))
    (args : List Value) :
    Alike π (Value.rename π) (k.enforce rule function target args)
      (k.enforce rule function target' (args.map (Value.rename π))) := by
  unfold Contract.enforce
  rw [List.length_map]
  exact .bind (.ofMisuse _) fun _ => .bind (.checkArguments _ _ _ _) fun _ =>
    .bind (ht args) fun u => .checkResult k rule function u

end Alike

end Run

/-- What bodies do depends neither on the log nor on the numbers that serve as identities. -/
def Behaviour.Uniform (run : Behaviour) : Prop :=
  ∀ π, Function.Injective π → ∀ frames b, Run.Alike π (Value.rename π) (run frames b)
    (run (frames.map (List.map (Value.rename π))) (b.rename π))

namespace Run.Alike

variable {π : Nat → Nat} {run : Behaviour}

/-- What holds of bodies holds of every call. -/
theorem callWith (hπ : Function.Injective π) (hrun : run.Uniform) :
    ∀ (c : Callable) (args : List Value), Alike π (Value.rename π) (c.callWith run args)
      ((c.rename π).callWith run (args.map (Value.rename π)))
  | .function _ name s frames body, args => by
    rw [Callable.rename_function, Callable.callWith, Callable.callWith, List.length_map,
      Signature.arity_map, Signature.defaultsAfter_map, ← List.map_append]
    exact .bind (.ofMisuse _) fun _ => hrun π hπ _ _
  | .bound _ receiver method, args => by
    rw [Callable.rename, Callable.callWith, Callable.callWith]
    exact callWith hπ hrun method (receiver :: args)
  | .guarded _ target contract rule, args => by
    rw [Callable.rename, Callable.callWith, Callable.callWith, Callable.name_rename]
    exact .enforce contract rule _ (fun given => callWith hπ hrun target given) args

theorem access (m : Method) (cls : Ty) (object : Option Value) :
    Alike π (Callable.rename π) (m.access cls object)
      ((m.rename π).access cls (object.map (Value.rename π))) := by
  obtain ⟨kind, callable⟩ := m
  rcases kind with _ | _ | _ <;> rcases object with _ | o
  · exact .pure rfl
  · exact .bindTo _ _
  · exact .bindTo (.type cls) _
  · exact .bindTo (.type cls) _
  · exact .pure rfl
  · exact .pure rfl

/-- A method that was looked up is reached alike, if there is one. -/
theorem accessAny (m : Option Method) (cls : Ty) (object : Option Value) :
    Alike π (Option.map (Callable.rename π)) 
      (match m with
        | some m => do return some (← m.access cls object)
        | none => return none)
      (match m.map (Method.rename π) with
        | some m => do return some (← m.access cls (object.map (Value.rename π)))
        | none => return none) := by
  rcases m with _ | m
  · exact .pure rfl
  · exact .bind (.access m cls object) fun _ => .pure rfl

theorem member (v : Value) (name : String) :
    Alike π (Option.map (Callable.rename π)) (v.member name) ((v.rename π).member name) := by
  cases v with
  | object i cls => exact .bind (.method? _ _) fun m => .accessAny m cls.ty (some (.object i cls))
  | type t => exact .bind (.method? _ _) fun m => .accessAny m t none
  | _ => exact .pure rfl

theorem instantiateWith (hπ : Function.Injective π) (hrun : run.Uniform) (t : Ty)
    (args : List Value) :
    Alike π (Value.rename π) (t.instantiateWith run args)
      (t.instantiateWith run (args.map (Value.rename π))) := by
  unfold Ty.instantiateWith
  split
  · exact .throw _
  · refine .bind (.newObject _) fun o => .bind (.member _ _) fun m => ?_
    rcases m with _ | init
    · rw [List.length_map]
      exact .bind (.ofMisuse _) fun _ => .pure rfl
    · exact .bind (.callWith hπ hrun init args) fun _ => .pure rfl

theorem callValue (hπ : Function.Injective π) (hrun : run.Uniform) (v : Value) (args : List Value) :
    Alike π (Value.rename π) (Body.callValue run v args)
      (Body.callValue run (v.rename π) (args.map (Value.rename π))) := by
  cases v with
  | callable c => exact .callWith hπ hrun c args
  | _ => exact .throw _

theorem instantiateValue (hπ : Function.Injective π) (hrun : run.Uniform) (v : Value)
    (args : List Value) :
    Alike π (Value.rename π) (Body.instantiateValue run v args)
      (Body.instantiateValue run (v.rename π) (args.map (Value.rename π))) := by
  cases v with
  | type t => exact .instantiateWith hπ hrun t args
  | _ => exact .throw _

mutual
/-- A body does the same on arguments with other identities. -/
theorem eval (hπ : Function.Injective π) (hrun : run.Uniform) (frames : List (List Value)) :
    ∀ b : Body, Alike π (Value.rename π) (b.eval run frames)
      ((b.rename π).eval run (frames.map (List.map (Value.rename π))))
  | .const v => by
    rw [Body.rename, Body.eval, Body.eval]
    exact .pure rfl
  | .arg depth index => by
    rw [Body.rename, Body.eval, Body.eval]
    refine .pure ?_
    rw [List.getD_map_map, List.getElem?_map]
    cases (frames.getD depth [])[index]? <;> rfl
  | .args => by
    rw [Body.rename, Body.eval, Body.eval]
    refine .pure ?_
    rw [List.getD_map_map, Value.rename_list]
  | .raise text => by
    rw [Body.rename, Body.eval, Body.eval]
    exact .throw _
  | .function name signature body => by
    rw [Body.rename, Body.eval, Body.eval]
    exact .bind (evalSignature hπ hrun frames signature) fun s =>
      .bind (.newFunction name s frames body) fun _ => .pure rfl
  | .list items | .tuple items => by
    rw [Body.rename, Body.eval, Body.eval]
    refine .bind (evalAll hπ hrun frames items) fun vs => .pure ?_
    simp only [Value.rename_list, Value.rename_tuple]
  | .dict entries => by
    rw [Body.rename, Body.eval, Body.eval]
    refine .bind (evalEntries hπ hrun frames entries) fun vs => .pure ?_
    rw [Value.rename_dict]
  | .seq items => by
    rw [Body.rename, Body.eval, Body.eval]
    refine .bind (evalAll hπ hrun frames items) fun vs => .pure ?_
    rw [List.getLast?_map]
    cases vs.getLast? <;> rfl
  | .concat items => by
    rw [Body.rename, Body.eval, Body.eval]
    refine .bind (evalAll hπ hrun frames items) fun vs => .pure ?_
    have hstr : Value.str? ∘ Value.rename π = Value.str? := funext (Value.str?_rename π)
    rw [Value.rename, List.filterMap_map, hstr]
  | .add a b | .mul a b => by
    rw [Body.rename, Body.eval, Body.eval]
    refine .bind (eval hπ hrun frames a) fun u => .bind (eval hπ hrun frames b) fun v => .pure ?_
    simp [Body.number, Value.rename]
  | .eq a b => by
    rw [Body.rename, Body.eval, Body.eval]
    refine .bind (eval hπ hrun frames a) fun u => .bind (eval hπ hrun frames b) fun v => .pure ?_
    exact congrArg Value.bool (Value.same_rename hπ u v)
  | .ite cond yes no => by
    rw [Body.rename, Body.eval, Body.eval]
    refine .bind (eval hπ hrun frames cond) fun c => ?_
    cases c with
    | bool b =>
      cases b
      · exact eval hπ hrun frames no
      · exact eval hπ hrun frames yes
    | _ => exact eval hπ hrun frames no
  | .typeName a => by
    rw [Body.rename, Body.eval, Body.eval]
    refine .bind (eval hπ hrun frames a) fun u => .pure ?_
    rw [Value.typeName_rename, Value.rename]
  | .get target field => by
    rw [Body.rename, Body.eval, Body.eval]
    refine .bind (eval hπ hrun frames target) fun o => ?_
    cases o with
    | object i cls =>
      refine .bind (.getField i field) fun v => .pure ?_
      cases v <;> rfl
    | _ => exact .pure rfl
  | .set target field value => by
    rw [Body.rename, Body.eval, Body.eval]
    refine .bind (eval hπ hrun frames target) fun o => .bind (eval hπ hrun frames value) fun v => ?_
    cases o with
    | object i cls => exact .bind (.setField hπ i field v) fun _ => .pure rfl
    | _ => exact .pure rfl
  | .member target name => by
    rw [Body.rename, Body.eval, Body.eval]
    refine .bind (eval hπ hrun frames target) fun o => .bind (.member o name) fun m => ?_
    cases m <;> exact .pure rfl
  | .call target given => by
    rw [Body.rename, Body.eval, Body.eval]
    exact .bind (eval hπ hrun frames target) fun f => .bind (evalAll hπ hrun frames given) fun args =>
      .callValue hπ hrun f args
  | .new target given => by
    rw [Body.rename, Body.eval, Body.eval]
    exact .bind (eval hπ hrun frames target) fun t => .bind (evalAll hπ hrun frames given) fun args =>
      .instantiateValue hπ hrun t args

theorem evalAll (hπ : Function.Injective π) (hrun : run.Uniform) (frames : List (List Value)) :
    ∀ bs : List Body, Alike π (List.map (Value.rename π)) (Body.evalAll run frames bs)
      (Body.evalAll run (frames.map (List.map (Value.rename π))) (Body.renameAll π bs))
  | [] => by
    rw [Body.renameAll, Body.evalAll, Body.evalAll]
    exact .pure rfl
  | b :: bs => by
    rw [Body.renameAll, Body.evalAll, Body.evalAll]
    exact .bind (eval hπ hrun frames b) fun _ => .bind (evalAll hπ hrun frames bs) fun _ =>
      .pure rfl

theorem evalEntries (hπ : Function.Injective π) (hrun : run.Uniform) (frames : List (List Value)) :
    ∀ es : List (Body × Body),
      Alike π (List.map (Prod.map (Value.rename π) (Value.rename π)))
        (Body.evalEntries run frames es)
        (Body.evalEntries run (frames.map (List.map (Value.rename π))) (Body.renameEntries π es))
  | [] => by
    rw [Body.renameEntries, Body.evalEntries, Body.evalEntries]
    exact .pure rfl
  | (k, b) :: es => by
    rw [Body.renameEntries, Body.evalEntries, Body.evalEntries]
    exact .bind (eval hπ hrun frames k) fun _ => .bind (eval hπ hrun frames b) fun _ =>
      .bind (evalEntries hπ hrun frames es) fun _ => .pure rfl

theorem evalSignature (hπ : Function.Injective π) (hrun : run.Uniform)
    (frames : List (List Value)) :
    ∀ s : Signature Body, Alike π (Signature.map (Value.rename π)) (Body.evalSignature run frames s)
      (Body.evalSignature run (frames.map (List.map (Value.rename π))) (Body.renameSignature π s))
  | ⟨params, result⟩ => by
    rw [Body.renameSignature, Body.evalSignature, Body.evalSignature]
    exact .bind (evalParams hπ hrun frames params) fun _ => .pure rfl

theorem evalParams (hπ : Function.Injective π) (hrun : run.Uniform) (frames : List (List Value)) :
    ∀ ps : List (Param Body),
      Alike π (List.map (Param.map (Value.rename π))) (Body.evalParams run frames ps)
        (Body.evalParams run (frames.map (List.map (Value.rename π))) (Body.renameParams π ps))
  | [] => by
    rw [Body.renameParams, Body.evalParams, Body.evalParams]
    exact .pure rfl
  | p :: ps => by
    rw [Body.renameParams, Body.evalParams, Body.evalParams]
    exact .bind (evalParam hπ hrun frames p) fun _ => .bind (evalParams hπ hrun frames ps) fun _ =>
      .pure rfl

theorem evalParam (hπ : Function.Injective π) (hrun : run.Uniform) (frames : List (List Value)) :
    ∀ p : Param Body, Alike π (Param.map (Value.rename π)) (Body.evalParam run frames p)
      (Body.evalParam run (frames.map (List.map (Value.rename π))) (Body.renameParam π p))
  | ⟨name, variadic, default, declared⟩ => by
    rw [Body.renameParam, Body.evalParam, Body.evalParam]
    exact .bind (evalDefault hπ hrun frames default) fun _ => .pure rfl

theorem evalDefault (hπ : Function.Injective π) (hrun : run.Uniform) (frames : List (List Value)) :
    ∀ d : Option Body, Alike π (Option.map (Value.rename π)) (Body.evalDefault run frames d)
      (Body.evalDefault run (frames.map (List.map (Value.rename π))) (Body.renameDefault π d))
  | some b => by
    rw [Body.renameDefault, Body.evalDefault, Body.evalDefault]
    exact .bind (eval hπ hrun frames b) fun _ => .pure rfl
  | none => by
    rw [Body.renameDefault, Body.evalDefault, Body.evalDefault]
    exact .pure rfl
end

end Run.Alike

/-- What bodies do depends neither on the log nor on identities, however deeply calls nest. -/
theorem behaviour_uniform (depth : Nat) : (behaviour depth).Uniform := by
  induction depth with
  | zero => exact fun _ _ _ _ => .throw _
  | succ depth ih => exact fun π hπ frames b => .eval hπ ih frames b

/-! ## The log has no influence -/

/-- The world without its log. -/
def World.silent (w : World) : World := { w with recording := false, events := #[] }

@[simp] theorem World.silent_note (w : World) (events : List Event) :
    (w.note events).silent = w.silent := by
  unfold note
  split <;> rfl

@[simp] theorem World.silent_spendId (w : World) : w.spendId.silent = w.silent.spendId := rfl

theorem World.silent_eq_iff {w w' : World} :
    w.silent = w'.silent ↔ w.fresh = w'.fresh ∧ w.fields = w'.fields ∧ w.methods = w'.methods := by
  simp [silent]

theorem World.renamed_id_iff {w w' : World} :
    w.Renamed id w' ↔ w.fields = w'.fields ∧ w.methods = w'.methods := by
  have hv : (OrderedMap.map fun _ v => v.rename id : NameMap Value → NameMap Value) = id :=
    funext fun _ => OrderedMap.map_eq_self_iff.2 fun _ v _ => Value.rename_id v
  have hm : (OrderedMap.map fun _ m => m.rename id : NameMap Method → NameMap Method) = id :=
    funext fun _ => OrderedMap.map_eq_self_iff.2 fun _ m _ => by
      rw [Method.rename, Callable.rename_id]
  constructor
  · intro h
    have hfields := h.fields
    have hmethods := h.methods
    simp only [hv, hm, Option.map_id_fun, id_eq] at hfields hmethods
    exact ⟨OrderedMap.ext_get? fun i => (hfields i).symm,
      OrderedMap.ext_get? fun i => (hmethods i).symm⟩
  · rintro ⟨hf, hm'⟩
    exact ⟨fun i => by rw [hv, hf, Option.map_id_fun, id_eq, id_eq],
      fun i => by rw [hm, hm', Option.map_id_fun, id_eq]⟩

/-- In worlds that differ only in the log, a computation that is alike to itself has the same outcome
and leaves worlds that differ only in the log. -/
theorem Run.Alike.exec_eq {x : Run Value} (hx : Alike id (Value.rename id) x x) {w w' : World}
    (h : w.silent = w'.silent) :
    (x.exec w).1 = (x.exec w').1 ∧ (x.exec w).2.silent = (x.exec w').2.silent := by
  obtain ⟨hfresh, hsame⟩ := World.silent_eq_iff.1 h
  have hw : w.Tracks id ((x.exec w).2.fresh + 1) w' :=
    ⟨World.renamed_id_iff.2 hsame, fun i _ => by rw [hfresh, id_eq]⟩
  obtain ⟨hr, hw₁⟩ := hx.exec hw (Nat.le_succ _)
  constructor
  · rw [hr]
    rcases (x.exec w).1 with e | v
    · rfl
    · rw [Except.map, Value.rename_id]
  · have hfresh₁ := hw₁.aligned 0 (Nat.lt_succ_self _)
    exact World.silent_eq_iff.2 ⟨hfresh₁, World.renamed_id_iff.1 hw₁.toRenamed⟩

/-! ## Identities that are known -/

/-- Every identity in the value is below `n`: a change of other identities does not affect it. -/
def Value.Known (n : Nat) (v : Value) : Prop :=
  ∀ π, Function.Injective π → (∀ i < n, π i = i) → v.rename π = v

@[inherit_doc Value.Known]
def Callable.Known (n : Nat) (c : Callable) : Prop :=
  ∀ π, Function.Injective π → (∀ i < n, π i = i) → c.rename π = c

/-- Every identity in the world was given away. -/
def World.Sound (w : World) : Prop :=
  ∀ π, Function.Injective π → (∀ i < w.fresh, π i = i) → w.Renamed π w

theorem World.start_sound (recording : Bool) : (World.start recording).Sound :=
  fun _ _ _ => ⟨fun _ => rfl, fun _ => rfl⟩

theorem World.Sound.note {w : World} (h : w.Sound) (events : List Event) : (w.note events).Sound :=
  fun π hπ hfix => (h π hπ (by simpa using hfix)).note events events

theorem World.Sound.spendId {w : World} (h : w.Sound) : w.spendId.Sound := by
  intro π hπ hfix
  have hw := h π hπ fun i hi => hfix i (Nat.lt_succ_of_lt hi)
  exact ⟨hw.fields, hw.methods⟩

theorem Value.map_rename_of_known {n : Nat} {vs : List Value} (h : ∀ v ∈ vs, v.Known n)
    {π : Nat → Nat} (hπ : Function.Injective π) (hfix : ∀ i < n, π i = i) :
    vs.map (Value.rename π) = vs :=
  (List.map_congr_left fun v hv => h v hv π hπ hfix).trans (List.map_id' vs)

/-- A computation on what is known leaves a sound world and yields what is known: the identities that
are given away on the way stay as they are, so a change of the others makes no other computation
of it. -/
theorem Run.Alike.sound {α : Type} {ren : (Nat → Nat) → α → α} {x : Run α} {w : World}
    (hx : ∀ π, Function.Injective π → (∀ i < w.fresh, π i = i) → Alike π (ren π) x x)
    (hw : w.Sound) :
    (x.exec w).2.Sound ∧ ∀ a, (x.exec w).1 = .ok a →
      ∀ π, Function.Injective π → (∀ i < (x.exec w).2.fresh, π i = i) → ren π a = a := by
  have hkeeps := ((hx id Function.injective_id fun _ _ => rfl).keeps w).fresh
  have key : ∀ π, Function.Injective π → (∀ i < (x.exec w).2.fresh, π i = i) →
      (x.exec w).1 = (x.exec w).1.map (ren π) ∧ (x.exec w).2.Renamed π (x.exec w).2 := by
    intro π hπ hfix
    have hfix' : ∀ i < w.fresh, π i = i := fun i hi => hfix i (Nat.lt_of_lt_of_le hi hkeeps)
    obtain ⟨hr, hw₁⟩ := (hx π hπ hfix').exec ⟨hw π hπ hfix', fun i hi => hfix _ hi⟩ (Nat.le_refl _)
    exact ⟨hr, hw₁.toRenamed⟩
  refine ⟨fun π hπ hfix => (key π hπ hfix).2, fun a ha π hπ hfix => ?_⟩
  have hr := (key π hπ hfix).1
  rw [ha] at hr
  exact (Except.ok.inj hr).symm

/-! ## Declared classes stay as they are -/

theorem Run.exec_method? (t : Ty) (name : String) (w : World) :
    (Run.method? t name).exec w = (.ok (t.method? w name), w) := rfl

theorem ClassDef.exec_declare (d : ClassDef) (w : World) :
    d.declare.exec w = (.ok (.declared w.fresh d.name d.base),
      { w.spendId with methods := w.methods.insert w.fresh d.methods }) := rfl

/-- What is declared has the next identity and the methods of its definition, and other classes stay
as they are. -/
theorem ClassDef.declare_spec {d : ClassDef} {t : Ty} {w w' : World}
    (h : d.declare.exec w = (.ok t, w')) :
    t = .declared w.fresh d.name d.base ∧ w'.fresh = w.fresh + 1 ∧
      w'.methodsOf w.fresh = d.methods ∧ w.Keeps w' := by
  rw [exec_declare] at h
  cases h
  refine ⟨rfl, rfl, ?_, Nat.le_succ _, fun id hid => ?_⟩
  · rw [World.methodsOf, OrderedMap.get?_insert, if_pos rfl, Option.getD_some]
  · rw [World.methodsOf, World.methodsOf, OrderedMap.get?_insert, if_neg (Nat.ne_of_lt hid)]

end CallGuard
