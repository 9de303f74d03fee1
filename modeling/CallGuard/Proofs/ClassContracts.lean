import CallGuard.Proofs.Execution

/-!
# Contracts on classes

An application of contracts to a class goes through the exposed methods in name order and puts each
under the contract that wrapping its callable would give (`guardMethods_cons_of_exposed`); it ends
at the first whose contract cannot be made. The definition is touched only after the last one, so
there is no half of an application (`exec_applyToClass_cases`), and of applications one after the
other only the first that succeeds changes anything (`applications_spec`).
-/

namespace CallGuard

namespace ClassDef.Change

variable {α β : Type}

/-- The outcome of a change that starts from a definition and a world, and what it leaves of
both. -/
def exec (x : Change α) (s : ClassDef × World) : Except Fault α × (ClassDef × World) :=
  Id.run (x.run.run s)

theorem exec_bind_ok {x : Change α} {f : α → Change β} {s s' : ClassDef × World} {a : α}
    (h : x.exec s = (.ok a, s')) : (x >>= f).exec s = (f a).exec s' := by
  have hb : (x >>= f).exec s = Id.run (StateT.run (ExceptT.bindCont f (x.exec s).1) (x.exec s).2) :=
    rfl
  rw [hb, h]
  rfl

theorem exec_bind_error {x : Change α} {f : α → Change β} {s s' : ClassDef × World} {e : Fault}
    (h : x.exec s = (.error e, s')) : (x >>= f).exec s = (.error e, s') := by
  have hb : (x >>= f).exec s = Id.run (StateT.run (ExceptT.bindCont f (x.exec s).1) (x.exec s).2) :=
    rfl
  rw [hb, h]
  rfl

theorem exec_ofRun (x : Run α) (d : ClassDef) (w : World) :
    (ofRun x).exec (d, w) = ((x.exec w).1, (d, (x.exec w).2)) := rfl

end ClassDef.Change

namespace ClassDef

section Methods

variable {e : Engine} {name : String} {m : Method} {rest : List (String × Method)}

/-- An exposed method is put under the contract that wrapping its callable gives. -/
theorem guardMethods_cons_of_exposed (h : Exposed name) :
    guardMethods e.scope e.config.rule e.config.guardsReturned ((name, m) :: rest) =
      (do
        let c ← e.wrap (.callable m.callable)
        return (name, c) ::
          (← guardMethods e.scope e.config.rule e.config.guardsReturned rest)) := by
  rw [guardMethods, if_pos (isExposed_iff.2 h), Engine.wrap, Engine.contractFor]
  rcases Contract.ofSignature e.scope m.callable.signature with err | k <;> rfl

theorem guardMethods_cons_of_hidden (h : ¬ Exposed name) :
    guardMethods e.scope e.config.rule e.config.guardsReturned ((name, m) :: rest) =
      guardMethods e.scope e.config.rule e.config.guardsReturned rest := by
  rw [guardMethods, if_neg (mt isExposed_iff.1 h)]

end Methods

/-- `cs` are the callables that an application puts under contracts: one for each exposed method,
found under its name, and none under any other name. -/
structure Guards (e : Engine) (methods : List (String × Method)) (cs : List (String × Callable)) :
    Prop where
  count : cs.length = methods.countP fun p => Exposed p.1
  exposed : ∀ name m, methods.lookup name = some m → Exposed name →
    ∃ id k, e.contractFor m.callable.signature = .ok k ∧
      cs.lookup name = some (.guarded id m.callable k e.config.rule)
  hidden : ∀ name, ¬ Exposed name → cs.lookup name = none

/-- `err` is why the contract of an exposed method cannot be made, and those of the exposed methods
before it in the list can. -/
def Fails (e : Engine) (methods : List (String × Method)) (err : ResolveError) : Prop :=
  ∃ before name m after, methods = before ++ (name, m) :: after ∧ Exposed name ∧
    e.contractFor m.callable.signature = .error err ∧
    ∀ p ∈ before, Exposed p.1 → ∃ k, e.contractFor p.2.callable.signature = .ok k

section Loop

variable {e : Engine} {name : String} {m : Method} {rest : List (String × Method)}
  {cs : List (String × Callable)} {err : ResolveError}

theorem Guards.cons_of_hidden (hx : ¬ Exposed name) (h : Guards e rest cs) :
    Guards e ((name, m) :: rest) cs where
  count := by simp [h.count, hx]
  exposed := by
    intro n m' hm hn
    have hne : n ≠ name := by
      rintro rfl
      exact hx hn
    rw [OrderedMap.lookup_cons, if_neg hne] at hm
    exact h.exposed n m' hm hn
  hidden := h.hidden

theorem Guards.cons_of_exposed {k : Contract} (id : Nat) (hx : Exposed name)
    (hk : e.contractFor m.callable.signature = .ok k) (h : Guards e rest cs) :
    Guards e ((name, m) :: rest) ((name, .guarded id m.callable k e.config.rule) :: cs) where
  count := by simp [h.count, hx]
  exposed := by
    intro n m' hm hn
    rw [OrderedMap.lookup_cons] at hm ⊢
    by_cases hne : n = name
    · rw [if_pos hne] at hm ⊢
      obtain rfl : m = m' := Option.some.inj hm
      exact ⟨id, k, hk, rfl⟩
    · rw [if_neg hne] at hm ⊢
      exact h.exposed n m' hm hn
  hidden := by
    intro n hn
    have hne : n ≠ name := by
      rintro rfl
      exact hn hx
    rw [OrderedMap.lookup_cons, if_neg hne]
    exact h.hidden n hn

theorem Fails.cons
    (hk : Exposed name → ∃ k, e.contractFor m.callable.signature = .ok k)
    (h : Fails e rest err) : Fails e ((name, m) :: rest) err := by
  obtain ⟨before, n, m', after, rfl, hn, herr, hbefore⟩ := h
  refine ⟨(name, m) :: before, n, m', after, rfl, hn, herr, fun p hp hpx => ?_⟩
  rcases List.mem_cons.1 hp with rfl | hp
  · exact hk hpx
  · exact hbefore p hp hpx

/-- The contracts of all exposed methods are made, or the first that cannot be made ends the
loop. -/
theorem guardMethods_cases (e : Engine) (methods : List (String × Method)) (w : World) :
    (∃ cs w', (guardMethods e.scope e.config.rule e.config.guardsReturned methods).exec w =
      (.ok cs, w') ∧ Guards e methods cs) ∨
    ∃ err w', (guardMethods e.scope e.config.rule e.config.guardsReturned methods).exec w =
      (.error (.resolve err), w') ∧ Fails e methods err := by
  induction methods generalizing w with
  | nil => exact .inl ⟨[], w, by simp [guardMethods], by simp, by simp, by simp⟩
  | cons p rest ih =>
    obtain ⟨name, m⟩ := p
    by_cases hx : Exposed name
    · rw [guardMethods_cons_of_exposed hx]
      rcases hk : e.contractFor m.callable.signature with err | k
      · refine .inr ⟨err, w, ?_, [], name, m, rest, rfl, hx, hk, by simp⟩
        rw [Run.exec_bind_error (Engine.exec_wrap_of_error hk w)]
      · rw [Run.exec_bind_ok (Engine.exec_wrap_of_ok hk w)]
        rcases ih _ with ⟨cs, w', hexec, hcs⟩ | ⟨err, w', hexec, herr⟩
        · refine .inl ⟨_, w', ?_, hcs.cons_of_exposed w.fresh hx hk⟩
          rw [Run.exec_bind_ok hexec, Run.exec_pure]
        · refine .inr ⟨err, w', ?_, herr.cons fun _ => ⟨k, hk⟩⟩
          rw [Run.exec_bind_error hexec]
    · rw [guardMethods_cons_of_hidden hx]
      rcases ih w with ⟨cs, w', hexec, hcs⟩ | ⟨err, w', hexec, herr⟩
      · exact .inl ⟨cs, w', hexec, hcs.cons_of_hidden hx⟩
      · exact .inr ⟨err, w', hexec, herr.cons fun h => absurd h hx⟩

end Loop

/-! ## One application -/

/-- `m'` is what an application of contracts makes of the method `m`: under an exposed name, the
same method with its callable as wrapping would give it, and under any other name `m` itself. -/
structure Replaced (e : Engine) (name : String) (m m' : Method) : Prop where
  kind : m'.kind = m.kind
  exposed : Exposed name → ∃ id k, m'.callable = .guarded id m.callable k e.config.rule ∧
    e.contractFor m.callable.signature = .ok k ∧
    ∀ w, ∃ w', (e.wrap (.callable m.callable)).exec w =
      (.ok (.guarded w.fresh m.callable k e.config.rule), w')
  hidden : ¬ Exposed name → m' = m

/-- `d'` is what an application of contracts that succeeds makes of the definition `d`. -/
structure Applied (e : Engine) (d d' : ClassDef) : Prop where
  guarded : d'.guarded = true
  name : d'.name = d.name
  base : d'.base = d.base
  names : d'.methods.entries.map Prod.fst = d.methods.entries.map Prod.fst
  method : ∀ n m, d.methods.get? n = some m →
    ∃ m', d'.methods.get? n = some m' ∧ Replaced e n m m'

theorem Guards.applied {e : Engine} {d : ClassDef} {cs : List (String × Callable)}
    (h : Guards e d.methods.entries cs) :
    Applied e d { d.replaceCallables cs with guarded := true } where
  guarded := rfl
  name := rfl
  base := rfl
  names := by simp [replaceCallables, OrderedMap.map, Function.comp_def]
  method := by
    intro n m hm
    refine ⟨_, by rw [replaceCallables, OrderedMap.get?_map, hm, Option.map_some], ?_, ?_, ?_⟩
    · split <;> rfl
    · intro hx
      obtain ⟨id, k, hk, hc⟩ := h.exposed n m hm hx
      rw [hc]
      exact ⟨id, k, rfl, hk, fun w => ⟨_, Engine.exec_wrap_of_ok hk w⟩⟩
    · intro hx
      rw [h.hidden n hx]

/-- `err` is why the contract of an exposed method cannot be made, and those of the exposed methods
before it in name order can. -/
def FirstUnresolved (e : Engine) (d : ClassDef) (err : ResolveError) : Prop :=
  ∃ name m, d.methods.get? name = some m ∧ Exposed name ∧
    e.contractFor m.callable.signature = .error err ∧
    ∀ n m', d.methods.get? n = some m' → Exposed n → n < name →
      ∃ k, e.contractFor m'.callable.signature = .ok k

theorem Fails.firstUnresolved {e : Engine} {d : ClassDef} {err : ResolveError}
    (h : Fails e d.methods.entries err) : FirstUnresolved e d err := by
  obtain ⟨before, name, m, after, heq, hx, herr, hbefore⟩ := h
  have hsorted := d.methods.sorted
  rw [heq] at hsorted
  have hm : d.methods.get? name = some m := OrderedMap.get?_eq_some_iff.2 (by simp [heq])
  refine ⟨name, m, hm, hx, herr, fun n m' hm' hn hlt => ?_⟩
  -- what comes after in the list comes after in name order
  have hmem := OrderedMap.get?_eq_some_iff.1 hm'
  rw [heq, List.mem_append, List.mem_cons] at hmem
  rcases hmem with hmem | heq' | hmem
  · exact hbefore _ hmem hn
  · obtain ⟨rfl, -⟩ := Prod.mk.inj heq'
    exact absurd hlt (String.lt_irrefl n)
  · have hgt : name < n :=
      (List.pairwise_cons.1 (List.pairwise_append.1 hsorted).2.1).1 _ hmem
    exact absurd (String.lt_trans hlt hgt) (String.lt_irrefl n)

theorem FirstUnresolved.unique {e : Engine} {d : ClassDef} {err err' : ResolveError}
    (h : FirstUnresolved e d err) (h' : FirstUnresolved e d err') : err = err' := by
  obtain ⟨name, m, hm, hx, herr, hfirst⟩ := h
  obtain ⟨name', m', hm', hx', herr', hfirst'⟩ := h'
  have hle : ¬ name < name' := fun hlt => by
    obtain ⟨k, hk⟩ := hfirst' name m hm hx hlt
    simp [herr] at hk
  have hge : ¬ name' < name := fun hlt => by
    obtain ⟨k, hk⟩ := hfirst name' m' hm' hx' hlt
    simp [herr'] at hk
  obtain rfl : name = name' := String.le_antisymm (String.not_lt.1 hge) (String.not_lt.1 hle)
  obtain rfl : m = m' := Option.some.inj (hm.symm.trans hm')
  exact Except.error.inj (herr.symm.trans herr')

theorem exec_applyToClass_of_guarded {e : Engine} {d : ClassDef} (hd : d.guarded = true)
    (w : World) : e.applyToClass.exec (d, w) =
      (.error (.misuse (.alreadyGuarded d.name)), (d, w)) := by
  have hstart : Change.definition.exec (d, w) = (.ok d, (d, w)) := rfl
  rw [Engine.applyToClass, applyContracts, Change.exec_bind_ok hstart, if_pos hd]
  rfl

theorem exec_applyToClass_of_loop {e : Engine} {d : ClassDef} {w w' : World}
    {r : Except Fault (List (String × Callable))} (hd : d.guarded = false)
    (h : (guardMethods e.scope e.config.rule e.config.guardsReturned d.methods.entries).exec w =
      (r, w')) :
    e.applyToClass.exec (d, w) =
      match r with
      | .ok cs => (.ok cs.length,
          ({ d.replaceCallables cs with guarded := true }, w'.note [.applied d.name cs.length]))
      | .error f => (.error f, (d, w')) := by
  have hstart : Change.definition.exec (d, w) = (.ok d, (d, w)) := rfl
  have hloop := Change.exec_ofRun
    (guardMethods e.scope e.config.rule e.config.guardsReturned d.methods.entries) d w
  rw [h] at hloop
  rw [Engine.applyToClass, applyContracts, Change.exec_bind_ok hstart, if_neg (by simp [hd])]
  rcases r with f | cs
  · rw [Change.exec_bind_error hloop]
  · rw [Change.exec_bind_ok hloop]
    rfl

/-- What one application of contracts does. It is refused for a definition that has them, it fails
for the first method whose contract cannot be made, and otherwise it replaces all that it has to;
in the first two cases the definition stays as it is. -/
theorem exec_applyToClass_cases (e : Engine) (d : ClassDef) (w : World) :
    (d.guarded = true ∧ e.applyToClass.exec (d, w) =
      (.error (.misuse (.alreadyGuarded d.name)), (d, w))) ∨
    (d.guarded = false ∧ ∃ err w', FirstUnresolved e d err ∧
      e.applyToClass.exec (d, w) = (.error (.resolve err), (d, w'))) ∨
    (d.guarded = false ∧ (∀ err, ¬ FirstUnresolved e d err) ∧ ∃ d' w', Applied e d d' ∧
      e.applyToClass.exec (d, w) =
        (.ok (d.methods.entries.countP fun p => Exposed p.1), (d', w'))) := by
  rcases hd : d.guarded with _ | _
  · rcases guardMethods_cases e d.methods.entries w with ⟨cs, w', hexec, hcs⟩ |
      ⟨err, w', hexec, herr⟩
    · refine .inr (.inr ⟨rfl, fun err hun => ?_, _, w'.note [.applied d.name cs.length],
        hcs.applied, ?_⟩)
      · obtain ⟨name, m, hm, hx, herr, -⟩ := hun
        obtain ⟨id, k, hk, -⟩ := hcs.exposed name m hm hx
        simp [herr] at hk
      · rw [exec_applyToClass_of_loop hd hexec, ← hcs.count]
    · exact .inr (.inl ⟨rfl, err, w', herr.firstUnresolved, exec_applyToClass_of_loop hd hexec⟩)
  · exact .inl ⟨rfl, exec_applyToClass_of_guarded hd w⟩

/-! ## Applications one after the other -/

/-- The outcomes of applications by the given engines in turn, each on what the one before it left,
and what the last one leaves. -/
def applications : List Engine → ClassDef × World → List (Except Fault Nat) × (ClassDef × World)
  | [], s => ([], s)
  | e :: es, s =>
    let (outcome, s') := e.applyToClass.exec s
    let (outcomes, s'') := applications es s'
    (outcome :: outcomes, s'')

/-- A definition has contracts after applications with these outcomes: it had them before, or one
of the applications succeeded. -/
def Contracted (d : ClassDef) (outcomes : List (Except Fault Nat)) : Prop :=
  d.guarded = true ∨ ∃ n, .ok n ∈ outcomes

theorem contracted_error_cons {d : ClassDef} {f : Fault} {outcomes : List (Except Fault Nat)} :
    Contracted d (.error f :: outcomes) ↔ Contracted d outcomes := by
  simp [Contracted]

/-- Applications in turn leave the definition as it was until one succeeds, and from then on it has
contracts. -/
theorem applications_spec (es : List Engine) (d : ClassDef) (w : World) :
    ((applications es (d, w)).2.1.guarded = true ↔ Contracted d (applications es (d, w)).1) ∧
    (applications es (d, w)).2.1.name = d.name ∧
    (¬ Contracted d (applications es (d, w)).1 → (applications es (d, w)).2.1 = d) := by
  induction es generalizing d w with
  | nil => simp [applications, Contracted]
  | cons e es ih =>
    simp only [applications]
    rcases exec_applyToClass_cases e d w with ⟨-, h⟩ | ⟨-, err, w', -, h⟩ | ⟨-, -, d', w', hd', h⟩
    · simp only [h, contracted_error_cons]
      exact ih d w
    · simp only [h, contracted_error_cons]
      exact ih d w'
    · obtain ⟨hg, hn, -⟩ := ih d' w'
      have hc : Contracted d (.ok (d.methods.entries.countP fun p => Exposed p.1) ::
          (applications es (d', w')).1) := .inr ⟨_, List.mem_cons_self⟩
      simp only [h]
      exact ⟨⟨fun _ => hc, fun _ => hg.2 (.inl hd'.guarded)⟩, hn.trans hd'.name,
        fun hnc => absurd hc hnc⟩

/-- Contracts are applied to a class at most once, and then completely. After any applications in
turn, a further one that fails leaves the definition as it stands. It is refused as a repetition
exactly when the definition has contracts; otherwise it fails exactly when the contract of some
exposed method cannot be made, with the reason of the first such method in name order. One that
succeeds sets the flag, keeps the name, the base, the names of the methods and the kind of each, puts
every exposed method under the contract that wrapping it would give and leaves the others alone, and
answers with the number of methods it replaced. -/
theorem contracts_apply_once_and_completely (es : List Engine) (e : Engine) (d : ClassDef)
    (w : World) :
    let earlier := (applications es (d, w)).1
    let before := (applications es (d, w)).2
    let outcome := (e.applyToClass.exec before).1
    let after := (e.applyToClass.exec before).2.1
    (∀ f, outcome = .error f → after = before.1) ∧
    (outcome = .error (.misuse (.alreadyGuarded d.name)) ↔ Contracted d earlier) ∧
    (¬ Contracted d earlier → before.1 = d ∧
      ∀ f, outcome = .error f ↔ ∃ err, f = .resolve err ∧ FirstUnresolved e d err) ∧
    ∀ n, outcome = .ok n →
      Applied e d after ∧ n = d.methods.entries.countP fun p => Exposed p.1 := by
  intro earlier before outcome after
  obtain ⟨hg, hname, hsame⟩ := applications_spec es d w
  rcases exec_applyToClass_cases e before.1 before.2 with ⟨hd, h⟩ | ⟨hd, err, w', hun, h⟩ |
    ⟨hd, hok, d', w', hd', h⟩
  · have hout : outcome = .error (.misuse (.alreadyGuarded d.name)) := by
      rw [← hname]
      exact congrArg Prod.fst h
    have hafter : after = before.1 := congrArg (fun r => r.2.1) h
    have hc : Contracted d earlier := hg.1 hd
    exact ⟨fun _ _ => hafter, ⟨fun _ => hc, fun _ => hout⟩, fun hnc => absurd hc hnc,
      fun n hn => by simp [hout] at hn⟩
  · have hout : outcome = .error (.resolve err) := congrArg Prod.fst h
    have hafter : after = before.1 := congrArg (fun r => r.2.1) h
    have hnc : ¬ Contracted d earlier := fun hc =>
      Bool.false_ne_true (hd.symm.trans (hg.2 hc))
    have hbefore : before.1 = d := hsame hnc
    rw [hbefore] at hun
    refine ⟨fun _ _ => hafter, ⟨fun hr => by simp [hout] at hr, fun hc => absurd hc hnc⟩,
      fun _ => ⟨hbefore, fun f => ⟨fun hf => ?_, ?_⟩⟩, fun n hn => by simp [hout] at hn⟩
    · exact ⟨err, Except.error.inj (hf.symm.trans hout), hun⟩
    · rintro ⟨err', rfl, hun'⟩
      rw [hout, hun.unique hun']
  · have hout : outcome = .ok (before.1.methods.entries.countP fun p => Exposed p.1) :=
      congrArg Prod.fst h
    have hafter : after = d' := congrArg (fun r => r.2.1) h
    have hnc : ¬ Contracted d earlier := fun hc =>
      Bool.false_ne_true (hd.symm.trans (hg.2 hc))
    have hbefore : before.1 = d := hsame hnc
    rw [hbefore] at hout hd' hok
    refine ⟨fun f hf => by simp [hout] at hf,
      ⟨fun hr => by simp [hout] at hr, fun hc => absurd hc hnc⟩,
      fun _ => ⟨hbefore, fun f => ⟨fun hf => by simp [hout] at hf, ?_⟩⟩, fun n hn => ⟨?_, ?_⟩⟩
    · rintro ⟨err, -, hun⟩
      exact absurd hun (hok err)
    · rw [hafter]
      exact hd'
    · exact Except.ok.inj (hn.symm.trans hout)

end ClassDef

end CallGuard
