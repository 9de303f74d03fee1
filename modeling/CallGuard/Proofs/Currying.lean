import CallGuard.Evaluation
import CallGuard.Proofs.Enforcement

/-!
# Callables that return callables

A callable declared to return `Callable[P₁, Callable[P₂, … R]]` is called level by level, and what
each call hands out is under a contract that only comes into being in that call. One step says what
that contract is (`guarded_yields_callable`): it has the shape of the callable that was returned,
the descriptors of its level, and the flag and the rule of the contract before it. So the declared
result is used up one level per call, all along a chain of calls (`level_of_chain`).
-/

namespace CallGuard

/-- The descriptor of a callable that takes the arguments of the first level and returns one that
takes those of the next, up to the result `r`. -/
def Descriptor.curried : List (List Descriptor) → Descriptor → Descriptor
  | [], r => r
  | ds :: levels, r => .callable ds (curried levels r)

/-- The callable that a contract stands before; a callable under no contract itself. -/
def Callable.target : Callable → Callable
  | .guarded _ t _ _ => t
  | c => c

/-- Whether `c` can answer a call with `args` by `v`: in some world it does. -/
def Yields (run : Behaviour) (c : Callable) (args : List Value) (v : Value) : Prop :=
  ∃ w w', (c.callWith run args).exec w = (.ok v, w')

namespace Contract

/-- `n` is the contract of a level that declares `ds` and the result `rest`, for a callable with the
signature `sig`: the callable's own parameters with the declared descriptors by position, and every
value past them. -/
structure AtLevel (ds : List Descriptor) (rest : Descriptor) (sig : Signature Value)
    (n : Contract) : Prop where
  count : n.params.length = sig.positional.length
  params : ∀ (i : Nat) (p : Param Value), sig.positional[i]? = some p →
    n.params[i]? = some ⟨p.name, ds.getD i .any, p.default.isSome⟩
  variadic : n.variadic = sig.hasVariadic
  result : n.result = rest
  flag : n.guardsReturned = true

theorem atLevel_of_returned {k n : Contract} {ds : List Descriptor} {rest : Descriptor}
    {sig : Signature Value} (hk : k.guardsReturned = true) (hr : k.result = .callable ds rest)
    (h : k.returned sig = some n) : AtLevel ds rest sig n := by
  simp only [returned, hr, Option.some.injEq] at h
  subst h
  exact
    { count := by simp
      params := fun i p hp => by simp [hp]
      variadic := rfl
      result := rfl
      flag := hk }

namespace AtLevel

variable {ds : List Descriptor} {rest : Descriptor} {sig : Signature Value} {n : Contract}
  {rule : TypeRefRule}

theorem exists_param (h : AtLevel ds rest sig n) {i : Nat} {q : ParamContract}
    (hq : n.params[i]? = some q) :
    ∃ p, sig.positional[i]? = some p ∧ q = ⟨p.name, ds.getD i .any, p.default.isSome⟩ := by
  have hi : i < n.params.length := (List.getElem?_eq_some_iff.1 hq).1
  have hi' : i < sig.positional.length := h.count ▸ hi
  refine ⟨sig.positional[i], List.getElem?_eq_getElem hi', ?_⟩
  rw [h.params i _ (List.getElem?_eq_getElem hi')] at hq
  exact (Option.some.inj hq).symm

/-- Under the contract of a level, arguments that pass are those that pass the declared
descriptors, as far as there are parameters for them. -/
theorem accepts_of_allAccepted (h : AtLevel ds rest sig n) {args : List Value}
    (ha : AllAccepted rule n.params args) {i : Nat} {d : Descriptor} {a : Value}
    (hd : ds[i]? = some d) (hi : i < sig.positional.length) (hai : args[i]? = some a) :
    d.accepts rule a = .ok true := by
  have := ha i _ a (h.params i _ (List.getElem?_eq_getElem hi)) hai
  simpa [hd] using this

/-- The first argument that fails its declared descriptor is the first that the contract
refuses: before it every place has a declared descriptor. -/
theorem firstRefused (h : AtLevel ds rest sig n) {args : List Value} {i : Nat} {p : Param Value}
    {d : Descriptor} {a : Value} (hp : sig.positional[i]? = some p) (hd : ds[i]? = some d)
    (ha : args[i]? = some a) (hr : d.accepts rule a ≠ .ok true)
    (hb : ∀ j < i, ∀ e b, ds[j]? = some e → args[j]? = some b → e.accepts rule b = .ok true) :
    FirstRefused rule n.params args i ⟨p.name, d, p.default.isSome⟩ a where
  param := by
    rw [h.params i p hp]
    simp [hd]
  arg := ha
  refused := hr
  before := by
    intro j hj q b hq hbj
    obtain ⟨p', -, rfl⟩ := h.exists_param hq
    have hlt : j < ds.length := by
      have := (List.getElem?_eq_some_iff.1 hd).1
      omega
    have hdj : ds[j]? = some ds[j] := List.getElem?_eq_getElem hlt
    simpa [hdj] using hb j hj ds[j] b hdj hbj

end AtLevel

end Contract

section Chain

variable {run : Behaviour} {rule : TypeRefRule}

/-- What an answered call of a callable under a contract went through. -/
theorem yields_guarded {id : Nat} {g : Callable} {n : Contract} {args : List Value} {v : Value}
    (h : Yields run (.guarded id g n rule) args v) :
    n.arity.check g.name args.length = .ok () ∧ Contract.AllAccepted rule n.params args ∧
      ∃ u w w', Yields run g args u ∧ Contract.Settles n rule g.name u w (.ok v, w') := by
  obtain ⟨w, w', h⟩ := h
  rw [Callable.callWith] at h
  obtain ⟨hc, ha, events, u, w₁, ht, hs⟩ := Contract.enforce_ok h
  exact ⟨hc, ha, u, w₁, w', ⟨_, _, ht⟩, hs⟩

/-- One call: under a contract that guards what is returned, a declared `Callable[...]` result is
handed out under the contract of its level, with the same rule. -/
theorem guarded_yields_callable {id : Nat} {g : Callable} {n : Contract} {args : List Value}
    {v : Value} {ds : List Descriptor} {rest : Descriptor} (hf : n.guardsReturned = true)
    (hr : n.result = .callable ds rest) (h : Yields run (.guarded id g n rule) args v) :
    ∃ id' g' n', v = .callable (.guarded id' g' n' rule) ∧ Yields run g args (.callable g') ∧
      Contract.AtLevel ds rest g'.signature n' := by
  obtain ⟨-, -, u, w, w', hu, hs⟩ := yields_guarded h
  obtain ⟨g', n', rfl, derived, rfl⟩ := hs.guarded_of_declared hf hr
  exact ⟨_, _, _, rfl, hu, Contract.atLevel_of_returned hf hr derived⟩

/-- A result that is handed out passes what the contract declares. -/
theorem accepts_of_yields {id : Nat} {g : Callable} {n : Contract} {args : List Value} {v : Value}
    (h : Yields run (.guarded id g n rule) args v) : n.result.accepts rule v = .ok true := by
  obtain ⟨-, -, u, w, w', -, hs⟩ := yields_guarded h
  exact hs.accepts

variable {k : Contract} {id : Nat} {t : Callable} {levels : List (List Descriptor)}
  {r : Descriptor} {c : Nat → Callable} {args : Nat → List Value}

/-- All along a chain of answered calls, what is called next is under a contract of the same rule
that still guards what is returned and declares the levels that are left. -/
theorem level_of_chain (hk : k.guardsReturned = true) (hr : k.result = .curried levels r)
    (h0 : c 0 = .guarded id t k rule)
    (hcalls : ∀ j < levels.length, Yields run (c j) (args j) (.callable (c (j + 1)))) :
    ∀ j ≤ levels.length, ∃ idj g n, c j = .guarded idj g n rule ∧ n.guardsReturned = true ∧
      n.result = .curried (levels.drop j) r := by
  intro j
  induction j with
  | zero => exact fun _ => ⟨id, t, k, h0, hk, by simpa using hr⟩
  | succ j ih =>
    intro hj
    obtain ⟨idj, g, n, hc, hf, hn⟩ := ih (by omega)
    rw [List.drop_eq_getElem_cons (by omega), Descriptor.curried] at hn
    have hy := hcalls j (by omega)
    rw [hc] at hy
    obtain ⟨id', g', n', heq, -, hl⟩ := guarded_yields_callable hf hn hy
    exact ⟨id', g', n', by simpa using heq, hl.flag, hl.result⟩

/-- What the call at level `j` of a chain hands out. -/
theorem atLevel_of_chain (hk : k.guardsReturned = true) (hr : k.result = .curried levels r)
    (h0 : c 0 = .guarded id t k rule)
    (hcalls : ∀ j < levels.length, Yields run (c j) (args j) (.callable (c (j + 1))))
    {j : Nat} {ds : List Descriptor} (hd : levels[j]? = some ds) :
    ∃ idj g n, c (j + 1) = .guarded idj g n rule ∧ Yields run (c j).target (args j) (.callable g) ∧
      Contract.AtLevel ds (.curried (levels.drop (j + 1)) r) g.signature n := by
  obtain ⟨hj, rfl⟩ := List.getElem?_eq_some_iff.1 hd
  obtain ⟨idj, g, n, hc, hf, hn⟩ := level_of_chain hk hr h0 hcalls j (by omega)
  rw [List.drop_eq_getElem_cons hj, Descriptor.curried] at hn
  have hy := hcalls j hj
  rw [hc] at hy ⊢
  obtain ⟨id', g', n', heq, hg, hl⟩ := guarded_yields_callable hf hn hy
  exact ⟨id', g', n', by simpa using heq, hg, hl⟩

end Chain

/-- A chain of answered calls `c 0 (args 0)`, `c 1 (args 1)`, … of a callable that is declared to
return callables level by level is held to the declaration at every level. What each call hands out
is the callable that was returned, under the rule of the first contract and the contract of its
level; the arguments it was called with pass the descriptors of the level, and the last result
passes `r`. Any argument list with an admitted count is refused at its first argument that fails the
level, in the name of the returned callable and of its own parameter, whatever that callable does.
Without the flag, what the target returned is handed out itself. -/
theorem curried_calls_are_enforced (run : Behaviour) (rule : TypeRefRule) (k : Contract) (id : Nat)
    (t : Callable) (levels : List (List Descriptor)) (r : Descriptor) (c : Nat → Callable)
    (args : Nat → List Value) (v : Value) (hk : k.guardsReturned = true)
    (hr : k.result = .curried levels r) (h0 : c 0 = .guarded id t k rule)
    (hcalls : ∀ j < levels.length, Yields run (c j) (args j) (.callable (c (j + 1))))
    (hlast : Yields run (c levels.length) (args levels.length) v) :
    r.accepts rule v = .ok true ∧
    (∀ j ds, levels[j]? = some ds → ∃ idj g n,
      c (j + 1) = .guarded idj g n rule ∧
      Yields run (c j).target (args j) (.callable g) ∧
      Contract.AtLevel ds (.curried (levels.drop (j + 1)) r) g.signature n ∧
      (∀ i d a, ds[i]? = some d → i < g.signature.positional.length →
        (args (j + 1))[i]? = some a → d.accepts rule a = .ok true) ∧
      ∀ (given : List Value) (i : Nat) (p : Param Value) (d : Descriptor) (a : Value) (w : World),
        n.arity.check g.name given.length = .ok () →
        g.signature.positional[i]? = some p → ds[i]? = some d → given[i]? = some a →
        d.accepts rule a ≠ .ok true →
        (∀ j < i, ∀ e b, ds[j]? = some e → given[j]? = some b → e.accepts rule b = .ok true) →
        ∃ events,
          (d.accepts rule a = .ok false ∧
            ∀ run', ((c (j + 1)).callWith run' given).exec w =
              (.error (.argument g.name p.name d.text a.typeName), w.note events)) ∨
          (d.accepts rule a = .error .noReturnMatched ∧
            ∀ run', ((c (j + 1)).callWith run' given).exec w =
              (.error (.misuse .noReturnMatched), w.note events))) ∧
    (∀ k' id' t' given, k'.guardsReturned = false →
      (∀ u, Yields run (.guarded id' t' k' rule) given u → Yields run t' given u) ∧
      ∀ ds r' w, k'.result = .callable ds r' → k'.arity.check t'.name given.length = .ok () →
        Contract.AllAccepted rule k'.params given → ∃ events, ∀ g w₁,
          (t'.callWith run given).exec (w.note events) = (.ok (.callable g), w₁) →
          ∃ events', ((Callable.guarded id' t' k' rule).callWith run given).exec w =
            (.ok (.callable g), w₁.note events')) := by
  refine ⟨?_, fun j ds hd => ?_, fun k' id' t' given hf => ⟨fun u hu => ?_, ?_⟩⟩
  · obtain ⟨idj, g, n, hc, -, hn⟩ := level_of_chain hk hr h0 hcalls levels.length (Nat.le_refl _)
    rw [List.drop_length, Descriptor.curried] at hn
    rw [hc] at hlast
    exact hn ▸ accepts_of_yields hlast
  · obtain ⟨idj, g, n, hc, hg, hl⟩ := atLevel_of_chain hk hr h0 hcalls hd
    refine ⟨idj, g, n, hc, hg, hl, fun i d a hdi hi ha => ?_,
      fun given i p d a w hcount hp hdi ha hrf hb => ?_⟩
    · -- level `j + 1` is called in the chain as well, by `hlast` if it is the last
      have hy : ∃ u, Yields run (c (j + 1)) (args (j + 1)) u := by
        have hj := (List.getElem?_eq_some_iff.1 hd).1
        rcases Nat.lt_or_ge (j + 1) levels.length with h | h
        · exact ⟨_, hcalls (j + 1) h⟩
        · have hlen : levels.length = j + 1 := by omega
          exact ⟨v, hlen ▸ hlast⟩
      obtain ⟨u, hy⟩ := hy
      rw [hc] at hy
      exact hl.accepts_of_allAccepted (yields_guarded hy).2.1 hdi hi ha
    · obtain ⟨events, hev⟩ :=
        Contract.exec_enforce_of_refused hcount (hl.firstRefused hp hdi ha hrf hb)
      refine ⟨events, ?_⟩
      rcases Descriptor.accepts_cases rule d a with h | h | h
      · exact absurd h hrf
      · refine .inl ⟨h, fun run' => ?_⟩
        rw [hc, Callable.callWith, hev]
        simp only [Contract.refusal, h]
      · refine .inr ⟨h, fun run' => ?_⟩
        rw [hc, Callable.callWith, hev]
        simp only [Contract.refusal, h]
  · obtain ⟨-, -, u', w, w', hu', hs⟩ := yields_guarded hu
    rcases hs.own_or_guarded with rfl | ⟨hf', -⟩
    · exact hu'
    · rw [hf] at hf'
      cases hf'
  · intro ds r' w hd hcount hargs
    obtain ⟨events, hev⟩ := Contract.exec_enforce_of_accepted hcount hargs
    refine ⟨events, fun g w₁ ht => ?_⟩
    rw [Callable.callWith, hev, Run.exec_bind_ok ht]
    have hs := Contract.settles_checkResult k' rule t'.name (.callable g) w₁
    have hm : k'.result.accepts rule (.callable g) = .ok true := by
      rw [hd, Descriptor.accepts]
    revert hs
    generalize (k'.checkResult rule t'.name (.callable g)).exec w₁ = answer
    intro hs
    cases hs with
    | guarded flag declared returned derived =>
      rw [hf] at flag
      cases flag
    | passed plain matched => exact ⟨_, rfl⟩
    | refused plain matched =>
      rw [hm] at matched
      cases matched
    | unmatchable plain matched =>
      rw [hm] at matched
      cases matched

/-! ## A sum that takes its summands one by one -/

section Sum

/-- The descriptor of integers. -/
def integer : Descriptor := .nominal (.builtin .int)

/-- The signature of a function with one parameter. -/
def unary {α : Type} (param : String) : Signature α := ⟨[⟨param, false, none, none⟩], none⟩

/-- The body of the innermost function, which adds one argument of each level. -/
def sumBody : Body := .add (.add (.arg 2 0) (.arg 1 0)) (.arg 0 0)

/-- The function itself, then what its calls with 1 and with 2 hand out. -/
def sumChain : Nat → Callable
  | 0 => .guarded 1
      (.function 0 "sum" (unary "x") []
        (.function "next" (unary "y") (.function "last" (unary "z") sumBody)))
      { params := [⟨"x", integer, false⟩], result := .curried [[integer], [integer]] integer }
      .subtype
  | 1 => .guarded 1
      (.function 0 "next" (unary "y") [[.int 1]] (.function "last" (unary "z") sumBody))
      { params := [⟨"y", integer, false⟩], result := .curried [[integer]] integer } .subtype
  | _ => .guarded 1 (.function 0 "last" (unary "z") [[.int 2], [.int 1]] sumBody)
      { params := [⟨"z", integer, false⟩], result := integer } .subtype

/-- The arguments of the three calls. -/
def sumArgs : Nat → List Value
  | 0 => [.int 1]
  | 1 => [.int 2]
  | _ => [.int 3]

theorem sumChain_is_enforced :
    (∀ j < 2, Yields (behaviour 2) (sumChain j) (sumArgs j) (.callable (sumChain (j + 1)))) ∧
    Yields (behaviour 2) (sumChain 2) (sumArgs 2) (.int 6) ∧
    integer.accepts .subtype (.int 6) = .ok true ∧
    ∃ id g n, sumChain 2 = .guarded id g n .subtype ∧
      Contract.AtLevel [integer] integer g.signature n := by
  have hcalls : ∀ j < 2,
      Yields (behaviour 2) (sumChain j) (sumArgs j) (.callable (sumChain (j + 1)))
    | 0, _ => ⟨World.start false, _, rfl⟩
    | 1, _ => ⟨World.start false, _, rfl⟩
  have hlast : Yields (behaviour 2) (sumChain 2) (sumArgs 2) (.int 6) :=
    ⟨World.start false, _, rfl⟩
  obtain ⟨hv, hlevels, -⟩ := curried_calls_are_enforced (behaviour 2) .subtype _ 1 _
    [[integer], [integer]] integer sumChain sumArgs (.int 6) rfl rfl rfl hcalls hlast
  obtain ⟨id, g, n, hc, -, hl, -⟩ := hlevels 1 [integer] rfl
  exact ⟨hcalls, hlast, hv, id, g, n, hc, hl⟩

end Sum

end CallGuard
