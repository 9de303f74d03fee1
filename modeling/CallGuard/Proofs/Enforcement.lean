import CallGuard.Proofs.Execution
import CallGuard.Proofs.Matching

/-!
# Calls under a contract

A call under a contract is refused for its count, then for its first argument that does not pass,
and only then is the target run: once, with the arguments as they came. Whatever is refused before
that leaves the world as it was but for the events (`exec_enforce_of_count`,
`exec_enforce_of_refused`). What the target returns is settled in one of four ways (`Settles`), and
a result that is handed out always passes the declared descriptor (`Settles.accepts`).
-/

namespace CallGuard

namespace Contract

/-- Every argument that has a parameter passes its descriptor. -/
def AllAccepted (rule : TypeRefRule) (ps : List ParamContract) (args : List Value) : Prop :=
  ∀ (i : Nat) (p : ParamContract) (a : Value), ps[i]? = some p → args[i]? = some a →
    p.descriptor.accepts rule a = .ok true

/-- Place `i` is the first at which an argument does not pass the descriptor of its parameter. -/
structure FirstRefused (rule : TypeRefRule) (ps : List ParamContract) (args : List Value) (i : Nat)
    (p : ParamContract) (a : Value) : Prop where
  param : ps[i]? = some p
  arg : args[i]? = some a
  refused : p.descriptor.accepts rule a ≠ .ok true
  before : ∀ j < i, ∀ q b, ps[j]? = some q → args[j]? = some b →
    q.descriptor.accepts rule b = .ok true

/-- The fault in which a call ends for an argument that does not pass. -/
def refusal (rule : TypeRefRule) (function : String) (p : ParamContract) (a : Value) : Fault :=
  match p.descriptor.accepts rule a with
  | .ok _ => .argument function p.name p.descriptor.text a.typeName
  | .error m => .misuse m

/-! ## The arguments -/

section Arguments

variable {rule : TypeRefRule} {p q : ParamContract} {ps : List ParamContract} {a b : Value}
  {args : List Value}

theorem AllAccepted.cons (ha : p.descriptor.accepts rule a = .ok true)
    (h : AllAccepted rule ps args) : AllAccepted rule (p :: ps) (a :: args)
  | 0, _, _, hp, hb => by
    simp only [List.getElem?_cons_zero, Option.some.injEq] at hp hb
    rw [← hp, ← hb, ha]
  | i + 1, q, b, hp, hb => h i q b (by simpa using hp) (by simpa using hb)

theorem AllAccepted.head (h : AllAccepted rule (p :: ps) (a :: args)) :
    p.descriptor.accepts rule a = .ok true :=
  h 0 p a rfl rfl

theorem AllAccepted.tail (h : AllAccepted rule (p :: ps) (a :: args)) : AllAccepted rule ps args :=
  fun i q b hp hb => h (i + 1) q b (by simpa using hp) (by simpa using hb)

theorem FirstRefused.cons {i : Nat} (ha : p.descriptor.accepts rule a = .ok true)
    (h : FirstRefused rule ps args i q b) :
    FirstRefused rule (p :: ps) (a :: args) (i + 1) q b where
  param := by simpa using h.param
  arg := by simpa using h.arg
  refused := h.refused
  before := by
    intro j hj q' b' hq hb
    rcases j with _ | j
    · simp only [List.getElem?_cons_zero, Option.some.injEq] at hq hb
      rw [← hq, ← hb, ha]
    · exact h.before j (by omega) q' b' (by simpa using hq) (by simpa using hb)

theorem FirstRefused.tail {i : Nat} (h : FirstRefused rule (p :: ps) (a :: args) (i + 1) q b) :
    FirstRefused rule ps args i q b where
  param := by simpa using h.param
  arg := by simpa using h.arg
  refused := h.refused
  before := fun j hj q' b' hq hb =>
    h.before (j + 1) (by omega) q' b' (by simpa using hq) (by simpa using hb)

/-- Arguments all pass, or there is a first that does not. -/
theorem allAccepted_or_firstRefused (rule : TypeRefRule) :
    ∀ (ps : List ParamContract) (args : List Value),
      AllAccepted rule ps args ∨ ∃ i p a, FirstRefused rule ps args i p a
  | [], _ => .inl fun i p a hp => by simp at hp
  | _ :: _, [] => .inl fun i p a _ ha => by simp at ha
  | p :: ps, a :: args => by
    by_cases ha : p.descriptor.accepts rule a = .ok true
    · rcases allAccepted_or_firstRefused rule ps args with h | ⟨i, q, b, h⟩
      · exact .inl (h.cons ha)
      · exact .inr ⟨i + 1, q, b, h.cons ha⟩
    · exact .inr ⟨0, p, a, rfl, rfl, ha, fun j hj => absurd hj (Nat.not_lt_zero j)⟩

theorem exec_checkArguments_cons (function : String) (ps : List ParamContract) (args : List Value)
    (h : p.descriptor.accepts rule a = .ok true) (w : World) :
    (checkArguments rule function (p :: ps) (a :: args)).exec w =
      (checkArguments rule function ps args).exec (w.note (p.descriptor.decisions rule a)) := by
  rw [checkArguments, Run.exec_bind_ok (Run.exec_accepts_ok h w), if_pos rfl]

/-- Arguments that all pass are let through, and only events are added. -/
theorem exec_checkArguments_of_accepted (function : String) :
    ∀ {ps : List ParamContract} {args : List Value}, AllAccepted rule ps args →
      ∃ events, ∀ w, (checkArguments rule function ps args).exec w = (.ok (), w.note events)
  | [], _, _ | _ :: _, [], _ => ⟨[], fun w => by simp [checkArguments]⟩
  | p :: ps, a :: args, h => by
    obtain ⟨events, hev⟩ := exec_checkArguments_of_accepted function h.tail
    refine ⟨p.descriptor.decisions rule a ++ events, fun w => ?_⟩
    rw [exec_checkArguments_cons function ps args h.head w, hev, World.note_note]

/-- The first argument that does not pass ends the check, and only events are added. -/
theorem exec_checkArguments_of_refused (function : String) :
    ∀ {ps : List ParamContract} {args : List Value} {i : Nat}, FirstRefused rule ps args i p a →
      ∃ events, ∀ w, (checkArguments rule function ps args).exec w =
        (.error (refusal rule function p a), w.note events)
  | [], _, _, h => by simpa using h.param
  | _ :: _, [], _, h => by simpa using h.arg
  | q :: ps, b :: args, 0, h => by
    obtain rfl : q = p := by simpa using h.param
    obtain rfl : b = a := by simpa using h.arg
    rcases Descriptor.accepts_cases rule q.descriptor b with hb | hb | hb
    · exact absurd hb h.refused
    · refine ⟨q.descriptor.decisions rule b ++
        [.argumentRefused function q.name q.descriptor.text b.typeName], fun w => ?_⟩
      rw [checkArguments, Run.exec_bind_ok (Run.exec_accepts_ok hb w), if_neg (by simp),
        Run.exec_bind_ok (Run.exec_record _ _), Run.exec_throw, World.note_note, refusal, hb]
    · refine ⟨q.descriptor.decisions rule b, fun w => ?_⟩
      rw [checkArguments, Run.exec_bind_error (Run.exec_accepts_error hb w), refusal, hb]
  | q :: ps, b :: args, i + 1, h => by
    have hb : q.descriptor.accepts rule b = .ok true :=
      h.before 0 (Nat.zero_lt_succ i) q b rfl rfl
    obtain ⟨events, hev⟩ := exec_checkArguments_of_refused function h.tail
    refine ⟨q.descriptor.decisions rule b ++ events, fun w => ?_⟩
    rw [exec_checkArguments_cons function ps args hb w, hev, World.note_note]

end Arguments

/-! ## The result -/

/-- How a result `u` of the target is settled in the world `w` in which the target left it: a
callable returned under a `Callable[...]` declaration is handed out under a contract of its own, if
the contract says so, and every other result is matched. -/
inductive Settles (k : Contract) (rule : TypeRefRule) (function : String) (u : Value) (w : World) :
    Except Fault Value × World → Prop where
  | guarded {ds : List Descriptor} {r : Descriptor} {g : Callable} {n : Contract}
      {events : List Event} (flag : k.guardsReturned = true) (declared : k.result = .callable ds r)
      (returned : u = .callable g) (derived : k.returned g.signature = some n) :
      Settles k rule function u w
        (.ok (.callable (.guarded w.fresh g n rule)), (w.note events).spendId)
  | passed {events : List Event} (plain : k.returnedContract? u = none)
      (matched : k.result.accepts rule u = .ok true) :
      Settles k rule function u w (.ok u, w.note events)
  | refused {events : List Event} (plain : k.returnedContract? u = none)
      (matched : k.result.accepts rule u = .ok false) :
      Settles k rule function u w (.error (.result function k.result.text), w.note events)
  | unmatchable {events : List Event} (plain : k.returnedContract? u = none)
      (matched : k.result.accepts rule u = .error .noReturnMatched) :
      Settles k rule function u w (.error (.misuse .noReturnMatched), w.note events)

theorem returnedContract?_eq_some {k n : Contract} {u : Value} {g : Callable}
    (h : k.returnedContract? u = some (g, n)) :
    k.guardsReturned = true ∧ u = .callable g ∧ k.returned g.signature = some n := by
  unfold returnedContract? at h
  split at h
  · split at h
    · rename_i c hf
      obtain ⟨n', hn, heq⟩ := Option.map_eq_some_iff.1 h
      simp only [Prod.mk.injEq] at heq
      obtain ⟨rfl, rfl⟩ := heq
      exact ⟨hf, rfl, hn⟩
    · simp at h
  · simp at h

theorem result_of_returned {α : Type} {k n : Contract} {sig : Signature α}
    (h : k.returned sig = some n) : ∃ ds r, k.result = .callable ds r := by
  unfold returned at h
  split at h
  · rename_i ds r hr
    exact ⟨ds, r, hr⟩
  · simp at h

theorem settles_checkResult (k : Contract) (rule : TypeRefRule) (function : String) (u : Value)
    (w : World) : Settles k rule function u w ((k.checkResult rule function u).exec w) := by
  rcases hr : k.returnedContract? u with _ | ⟨g, n⟩
  · simp only [checkResult, hr]
    rcases Descriptor.accepts_cases rule k.result u with h | h | h
    · rw [Run.exec_bind_ok (Run.exec_accepts_ok h w), if_pos rfl, Run.exec_pure]
      exact .passed hr h
    · rw [Run.exec_bind_ok (Run.exec_accepts_ok h w), if_neg (by simp),
        Run.exec_bind_ok (Run.exec_record _ _), Run.exec_throw, World.note_note]
      exact .refused hr h
    · rw [Run.exec_bind_error (Run.exec_accepts_error h w)]
      exact .unmatchable hr h
  · obtain ⟨hf, rfl, hn⟩ := returnedContract?_eq_some hr
    obtain ⟨ds, r, hd⟩ := result_of_returned hn
    simp only [checkResult, hr]
    rw [Run.exec_bind_ok (Run.exec_record _ w), Run.exec_bind_ok (Run.exec_guarded g n rule _),
      Run.exec_pure, World.note_fresh, World.note_note]
    exact .guarded hf hd rfl hn

/-- A result that is handed out passes the declared descriptor, whether or not it was put under a
contract on the way. -/
theorem Settles.accepts {k : Contract} {rule : TypeRefRule} {function : String} {u v : Value}
    {w w' : World} (h : Settles k rule function u w (.ok v, w')) :
    k.result.accepts rule v = .ok true := by
  cases h with
  | guarded flag declared returned derived =>
    rw [declared, Descriptor.accepts]
  | passed plain matched => exact matched

/-- A result that is handed out is the target's own, or the target's own callable under the
contract that is derived for it. -/
theorem Settles.own_or_guarded {k : Contract} {rule : TypeRefRule} {function : String}
    {u v : Value} {w w' : World} (h : Settles k rule function u w (.ok v, w')) :
    v = u ∨ (k.guardsReturned = true ∧ ∃ ds r g n, k.result = .callable ds r ∧ u = .callable g ∧
      k.returned g.signature = some n ∧ v = .callable (.guarded w.fresh g n rule)) := by
  cases h with
  | guarded flag declared returned derived =>
    exact .inr ⟨flag, _, _, _, _, declared, returned, derived, rfl⟩
  | passed plain matched => exact .inl rfl

/-- Where callables that are returned are guarded, a result that is declared as `Callable[...]` is
handed out under the contract that is derived for it. -/
theorem Settles.guarded_of_declared {k : Contract} {rule : TypeRefRule} {function : String}
    {u v : Value} {w w' : World} {ds : List Descriptor} {r : Descriptor}
    (hf : k.guardsReturned = true) (hr : k.result = .callable ds r)
    (h : Settles k rule function u w (.ok v, w')) :
    ∃ g n, u = .callable g ∧ k.returned g.signature = some n ∧
      v = .callable (.guarded w.fresh g n rule) := by
  cases h with
  | guarded flag declared returned derived => exact ⟨_, _, returned, derived, rfl⟩
  | passed plain matched =>
    -- only a callable passes `Callable[...]`, and a callable does not stay plain
    exfalso
    rw [hr] at matched
    cases u <;> simp [Descriptor.accepts] at matched
    simp [returnedContract?, hf, returned, hr] at plain

/-! ## The whole call -/

section Call

variable {k : Contract} {rule : TypeRefRule} {function : String} {args : List Value}

theorem exec_enforce_of_count {m : Misuse} (h : k.arity.check function args.length = .error m)
    (target : List Value → Run Value) (w : World) :
    (k.enforce rule function target args).exec w = (.error (.misuse m), w) := by
  rw [enforce, h]
  exact Run.exec_bind_error (Run.exec_ofMisuse_error m w)

theorem exec_enforce_of_check (h : k.arity.check function args.length = .ok ())
    (target : List Value → Run Value) (w : World) :
    (k.enforce rule function target args).exec w =
      (checkArguments rule function k.params args >>= fun _ =>
        target args >>= k.checkResult rule function).exec w := by
  rw [enforce, h]
  exact Run.exec_bind_ok (Run.exec_ofMisuse_ok () w)

theorem exec_enforce_of_refused {i : Nat} {p : ParamContract} {a : Value}
    (hc : k.arity.check function args.length = .ok ())
    (h : FirstRefused rule k.params args i p a) :
    ∃ events, ∀ target w, (k.enforce rule function target args).exec w =
      (.error (refusal rule function p a), w.note events) := by
  obtain ⟨events, hev⟩ := exec_checkArguments_of_refused function h
  refine ⟨events, fun target w => ?_⟩
  rw [exec_enforce_of_check hc, Run.exec_bind_error (hev w)]

/-- Arguments that all pass reach the target, as they came and once: the rest of the call is the
target's own run followed by the settling of its result. -/
theorem exec_enforce_of_accepted (hc : k.arity.check function args.length = .ok ())
    (h : AllAccepted rule k.params args) :
    ∃ events, ∀ target w, (k.enforce rule function target args).exec w =
      (target args >>= k.checkResult rule function).exec (w.note events) := by
  obtain ⟨events, hev⟩ := exec_checkArguments_of_accepted function h
  refine ⟨events, fun target w => ?_⟩
  rw [exec_enforce_of_check hc, Run.exec_bind_ok (hev w)]

/-- What a call that was answered went through. -/
theorem enforce_ok {target : List Value → Run Value} {w w' : World} {v : Value}
    (h : (k.enforce rule function target args).exec w = (.ok v, w')) :
    k.arity.check function args.length = .ok () ∧ AllAccepted rule k.params args ∧
      ∃ events u w₁, (target args).exec (w.note events) = (.ok u, w₁) ∧
        Settles k rule function u w₁ (.ok v, w') := by
  rcases hc : k.arity.check function args.length with m | ⟨⟩
  · rw [exec_enforce_of_count hc] at h
    simp at h
  · rcases allAccepted_or_firstRefused rule k.params args with ha | ⟨i, p, a, ha⟩
    · obtain ⟨events, hev⟩ := exec_enforce_of_accepted hc ha
      rw [hev] at h
      refine ⟨rfl, ha, events, ?_⟩
      rcases ht : (target args).exec (w.note events) with ⟨e | u, w₁⟩
      · rw [Run.exec_bind_error ht] at h
        simp at h
      · rw [Run.exec_bind_ok ht] at h
        exact ⟨u, w₁, rfl, h ▸ settles_checkResult k rule function u w₁⟩
    · obtain ⟨events, hev⟩ := exec_enforce_of_refused hc ha
      rw [hev] at h
      simp at h

end Call

/-- What a call under a contract does, for every target. A count that is not admitted, or else the
first argument that does not pass, is answered by its fault; the target is not run, since the answer
is the same for all targets, and nothing but the events changes. Otherwise the call is the target's
run on the original arguments and then the settling of what it returns, so a fault of the target is
the answer as it stands. An answered call hands out a value that passes the declared result: the
target's own, or its callable under the contract derived for it. -/
theorem enforce_refuses_or_runs_target_once (k : Contract) (rule : TypeRefRule) (function : String)
    (args : List Value) (w : World) :
    (∀ run id c, (Callable.guarded id c k rule).callWith run args =
      k.enforce rule c.name (fun given => c.callWith run given) args) ∧
    (∀ m, k.arity.check function args.length = .error m →
      m = .arity function k.arity args.length ∧
      ∀ target, (k.enforce rule function target args).exec w = (.error (.misuse m), w)) ∧
    (∀ i p a, k.arity.check function args.length = .ok () →
      FirstRefused rule k.params args i p a →
      ∃ events,
        (p.descriptor.accepts rule a = .ok false ∧
          ∀ target, (k.enforce rule function target args).exec w =
            (.error (.argument function p.name p.descriptor.text a.typeName), w.note events)) ∨
        (p.descriptor.accepts rule a = .error .noReturnMatched ∧
          ∀ target, (k.enforce rule function target args).exec w =
            (.error (.misuse .noReturnMatched), w.note events))) ∧
    (k.arity.check function args.length = .ok () → AllAccepted rule k.params args →
      ∃ events, ∀ target,
        (k.enforce rule function target args).exec w =
          (target args >>= k.checkResult rule function).exec (w.note events) ∧
        (∀ e w', (target args).exec (w.note events) = (.error e, w') →
          (k.enforce rule function target args).exec w = (.error e, w')) ∧
        ∀ u w', (target args).exec (w.note events) = (.ok u, w') →
          Settles k rule function u w' ((k.enforce rule function target args).exec w)) ∧
    (∀ target v w', (k.enforce rule function target args).exec w = (.ok v, w') →
      k.result.accepts rule v = .ok true ∧
      ∃ events u w₁, (target args).exec (w.note events) = (.ok u, w₁) ∧
        (v = u ∨ (k.guardsReturned = true ∧ ∃ ds r g n, k.result = .callable ds r ∧
          u = .callable g ∧ k.returned g.signature = some n ∧
          v = .callable (.guarded w₁.fresh g n rule)))) := by
  refine ⟨fun run id c => by rw [Callable.callWith], fun m hm => ⟨?_, fun target => ?_⟩,
    fun i p a hc hr => ?_, fun hc ha => ?_, fun target v w' h => ?_⟩
  · unfold Count.check at hm
    split at hm
    · cases hm
    · exact (Except.error.inj hm).symm
  · exact exec_enforce_of_count hm target w
  · obtain ⟨events, hev⟩ := exec_enforce_of_refused hc hr
    refine ⟨events, ?_⟩
    rcases Descriptor.accepts_cases rule p.descriptor a with h | h | h
    · exact absurd h hr.refused
    · exact .inl ⟨h, fun target => by rw [hev, refusal, h]⟩
    · exact .inr ⟨h, fun target => by rw [hev, refusal, h]⟩
  · obtain ⟨events, hev⟩ := exec_enforce_of_accepted hc ha
    refine ⟨events, fun target => ⟨hev target w, fun e w' he => ?_, fun u w' hu => ?_⟩⟩
    · rw [hev, Run.exec_bind_error he]
    · rw [hev, Run.exec_bind_ok hu]
      exact settles_checkResult k rule function u w'
  · obtain ⟨-, -, events, u, w₁, ht, hs⟩ := enforce_ok h
    exact ⟨hs.accepts, events, u, w₁, ht, hs.own_or_guarded⟩

/-- What becomes of a call under a contract, as a function of the target. Only arguments that are
admitted in number and that all pass reach the target, once and as they came. All others are answered
by the contract's own fault, whatever the target is. -/
inductive Held (k : Contract) (rule : TypeRefRule) (function : String) (args : List Value)
    (call : (List Value → Run Value) → Run Value) : Prop where
  | count (count : k.arity.admits args.length = false)
      (answer : ∀ target w, (call target).exec w =
        (.error (.misuse (.arity function k.arity args.length)), w))
  | refused {i : Nat} {p : ParamContract} {a : Value} {events : List Event}
      (count : k.arity.admits args.length = true) (first : FirstRefused rule k.params args i p a)
      (answer : ∀ target w, (call target).exec w =
        (.error (refusal rule function p a), w.note events))
  | runs {events : List Event} (count : k.arity.admits args.length = true)
      (accepted : AllAccepted rule k.params args)
      (answer : ∀ target w, (call target).exec w =
        (target args >>= k.checkResult rule function).exec (w.note events))

theorem held_enforce (k : Contract) (rule : TypeRefRule) (function : String)
    (args : List Value) :
    k.Held rule function args fun target => k.enforce rule function target args := by
  rcases hc : k.arity.admits args.length with _ | _
  · have hcount : k.arity.check function args.length =
        .error (.arity function k.arity args.length) := by
      rw [Count.check, hc]
      rfl
    exact .count hc (exec_enforce_of_count hcount)
  · have hcount : k.arity.check function args.length = .ok () := by
      rw [Count.check, if_pos hc]
    rcases allAccepted_or_firstRefused rule k.params args with ha | ⟨i, p, a, ha⟩
    · obtain ⟨events, hev⟩ := exec_enforce_of_accepted hcount ha
      exact .runs hc ha hev
    · obtain ⟨events, hev⟩ := exec_enforce_of_refused hcount ha
      exact .refused hc ha hev

end Contract

/-! ## Two calls of one target -/

/-- Two calls of one target go the same way, whatever the target does: both are refused, with faults
that `R` relates, or both run the target once, on `args`, and settle what it returns by `settle` and
by `settle'`. Before that they differ in the log at most. -/
inductive Parallel (R : Fault → Fault → Prop) (args : List Value) (settle settle' : Value → Run Value)
    (x y : (List Value → Run Value) → Run Value) : Prop where
  | refused {f f' : Fault} {events events' : List Event} (faults : R f f')
      (h : ∀ target w, (x target).exec w = (.error f, w.note events) ∧
        (y target).exec w = (.error f', w.note events'))
  | runs {events events' : List Event}
      (h : ∀ target w, (x target).exec w = (target args >>= settle).exec (w.note events) ∧
        (y target).exec w = (target args >>= settle').exec (w.note events'))

end CallGuard
