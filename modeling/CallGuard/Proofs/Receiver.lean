import CallGuard.Proofs.Declarations
import CallGuard.Proofs.Enforcement
import CallGuard.Proofs.Runs

/-!
# Receivers and contracts

A method can be put under a contract and then given its receiver, or the other way round. The
contract of the shortened signature is the contract of the method without its first parameter
(`Engine.contractFor_withoutReceiver`), so a receiver that passes the first descriptor makes no
difference but to the log: where the count of arguments is admitted, the two calls are one
computation (`Contract.exec_enforce_receiver`).
-/

namespace CallGuard

namespace Signature

variable {α : Type}

theorem positional_withoutReceiver (s : Signature α) :
    s.withoutReceiver.positional = s.positional.tail :=
  List.filter_eraseP_eq_tail _ _

theorem hasVariadic_withoutReceiver (s : Signature α) :
    s.withoutReceiver.hasVariadic = s.hasVariadic :=
  List.any_eraseP_not _ _

end Signature

theorem Count.admits_ofPositions_succ (required declared given : Nat) (variadic : Bool) :
    (Count.ofPositions (required + 1) (declared + 1) variadic).admits (given + 1) =
      (Count.ofPositions required declared variadic).admits given := by
  rw [Bool.eq_iff_iff, admits_ofPositions, admits_ofPositions, Nat.add_le_add_iff_right,
    Nat.add_le_add_iff_right]

/-- The faults are the same, or both are about a count of arguments. -/
def Fault.SameOrArity (f f' : Fault) : Prop :=
  f = f' ∨ ∃ n c given n' c' given',
    f = .misuse (.arity n c given) ∧ f' = .misuse (.arity n' c' given')

/-- Where the log has no influence, two calls that go the same way are both refused, or have one
outcome and leave the same world but for the log. -/
theorem Parallel.outcome {R : Fault → Fault → Prop} {args : List Value} {settle : Value → Run Value}
    {x y : (List Value → Run Value) → Run Value} (h : Parallel R args settle settle x y)
    {target : List Value → Run Value}
    (halike : Run.Alike id (Value.rename id) (target args >>= settle) (target args >>= settle))
    {w w' : World} (hw : w.silent = w'.silent) :
    ((∃ f f', R f f' ∧ ((x target).exec w).1 = .error f ∧ ((y target).exec w').1 = .error f') ∨
      ((x target).exec w).1 = ((y target).exec w').1) ∧
    ((x target).exec w).2.silent = ((y target).exec w').2.silent := by
  cases h with
  | refused faults h =>
    rw [(h target w).1, (h target w').2]
    exact ⟨.inl ⟨_, _, faults, rfl, rfl⟩, by simp [hw]⟩
  | @runs events events' h =>
    have hnoted : (w.note events).silent = (w'.note events').silent := by simp [hw]
    rw [(h target w).1, (h target w').2]
    exact ⟨.inr (halike.exec_eq hnoted).1, (halike.exec_eq hnoted).2⟩

namespace Contract

/-- The contract that is left when the first parameter has been supplied. -/
def withoutReceiver (k : Contract) : Contract := { k with params := k.params.tail }

theorem Declares.withoutReceiver {s : Scope} {sig : Signature Value} {k : Contract}
    (h : k.Declares s sig) : k.withoutReceiver.Declares s sig.withoutReceiver where
  params := by
    rw [Signature.positional_withoutReceiver, Contract.withoutReceiver, ← List.drop_one,
      ← List.drop_one]
    exact List.forall₂_drop 1 h.params
  result := h.result
  variadic := h.variadic.trans (Signature.hasVariadic_withoutReceiver sig).symm

theorem checkResult_withoutReceiver (k : Contract) (rule : TypeRefRule) (function : String) :
    k.withoutReceiver.checkResult rule function = k.checkResult rule function := rfl

section Enforce

variable {k : Contract} {q : ParamContract} {qs : List ParamContract} {rule : TypeRefRule}
  {r : Value}

/-- A first parameter that must be supplied counts for one argument. -/
theorem admits_withoutReceiver (hk : k.params = q :: qs) (hq : q.hasDefault = false)
    (given : Nat) : k.arity.admits (given + 1) = k.withoutReceiver.arity.admits given := by
  have hrequired : k.required = k.withoutReceiver.required + 1 := by
    simp [required, withoutReceiver, hk, hq]
  have hlength : k.params.length = k.withoutReceiver.params.length + 1 := by
    simp [withoutReceiver, hk]
  rw [arity, hrequired, hlength, Count.admits_ofPositions_succ]
  rfl

/-- A call with a receiver that passes is the call without it, but for the log. -/
theorem exec_enforce_receiver (hk : k.params = q :: qs) (hq : q.hasDefault = false)
    (hr : q.descriptor.accepts rule r = .ok true) {args : List Value}
    (hc : k.withoutReceiver.arity.admits args.length = true) (function : String)
    (target : List Value → Run Value) (w : World) :
    (k.enforce rule function target (r :: args)).exec w =
      (k.withoutReceiver.enforce rule function (fun given => target (r :: given)) args).exec
        (w.note (q.descriptor.decisions rule r)) := by
  have hcount : k.arity.check function (r :: args).length = .ok () := by
    rw [Count.check, List.length_cons, admits_withoutReceiver hk hq, if_pos hc]
  have hcount' : k.withoutReceiver.arity.check function args.length = .ok () := by
    rw [Count.check, if_pos hc]
  have hqs : k.withoutReceiver.params = qs := by simp [withoutReceiver, hk]
  rw [exec_enforce_of_check hcount, exec_enforce_of_check hcount', hk, hqs,
    checkResult_withoutReceiver]
  rcases hargs : (checkArguments rule function qs args).exec (w.note (q.descriptor.decisions rule r))
    with ⟨f | ⟨⟩, w'⟩
  · rw [Run.exec_bind_error hargs]
    rw [← exec_checkArguments_cons function qs args hr] at hargs
    rw [Run.exec_bind_error hargs]
  · rw [Run.exec_bind_ok hargs]
    rw [← exec_checkArguments_cons function qs args hr] at hargs
    rw [Run.exec_bind_ok hargs]

/-- With and without a receiver that passes, a call goes the same way. -/
theorem parallel_enforce_receiver (hk : k.params = q :: qs) (hq : q.hasDefault = false)
    (hr : q.descriptor.accepts rule r = .ok true) (function : String) (args : List Value) :
    Parallel Fault.SameOrArity (r :: args) (k.checkResult rule function)
      (k.checkResult rule function)
      (fun target => k.enforce rule function target (r :: args))
      (fun target => k.withoutReceiver.enforce rule function (fun given => target (r :: given))
        args) := by
  cases k.withoutReceiver.held_enforce rule function args with
  | count count answer =>
    have hcount : k.arity.check function (r :: args).length =
        .error (.arity function k.arity (r :: args).length) := by
      rw [Count.check, List.length_cons, admits_withoutReceiver hk hq, count]
      rfl
    have hev : ∀ target w, (k.withoutReceiver.enforce rule function target args).exec w =
        (.error (.misuse (.arity function k.withoutReceiver.arity args.length)), w.note []) := by
      intro target w
      rw [answer, World.note_nil]
    have hev' : ∀ target w, (k.enforce rule function target (r :: args)).exec w =
        (.error (.misuse (.arity function k.arity (r :: args).length)), w.note []) := by
      intro target w
      rw [exec_enforce_of_count hcount, World.note_nil]
    exact .refused (.inr ⟨_, _, _, _, _, _, rfl, rfl⟩) fun target w => ⟨hev' target w, hev _ w⟩
  | @refused i p a events count first answer =>
    have hev : ∀ target w, (k.enforce rule function target (r :: args)).exec w =
        (.error (refusal rule function p a),
          w.note (q.descriptor.decisions rule r ++ events)) := by
      intro target w
      rw [exec_enforce_receiver hk hq hr count, answer, World.note_note]
    exact .refused (.inl rfl) fun target w => ⟨hev target w, answer _ w⟩
  | @runs events count accepted answer =>
    have hev : ∀ target w, (k.enforce rule function target (r :: args)).exec w =
        (target (r :: args) >>= k.checkResult rule function).exec
          (w.note (q.descriptor.decisions rule r ++ events)) := by
      intro target w
      rw [exec_enforce_receiver hk hq hr count, answer, World.note_note,
        checkResult_withoutReceiver]
    exact .runs fun target w => ⟨hev target w, answer _ w⟩

end Enforce

end Contract

/-- The contract of the signature that is left to a receiver's method is the method's contract
without its first parameter. -/
theorem Engine.contractFor_withoutReceiver {e : Engine} {sig : Signature Value} {k : Contract}
    {p : Param Value} {ps : List (Param Value)} (h : e.contractFor sig = .ok k)
    (hp : sig.positional = p :: ps) :
    e.contractFor sig.withoutReceiver = .ok k.withoutReceiver ∧
      ∃ d, Contract.declaredDescriptor e.scope p.declared = .ok d ∧
        k.params.head? = some ⟨p.name, d, p.default.isSome⟩ := by
  obtain ⟨hdeclares, hreturned⟩ := contractFor_eq_ok_iff.1 h
  have hparams := hdeclares.params
  rw [hp] at hparams
  obtain ⟨q, qs, hq, -, hqs⟩ := List.forall₂_cons_left_iff.1 hparams
  refine ⟨contractFor_eq_ok_iff.2 ⟨hdeclares.withoutReceiver, hreturned⟩, _, hq.descriptor, ?_⟩
  rw [hqs, List.head?_cons, ← hq.name, ← hq.hasDefault]

/-- Contracts and receivers commute. Let the contract of `m` be `k`, let the first positional
parameter of `m` have no default, and let `r` pass its descriptor. Then `m` under its contract with
the receiver `r`, and `m` with the receiver `r` under the contract of what is left of its signature,
are called alike: both calls are refused for their count, or both are refused for the same reason
whatever `m` does, or both run `m` once, on the receiver and the arguments, and settle its result
alike. So where bodies depend neither on the log nor on identities, two calls that are not refused for
their count have one outcome, and both leave the same world but for the log. -/
theorem receiver_commutes_with_contract (e : Engine) (m : Callable) (k : Contract)
    (p : Param Value) (ps : List (Param Value)) (d : Descriptor) (r : Value) (args : List Value)
    (w : World) (hk : e.contractFor m.signature = .ok k) (hp : m.signature.positional = p :: ps)
    (hdefault : p.default = none) (hd : Contract.declaredDescriptor e.scope p.declared = .ok d)
    (hr : d.accepts e.config.rule r = .ok true) :
    ∃ bound wrapped w₁ w₂,
      (e.wrap (.callable m) >>= fun c => Run.bind r c).exec w = (.ok bound, w₁) ∧
      (Run.bind r m >>= fun c => e.wrap (.callable c)).exec w = (.ok wrapped, w₂) ∧
      w₁.silent = w₂.silent ∧
      (∀ run, bound.callWith run args =
        k.enforce e.config.rule m.name (fun given => m.callWith run given) (r :: args)) ∧
      (∀ run, wrapped.callWith run args = k.withoutReceiver.enforce e.config.rule m.name
        (fun given => m.callWith run (r :: given)) args) ∧
      Parallel Fault.SameOrArity (r :: args) (k.checkResult e.config.rule m.name)
        (k.checkResult e.config.rule m.name)
        (fun target => k.enforce e.config.rule m.name target (r :: args))
        (fun target => k.withoutReceiver.enforce e.config.rule m.name
          (fun given => target (r :: given)) args) ∧
      ∀ run : Behaviour, run.Uniform →
        ((∃ f c n f' c' n',
          ((bound.callWith run args).exec w₁).1 = .error (.misuse (.arity f c n)) ∧
          ((wrapped.callWith run args).exec w₂).1 = .error (.misuse (.arity f' c' n'))) ∨
        ((bound.callWith run args).exec w₁).1 = ((wrapped.callWith run args).exec w₂).1) ∧
        ((bound.callWith run args).exec w₁).2.silent =
          ((wrapped.callWith run args).exec w₂).2.silent := by
  obtain ⟨hk', d', hd', hhead⟩ := Engine.contractFor_withoutReceiver hk hp
  obtain rfl : d = d' := Except.ok.inj (hd.symm.trans hd')
  rw [hdefault] at hhead
  obtain ⟨qs, hqs⟩ := List.head?_eq_some_iff.1 hhead
  have hbound : ∀ run, (Callable.bound (w.fresh + 1) r (.guarded w.fresh m k e.config.rule)).callWith
      run args = k.enforce e.config.rule m.name (fun given => m.callWith run given) (r :: args) := by
    intro run
    rw [Callable.callWith, Callable.callWith]
  have hwrapped : ∀ run, (Callable.guarded (w.fresh + 1) (.bound w.fresh r m) k.withoutReceiver
      e.config.rule).callWith run args = k.withoutReceiver.enforce e.config.rule m.name
        (fun given => m.callWith run (r :: given)) args := by
    intro run
    rw [Callable.callWith]
    rfl
  have hpar := Contract.parallel_enforce_receiver hqs rfl hr m.name args
  refine ⟨_, _, (w.note [.guarding m.name k.params.length k.result.text]).spendId.spendId,
    (w.spendId.note [.guarding m.name k.withoutReceiver.params.length k.result.text]).spendId,
    ?_, ?_, by simp, hbound, hwrapped, hpar, fun run hrun => ?_⟩
  · rw [Run.exec_bind_ok (Engine.exec_wrap_of_ok hk w), Run.exec_bindTo]
    simp [World.spendId]
  · rw [Run.exec_bind_ok (Run.exec_bindTo r m w)]
    exact Engine.exec_wrap_of_ok hk' _
  · rw [hbound, hwrapped]
    have halike := (Run.Alike.callWith Function.injective_id hrun m (r :: args)).bind fun u =>
      .checkResult k e.config.rule m.name u
    rw [Callable.rename_id, Value.map_rename_id] at halike
    have hw : ((w.note [.guarding m.name k.params.length k.result.text]).spendId.spendId).silent =
        (w.spendId.note [.guarding m.name k.withoutReceiver.params.length
          k.result.text]).spendId.silent := by simp
    obtain ⟨houtcome, hworld⟩ := hpar.outcome halike hw
    refine ⟨?_, hworld⟩
    rcases houtcome with ⟨f, f', rfl | ⟨n, c, i, n', c', i', rfl, rfl⟩, hf, hf'⟩ | hsame
    · exact .inr (hf.trans hf'.symm)
    · exact .inl ⟨n, c, i, n', c', i', hf, hf'⟩
    · exact .inr hsame

/-- A method that collects what is left over before it takes its receiver. -/
def shift : Callable :=
  .function 0 "shift"
    { params := [⟨"rest", true, none, none⟩, ⟨"self", false, none, some (.ty (.builtin .int))⟩,
        ⟨"by", false, some (.int 1), some (.ty (.builtin .int))⟩]
      result := some (.ty (.builtin .int)) }
    [] (.add (.arg 0 0) (.arg 0 1))

/-- Given the receiver 4 before or after its contract, `shift` makes 6 of the argument 2. -/
theorem shift_commutes_with_receiver :
    ∃ bound wrapped w₁ w₂,
      (({} : Engine).wrap (.callable shift) >>= fun c => Run.bind (.int 4) c).exec
        (World.start true) = (.ok bound, w₁) ∧
      (Run.bind (.int 4) shift >>= fun c => ({} : Engine).wrap (.callable c)).exec
        (World.start true) = (.ok wrapped, w₂) ∧
      ((bound.callWith (behaviour 1) [.int 2]).exec w₁).1 = .ok (.int 6) ∧
      ((wrapped.callWith (behaviour 1) [.int 2]).exec w₂).1 = .ok (.int 6) := by
  obtain ⟨bound, wrapped, w₁, w₂, hbound, hwrapped, -, -, -, -, hrun⟩ :=
    receiver_commutes_with_contract {} shift _ _ _ (.nominal (.builtin .int)) (.int 4) [.int 2]
      (World.start true) rfl rfl rfl rfl rfl
  have hsix : ((bound.callWith (behaviour 1) [.int 2]).exec w₁).1 = .ok (.int 6) := by
    cases hbound
    rfl
  rcases hrun (behaviour 1) (behaviour_uniform 1) with ⟨⟨_, _, _, _, _, _, h, -⟩ | h, -⟩
  · rw [hsix] at h
    cases h
  · exact ⟨bound, wrapped, w₁, w₂, hbound, hwrapped, hsix, h ▸ hsix⟩

end CallGuard
