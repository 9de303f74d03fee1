import CallGuard.Proofs.Enforcement
import CallGuard.Proofs.Runs
import Mathlib.Order.Monotone.Basic

/-!
# A contract over itself

A callable that is put under a contract it is under already behaves as before. One call runs the
target as often and settles its result alike; where a returned callable is put under a contract of its
own, it is so twice (`Contract.AnswersTwice`). Hence calls of what is returned, one after the other,
are answered alike. The wrapper that is made in addition takes an identity, so the identities that
come later differ; `skip` says how.
-/

namespace CallGuard

theorem World.spendId_note (w : World) (events : List Event) :
    w.spendId.note events = (w.note events).spendId := by
  unfold note spendId
  split <;> rfl

namespace Contract

variable {k n : Contract} {u : Value} {g : Callable}

/-! ## A result that is settled twice -/

/-- What becomes of a result that is not put under a contract. -/
def verdict (k : Contract) (rule : TypeRefRule) (function : String) (u : Value) :
    Except Fault Value :=
  match k.result.accepts rule u with
  | .ok true => .ok u
  | .ok false => .error (.result function k.result.text)
  | .error m => .error (.misuse m)

theorem verdict_eq_ok {rule : TypeRefRule} {function : String} {v : Value}
    (h : k.verdict rule function u = .ok v) : v = u := by
  unfold verdict at h
  split at h <;> cases h
  rfl

theorem exec_checkResult_of_plain (h : k.returnedContract? u = none) (rule : TypeRefRule)
    (function : String) (w : World) :
    ∃ events, (k.checkResult rule function u).exec w =
      (k.verdict rule function u, w.note events) := by
  have hs := settles_checkResult k rule function u w
  revert hs
  generalize (k.checkResult rule function u).exec w = answer
  intro hs
  cases hs with
  | guarded flag declared returned derived =>
    subst returned
    simp [returnedContract?, flag, derived] at h
  | passed plain matched => exact ⟨_, by rw [verdict, matched]⟩
  | refused plain matched => exact ⟨_, by rw [verdict, matched]⟩
  | unmatchable plain matched => exact ⟨_, by rw [verdict, matched]⟩

theorem exec_checkResult_of_returned (h : k.returnedContract? u = some (g, n)) (rule : TypeRefRule)
    (function : String) (w : World) :
    ∃ events, (k.checkResult rule function u).exec w =
      (.ok (.callable (.guarded w.fresh g n rule)), (w.note events).spendId) := by
  refine ⟨[.derived function g.name n.params.length] ++
    [.guarding g.name n.params.length n.result.text], ?_⟩
  simp only [checkResult, h]
  rw [Run.exec_bind_ok (Run.exec_record _ w), Run.exec_bind_ok (Run.exec_guarded g n rule _),
    Run.exec_pure, World.note_fresh, World.note_note]

theorem exec_checkResult_twice_of_plain (h : k.returnedContract? u = none) (rule : TypeRefRule)
    (function : String) (w : World) :
    ∃ events, (k.checkResult rule function u >>= k.checkResult rule function).exec w =
      (k.verdict rule function u, w.note events) := by
  obtain ⟨events, hev⟩ := exec_checkResult_of_plain h rule function w
  rcases hv : k.verdict rule function u with f | v
  · rw [hv] at hev
    exact ⟨events, Run.exec_bind_error hev⟩
  · obtain rfl := verdict_eq_ok hv
    rw [hv] at hev
    obtain ⟨events', hev'⟩ := exec_checkResult_of_plain h rule function (w.note events)
    rw [hv, World.note_note] at hev'
    exact ⟨_, (Run.exec_bind_ok hev).trans hev'⟩

theorem returnedContract?_guarded (flag : k.guardsReturned = true)
    (derived : k.returned g.signature = some n) (i : Nat) (rule : TypeRefRule) :
    k.returnedContract? (.callable (.guarded i g n rule)) = some (.guarded i g n rule, n) := by
  simp [returnedContract?, flag, Callable.signature, derived]

/-- A returned callable that was put under its contract is put under the same contract again. -/
theorem exec_checkResult_twice_of_returned (h : k.returnedContract? u = some (g, n))
    (rule : TypeRefRule) (function : String) (w : World) :
    ∃ events, (k.checkResult rule function u >>= k.checkResult rule function).exec w =
      (.ok (.callable (.guarded (w.fresh + 1) (.guarded w.fresh g n rule) n rule)),
        (w.note events).spendId.spendId) := by
  obtain ⟨flag, -, derived⟩ := returnedContract?_eq_some h
  have hagain := returnedContract?_guarded flag derived w.fresh rule
  obtain ⟨events, hev⟩ := exec_checkResult_of_returned h rule function w
  obtain ⟨events', hev'⟩ :=
    exec_checkResult_of_returned hagain rule function (w.note events).spendId
  refine ⟨events ++ events', ?_⟩
  rw [Run.exec_bind_ok hev, hev', World.spendId_note, World.note_note]
  simp [World.spendId]

/-! ## One call -/

/-- Arguments that a contract lets through pass it again, and those it refuses are refused
before. -/
theorem parallel_enforce_twice (k : Contract) (rule : TypeRefRule) (function : String)
    (args : List Value) :
    Parallel Eq args (k.checkResult rule function)
      (fun u => k.checkResult rule function u >>= k.checkResult rule function)
      (fun target => k.enforce rule function target args)
      (fun target => k.enforce rule function
        (fun given => k.enforce rule function target given) args) := by
  cases k.held_enforce rule function args with
  | count count answer =>
    have hev : ∀ target w, (k.enforce rule function target args).exec w =
        (.error (.misuse (.arity function k.arity args.length)), w.note []) := by
      intro target w
      rw [answer, World.note_nil]
    exact .refused rfl fun target w => ⟨hev _ w, hev _ w⟩
  | refused count first answer => exact .refused rfl fun target w => ⟨answer _ w, answer _ w⟩
  | @runs events count accepted answer =>
    have hev : ∀ target w, (k.enforce rule function
        (fun given => k.enforce rule function target given) args).exec w =
        (target args >>= fun u => k.checkResult rule function u >>=
          k.checkResult rule function).exec (w.note (events ++ events)) := by
      intro target w
      rw [answer, Run.exec_bind, answer, ← Run.exec_bind, bind_assoc, World.note_note]
    exact .runs fun target w => ⟨answer target w, hev target w⟩

/-- The answers to one call of a callable that is under the contract `k` once, and twice: the same
fault, the same value that needs no contract, or the same returned callable under the contract derived
for it, once and twice. The wrappers have identities that `start` had not given away; but for the
further one of them, the worlds that are left differ only in the log. -/
inductive AnswersTwice (k : Contract) (rule : TypeRefRule) (start : World) :
    Except Fault Value × World → Except Fault Value × World → Prop where
  | fault {f : Fault} {w w' : World} (worlds : w.silent = w'.silent) :
      AnswersTwice k rule start (.error f, w) (.error f, w')
  | plain {v : Value} {w w' : World} (plain : k.returnedContract? v = none)
      (worlds : w.silent = w'.silent) : AnswersTwice k rule start (.ok v, w) (.ok v, w')
  | derived {g : Callable} {n : Contract} {w w' : World} (flag : k.guardsReturned = true)
      (derived : k.returned g.signature = some n) (new : start.fresh ≤ w.fresh)
      (worlds : w.silent = w'.silent) :
      AnswersTwice k rule start (.ok (.callable (.guarded w.fresh g n rule)), w.spendId)
        (.ok (.callable (.guarded (w.fresh + 1) (.guarded w.fresh g n rule) n rule)),
          w'.spendId.spendId)

theorem answersTwice_of_settled (rule : TypeRefRule) (function : String) (u : Value)
    {start w w' : World} (hstart : start.fresh ≤ w.fresh) (h : w.silent = w'.silent) :
    k.AnswersTwice rule start ((k.checkResult rule function u).exec w)
      ((k.checkResult rule function u >>= k.checkResult rule function).exec w') := by
  rcases hret : k.returnedContract? u with _ | ⟨g, n⟩
  · obtain ⟨events, hev⟩ := exec_checkResult_of_plain hret rule function w
    obtain ⟨events', hev'⟩ := exec_checkResult_twice_of_plain hret rule function w'
    have hnoted : (w.note events).silent = (w'.note events').silent := by simp [h]
    rw [hev, hev']
    rcases hv : k.verdict rule function u with f | v
    · exact .fault hnoted
    · obtain rfl := verdict_eq_ok hv
      exact .plain hret hnoted
  · obtain ⟨events, hev⟩ := exec_checkResult_of_returned hret rule function w
    obtain ⟨events', hev'⟩ := exec_checkResult_twice_of_returned hret rule function w'
    obtain ⟨flag, -, derived⟩ := returnedContract?_eq_some hret
    have hnoted : (w.note events).silent = (w'.note events').silent := by simp [h]
    have hfresh : w'.fresh = (w.note events).fresh := by
      rw [World.note_fresh, (World.silent_eq_iff.1 h).1]
    rw [hev, hev', hfresh, ← World.note_fresh w events]
    exact .derived flag derived (by simpa using hstart) hnoted

section Inversion

variable {rule : TypeRefRule} {start w₁ : World} {answer : Except Fault Value × World}

theorem AnswersTwice.of_fault {f : Fault} (h : k.AnswersTwice rule start (.error f, w₁) answer) :
    ∃ w', answer = (.error f, w') ∧ w₁.silent = w'.silent := by
  cases h with
  | fault worlds => exact ⟨_, rfl, worlds⟩

theorem AnswersTwice.of_plain {v : Value} (h : k.AnswersTwice rule start (.ok v, w₁) answer)
    (hv : k.returnedContract? v = none) :
    ∃ w', answer = (.ok v, w') ∧ w₁.silent = w'.silent := by
  cases h with
  | plain plain worlds => exact ⟨_, rfl, worlds⟩
  | derived flag derived new worlds =>
    rw [returnedContract?_guarded flag derived] at hv
    cases hv

theorem AnswersTwice.of_returned {v : Value} (h : k.AnswersTwice rule start (.ok v, w₁) answer)
    (hv : k.returnedContract? v ≠ none) :
    ∃ (g : Callable) (n : Contract) (w w' : World),
      v = .callable (.guarded w.fresh g n rule) ∧ w₁ = w.spendId ∧
      start.fresh ≤ w.fresh ∧ w.silent = w'.silent ∧
      answer = (.ok (.callable (.guarded (w.fresh + 1) (.guarded w.fresh g n rule) n rule)),
        w'.spendId.spendId) := by
  cases h with
  | plain plain worlds => exact absurd plain hv
  | derived flag derived new worlds => exact ⟨_, _, _, _, rfl, rfl, new, worlds, rfl⟩

end Inversion

end Contract

/-- A callable that is under a contract twice answers a call as it does under the contract once. -/
theorem Callable.answersTwice {run : Behaviour} (hrun : run.Uniform) (a b c : Nat) (t : Callable)
    (k : Contract) (rule : TypeRefRule) (args : List Value) (w : World) :
    k.AnswersTwice rule w (((Callable.guarded a t k rule).callWith run args).exec w)
      (((Callable.guarded b (.guarded c t k rule) k rule).callWith run args).exec w) := by
  have honce : (Callable.guarded a t k rule).callWith run args =
      k.enforce rule t.name (fun given => t.callWith run given) args := by rw [Callable.callWith]
  have htwice : (Callable.guarded b (.guarded c t k rule) k rule).callWith run args =
      k.enforce rule t.name
        (fun given => k.enforce rule t.name (fun given => t.callWith run given) given) args := by
    simp only [Callable.callWith, Callable.name]
  rw [honce, htwice]
  cases Contract.parallel_enforce_twice k rule t.name args with
  | refused faults h =>
    rw [(h _ w).1, (h _ w).2, faults]
    exact .fault (by simp)
  | @runs events events' h =>
    rw [(h _ w).1, (h _ w).2]
    have halike := Run.Alike.callWith Function.injective_id hrun t args
    rw [Callable.rename_id, Value.map_rename_id] at halike
    have hnoted : (w.note events).silent = (w.note events').silent := by simp
    obtain ⟨hr, hw⟩ := halike.exec_eq hnoted
    have hstart := (halike.keeps (w.note events)).fresh
    rcases hx : (t.callWith run args).exec (w.note events) with ⟨f | u, w₁⟩ <;>
      rcases hx' : (t.callWith run args).exec (w.note events') with ⟨f' | u', w₁'⟩ <;>
      rw [hx, hx'] at hr hw <;> rw [hx] at hstart <;> cases hr
    · rw [Run.exec_bind_error hx, Run.exec_bind_error hx']
      exact .fault hw
    · rw [Run.exec_bind_ok hx, Run.exec_bind_ok hx']
      exact k.answersTwice_of_settled rule t.name u (by simpa using hstart) hw

/-! ## Identities after further wrappers -/

/-- The identity that corresponds to `i` where, after each identity in `points`, one more was given
away. -/
def skip (points : List Nat) (i : Nat) : Nat := i + points.countP (· < i)

theorem strictMono_skip (points : List Nat) : StrictMono (skip points) := by
  intro i j hij
  have hcount : points.countP (· < i) ≤ points.countP (· < j) :=
    List.countP_mono_left fun p _ hp => by
      simp only [decide_eq_true_eq] at hp ⊢
      omega
  unfold skip
  omega

theorem injective_skip (points : List Nat) : Function.Injective (skip points) :=
  (strictMono_skip points).injective

theorem skip_of_le {points : List Nat} {i : Nat} (h : ∀ p ∈ points, i ≤ p) : skip points i = i := by
  have hcount : points.countP (· < i) = 0 :=
    List.countP_eq_zero.2 fun p hp => by simpa using h p hp
  rw [skip, hcount, Nat.add_zero]

theorem skip_append {before after : List Nat} {i : Nat} (hbefore : ∀ p ∈ before, p < i)
    (hafter : ∀ p ∈ after, i ≤ p) : skip (before ++ after) i = i + before.length := by
  have hcount : before.countP (· < i) = before.length :=
    List.countP_eq_length.2 fun p hp => by simpa using hbefore p hp
  have hskip := skip_of_le hafter
  unfold skip at hskip ⊢
  rw [List.countP_append, hcount]
  omega

/-- `w'` is `w` after further identities were given away in `points`. -/
structure World.Beside (π : Nat → Nat) (points : List Nat) (w w' : World) : Prop extends
    World.Renamed π w w' where
  before : ∀ p ∈ points, p < w.fresh
  fresh : w'.fresh = w.fresh + points.length

theorem World.Beside.tracks {before after : List Nat} {w w' : World}
    (h : w.Beside (skip (before ++ after)) before w') {n : Nat}
    (hafter : ∀ p ∈ after, n ≤ p + 1) : w.Tracks (skip (before ++ after)) n w' where
  toRenamed := h.toRenamed
  aligned i hi := by
    have hb := h.before
    rw [skip_append (fun p hp => by have := hb p hp; omega) fun p hp => by
      have := hafter p hp
      omega, h.fresh]
    omega

/-- One more wrapper on the side of `w'`, right after the wrapper that both sides make. -/
theorem World.Beside.wrapped {before after : List Nat} {w w' : World}
    (hbefore : ∀ p ∈ before, p < w.fresh) (hafter : ∀ p ∈ w.fresh :: after, w.fresh ≤ p)
    (hw : w.Renamed (skip (before ++ w.fresh :: after)) w')
    (hfresh : skip (before ++ w.fresh :: after) w.fresh = w'.fresh) :
    w.spendId.Beside (skip (before ++ w.fresh :: after)) (before ++ [w.fresh])
      w'.spendId.spendId where
  fields := hw.fields
  methods := hw.methods
  before := by
    intro p hp
    rcases List.mem_append.1 hp with hp | hp
    · exact Nat.lt_succ_of_lt (hbefore p hp)
    · rw [List.mem_singleton.1 hp]
      exact Nat.lt_succ_self _
  fresh := by
    rw [skip_append hbefore hafter] at hfresh
    simp only [World.spendId, ← hfresh, List.length_append, List.length_singleton]
    omega

/-! ## Calls of what is returned -/

/-- The values of calls one after the other, each of what the one before it returned. -/
def callInTurn (run : Behaviour) (v : Value) (argss : List (List Value)) : Run Value :=
  argss.foldlM (Body.callValue run) v

theorem callInTurn_cons (run : Behaviour) (v : Value) (args : List Value)
    (argss : List (List Value)) : callInTurn run v (args :: argss) =
      Body.callValue run v args >>= fun u => callInTurn run u argss :=
  List.foldlM_cons ..

theorem Run.Alike.callInTurn {π : Nat → Nat} (hπ : Function.Injective π) {run : Behaviour}
    (hrun : run.Uniform) (v : Value) (argss : List (List Value)) :
    Alike π (Value.rename π) (CallGuard.callInTurn run v argss)
      (CallGuard.callInTurn run (v.rename π) (argss.map (List.map (Value.rename π)))) := by
  induction argss generalizing v with
  | nil => exact .pure rfl
  | cons args argss ih =>
    rw [List.map_cons, callInTurn_cons, callInTurn_cons]
    exact .bind (.callValue hπ hrun v args) fun u => ih u

/-- The answers to calls one after the other: the same, or callables under one contract, once and
twice; `π` says which identities correspond. -/
inductive AnswersAlike (π : Nat → Nat) :
    Except Fault Value × World → Except Fault Value × World → Prop where
  | same {r : Except Fault Value} {w w' : World} (worlds : w.Renamed π w') :
      AnswersAlike π (r, w) (r.map (Value.rename π), w')
  | twice {a b c : Nat} {g : Callable} {k : Contract} {rule : TypeRefRule} {w w' : World}
      (worlds : w.Renamed π w') :
      AnswersAlike π (.ok (.callable (.guarded a g k rule)), w)
        (.ok (.callable (.guarded b (.guarded c (g.rename π) k rule) k rule)), w')

theorem AnswersAlike.of_eq {π : Nat → Nat} {once twice : Except Fault Value × World}
    (hr : twice.1 = once.1.map (Value.rename π)) (hw : once.2.Renamed π twice.2) :
    AnswersAlike π once twice := by
  obtain ⟨r, w⟩ := once
  obtain ⟨r', w'⟩ := twice
  obtain rfl : r' = r.map (Value.rename π) := hr
  exact .same hw

theorem World.Tracks.of_silent {π : Nat → Nat} {n : Nat} {w w' w'' : World}
    (h : w.Tracks π n w') (hs : w'.silent = w''.silent) : w.Tracks π n w'' := by
  obtain ⟨hfresh, hf, hm⟩ := World.silent_eq_iff.1 hs
  exact ⟨⟨fun i => hf ▸ h.fields i, fun i => hm ▸ h.methods i⟩, fun i hi => hfresh ▸ h.aligned i hi⟩

/-- A call under the contract once, and one under the contract twice in a world with other
identities. -/
theorem Callable.answersTwice_renamed {run : Behaviour} (hrun : run.Uniform) {π : Nat → Nat}
    (hπ : Function.Injective π) {n : Nat} {a : Nat} {g : Callable} {k : Contract}
    {rule : TypeRefRule}
    {args : List Value} (hargs : args.map (Value.rename π) = args) {w w' w₁ : World}
    {r : Except Fault Value} (hw : w.Tracks π n w')
    (hcall : ((Callable.guarded a g k rule).callWith run args).exec w = (r, w₁)) (hn : w₁.fresh ≤ n)
    (b c : Nat) :
    ∃ w₁', w₁.Tracks π n w₁' ∧ k.AnswersTwice rule w' (r.map (Value.rename π), w₁')
      (((Callable.guarded b (.guarded c (g.rename π) k rule) k rule).callWith run args).exec w') := by
  have halike := Run.Alike.callWith hπ hrun (.guarded a g k rule) args
  rw [hargs, Callable.rename] at halike
  obtain ⟨hr, hw₁⟩ := halike.exec hw (by rwa [hcall])
  rw [hcall] at hr hw₁
  refine ⟨_, hw₁, ?_⟩
  rw [← hr]
  exact Callable.answersTwice hrun (π a) b c (g.rename π) k rule args w'

/-- Calls in turn of a callable under its contract, once and twice, are answered alike. The identities
`after` at which further wrappers come depend only on the calls under the contract once. -/
theorem callInTurn_guarded_twice {run : Behaviour} (hrun : run.Uniform) (argss : List (List Value))
    (a : Nat) (g : Callable) (k : Contract) (rule : TypeRefRule) (w : World) :
    ∃ after, (∀ p ∈ after, w.fresh ≤ p) ∧ ∀ before w' b c,
      w.Beside (skip (before ++ after)) before w' →
      argss.map (List.map (Value.rename (skip (before ++ after)))) = argss →
      AnswersAlike (skip (before ++ after))
        ((callInTurn run (.callable (.guarded a g k rule)) argss).exec w)
        ((callInTurn run (.callable (.guarded b (.guarded c (g.rename (skip (before ++ after))) k rule)
          k rule)) argss).exec w') := by
  induction argss generalizing a g k w with
  | nil => exact ⟨[], by simp, fun before w' b c hw _ => .twice hw.toRenamed⟩
  | cons args argss ih =>
    simp only [callInTurn_cons, Body.callValue]
    rcases hcall : ((Callable.guarded a g k rule).callWith run args).exec w with ⟨f | v, w₁⟩
    · refine ⟨[], by simp, fun before w' b c hw hargs => ?_⟩
      obtain ⟨w₁', hw₁, hans⟩ := Callable.answersTwice_renamed hrun (injective_skip _)
        (List.cons.inj hargs).1 (hw.tracks (by simp)) hcall (Nat.le_refl _) b c
      obtain ⟨w₂, htwice, hs⟩ := hans.of_fault
      rw [Run.exec_bind_error hcall, Run.exec_bind_error htwice]
      exact .same (hw₁.of_silent hs).toRenamed
    · by_cases hret : k.returnedContract? v = none
      · -- what is returned is the same, and so are the calls that follow
        refine ⟨[], by simp, fun before w' b c hw hargs => ?_⟩
        obtain ⟨hhead, htail⟩ := List.cons.inj hargs
        have halike := Run.Alike.callInTurn (injective_skip (before ++ [])) hrun v argss
        obtain ⟨w₁', hw₁, hans⟩ := Callable.answersTwice_renamed hrun (injective_skip _) hhead
          (hw.tracks (by simp)) hcall (halike.keeps w₁).fresh b c
        obtain ⟨w₂, htwice, hs⟩ := hans.of_plain
          (by rw [Contract.returnedContract?_rename, hret, Option.map_none])
        rw [htail] at halike
        obtain ⟨hr, hw₂⟩ := halike.exec (hw₁.of_silent hs) (Nat.le_refl _)
        rw [Run.exec_bind_ok hcall, Run.exec_bind_ok htwice]
        exact .of_eq hr hw₂.toRenamed
      · -- a further wrapper comes right after the one of the call under the contract once
        obtain ⟨g₁, n, w₀, -, rfl, rfl, hnew, -, -⟩ :=
          (hcall ▸ Callable.answersTwice hrun a a a g k rule args w).of_returned hret
        obtain ⟨after, hafter, hrest⟩ := ih w₀.fresh g₁ n w₀.spendId
        have hlater : ∀ p ∈ w₀.fresh :: after, w₀.fresh ≤ p := by
          intro p hp
          rcases List.mem_cons.1 hp with rfl | hp
          · exact Nat.le_refl _
          · exact Nat.le_trans (Nat.le_succ _) (hafter p hp)
        refine ⟨w₀.fresh :: after, fun p hp => Nat.le_trans hnew (hlater p hp),
          fun before w' b c hw hargs => ?_⟩
        obtain ⟨hhead, htail⟩ := List.cons.inj hargs
        obtain ⟨w₁', hw₁, hans⟩ := Callable.answersTwice_renamed hrun (injective_skip _) hhead
          (hw.tracks fun p hp => Nat.succ_le_succ (hlater p hp)) hcall (Nat.le_refl _) b c
        obtain ⟨g₂, n₂, w₂, w₂', hv, rfl, -, hs, htwice⟩ := hans.of_returned
          (by rwa [Contract.returnedContract?_rename, ne_eq, Option.map_eq_none_iff])
        simp only [Value.rename, Callable.rename, Value.callable.injEq,
          Callable.guarded.injEq] at hv
        obtain ⟨hfresh, rfl, rfl, -⟩ := hv
        rw [(World.silent_eq_iff.1 hs).1] at hfresh
        have hspent : w₂.spendId.silent = w₂'.spendId.silent := by simp [hs]
        have hrenamed : w₀.Renamed (skip (before ++ w₀.fresh :: after)) w₂' :=
          ⟨(hw₁.of_silent hspent).fields, (hw₁.of_silent hspent).methods⟩
        have hbeside := World.Beside.wrapped
          (fun p hp => Nat.lt_of_lt_of_le (hw.before p hp) hnew) hlater hrenamed hfresh
        rw [Run.exec_bind_ok hcall, Run.exec_bind_ok htwice]
        rw [List.append_cons] at hbeside htail ⊢
        exact hrest (before ++ [w₀.fresh]) _ _ _ hbeside htail

/-- A sound world in which every identity in a callable and in lists of arguments was given away. -/
structure World.Knows (w : World) (t : Callable) (argss : List (List Value)) : Prop where
  sound : w.Sound
  target : t.Known w.fresh
  args : ∀ args ∈ argss, ∀ v ∈ args, v.Known w.fresh

/-- Calls in turn from what is known, where further identities `before` have been given away in the
world of those under the contract twice. -/
theorem World.Knows.answersAlike {run : Behaviour} (hrun : run.Uniform) {w₀ : World} {t : Callable}
    {argss : List (List Value)} (h : w₀.Knows t argss) {w w' : World} (before : List Nat)
    (hbefore : ∀ p ∈ before, w₀.fresh ≤ p ∧ p < w.fresh) (hstart : w₀.fresh ≤ w.fresh)
    (hfresh : w'.fresh = w.fresh + before.length)
    (hw : w.fields = w₀.fields ∧ w.methods = w₀.methods)
    (hw' : w'.fields = w₀.fields ∧ w'.methods = w₀.methods) (a b c : Nat) (k : Contract)
    (rule : TypeRefRule) :
    ∃ π, Function.Injective π ∧ (∀ i < w₀.fresh, π i = i) ∧
      AnswersAlike π ((callInTurn run (.callable (.guarded a t k rule)) argss).exec w)
        ((callInTurn run (.callable (.guarded b (.guarded c t k rule) k rule)) argss).exec w') := by
  obtain ⟨after, hafter, hrest⟩ := callInTurn_guarded_twice hrun argss a t k rule w
  have hinj := injective_skip (before ++ after)
  have hfix : ∀ i < w₀.fresh, skip (before ++ after) i = i := by
    intro i hi
    refine skip_of_le fun p hp => ?_
    rcases List.mem_append.1 hp with hp | hp
    · exact Nat.le_trans (Nat.le_of_lt hi) (hbefore p hp).1
    · exact Nat.le_trans (Nat.le_of_lt (Nat.lt_of_lt_of_le hi hstart)) (hafter p hp)
  have hrenamed := h.sound _ hinj hfix
  have hargs : argss.map (List.map (Value.rename (skip (before ++ after)))) = argss :=
    (List.map_congr_left fun args ha =>
      Value.map_rename_of_known (h.args args ha) hinj hfix).trans (List.map_id' argss)
  have hanswers := hrest before w' b c
    ⟨⟨by rw [hw.1, hw'.1]; exact hrenamed.fields, by rw [hw.2, hw'.2]; exact hrenamed.methods⟩,
      fun p hp => (hbefore p hp).2, hfresh⟩ hargs
  rw [h.target _ hinj hfix] at hanswers
  exact ⟨_, hinj, hfix, hanswers⟩

/-- To put a callable under a contract twice is to put it under the contract once. Every target is run
as often and on the same arguments, and refused calls are refused for the same reason. One call from
one world has the same outcome and leaves the same world but for the log, or hands out the same
returned callable under the contract derived for it, once and twice. Calls of what is returned, one
after the other, are answered alike, where `π` says which identities correspond; those that were given
away before the calls stay as they are. So wrapping what an engine has wrapped changes no answer. -/
theorem wrapping_twice_is_wrapping_once (t : Callable) (k : Contract) (rule : TypeRefRule)
    (a b c : Nat) :
    let once := Callable.guarded a t k rule
    let twice := Callable.guarded b (.guarded c t k rule) k rule
    (∀ run args, once.callWith run args =
        k.enforce rule t.name (fun given => t.callWith run given) args ∧
      twice.callWith run args = k.enforce rule t.name
        (fun given => k.enforce rule t.name (fun given => t.callWith run given) given) args) ∧
    (∀ args, Parallel Eq args (k.checkResult rule t.name)
      (fun u => k.checkResult rule t.name u >>= k.checkResult rule t.name)
      (fun target => k.enforce rule t.name target args)
      (fun target => k.enforce rule t.name (fun given => k.enforce rule t.name target given) args)) ∧
    ∀ run : Behaviour, run.Uniform →
      (∀ args w, k.AnswersTwice rule w ((once.callWith run args).exec w)
        ((twice.callWith run args).exec w)) ∧
      ∀ argss w, World.Knows w t argss →
        (∃ π, Function.Injective π ∧ (∀ i < w.fresh, π i = i) ∧
          AnswersAlike π ((callInTurn run (.callable once) argss).exec w)
            ((callInTurn run (.callable twice) argss).exec w)) ∧
        ∀ (e : Engine) n, e.contractFor t.signature = .ok n →
          ∃ wrapped w₁ rewrapped w₂,
            (e.wrap (.callable t)).exec w = (.ok wrapped, w₁) ∧
            (e.wrap (.callable wrapped)).exec w₁ = (.ok rewrapped, w₂) ∧
            ∃ π, Function.Injective π ∧ (∀ i < w.fresh, π i = i) ∧
              AnswersAlike π ((callInTurn run (.callable wrapped) argss).exec w₁)
                ((callInTurn run (.callable rewrapped) argss).exec w₂) := by
  intro once twice
  refine ⟨fun run args => ⟨by rw [Callable.callWith], ?_⟩, k.parallel_enforce_twice rule t.name,
    fun run hrun => ⟨Callable.answersTwice hrun a b c t k rule, fun argss w hw => ⟨?_, ?_⟩⟩⟩
  · simp only [twice, Callable.callWith, Callable.name]
  · exact hw.answersAlike hrun [] (by simp) (Nat.le_refl _) rfl ⟨rfl, rfl⟩ ⟨rfl, rfl⟩ a b c k rule
  · intro e n hn
    have hn' : e.contractFor (Callable.guarded w.fresh t n e.config.rule).signature = .ok n := hn
    refine ⟨_, _, _, _, Engine.exec_wrap_of_ok hn w, Engine.exec_wrap_of_ok hn' _, ?_⟩
    refine hw.answersAlike hrun [w.fresh] ?_ ?_ ?_ ?_ ?_ _ _ _ _ _
    all_goals simp [World.spendId]

/-- A function that takes the first summand and returns one that takes the second. -/
def adder : Callable :=
  .function 0 "add" ⟨[⟨"x", false, none, none⟩], none⟩ []
    (.function "to" ⟨[⟨"y", false, none, none⟩], none⟩ (.add (.arg 1 0) (.arg 0 0)))

/-- Integers to functions from integers to integers. -/
def adderContract : Contract where
  params := [⟨"x", .nominal (.builtin .int), false⟩]
  result := .callable [.nominal (.builtin .int)] (.nominal (.builtin .int))

/-- Under its contract once or twice, `adder` makes 3 of 1 and then 2. -/
theorem adder_wrapped_twice :
    ((callInTurn (behaviour 2) (.callable (.guarded 1 adder adderContract .subtype))
      [[.int 1], [.int 2]]).exec (World.start true).spendId).1 = .ok (.int 3) ∧
    ((callInTurn (behaviour 2)
      (.callable (.guarded 3 (.guarded 2 adder adderContract .subtype) adderContract .subtype))
      [[.int 1], [.int 2]]).exec (World.start true).spendId).1 = .ok (.int 3) := by
  have hknows : (World.start true).spendId.Knows adder [[.int 1], [.int 2]] := by
    refine ⟨(World.start_sound true).spendId, fun π _ hfix => ?_, by simp [Value.Known, Value.rename]⟩
    rw [adder, Callable.rename_function, hfix 0 (by decide)]
    rfl
  have honce : ((callInTurn (behaviour 2) (.callable (.guarded 1 adder adderContract .subtype))
      [[.int 1], [.int 2]]).exec (World.start true).spendId).1 = .ok (.int 3) := rfl
  obtain ⟨-, -, hruns⟩ := wrapping_twice_is_wrapping_once adder adderContract .subtype 1 3 2
  obtain ⟨π, -, -, hanswers⟩ := ((hruns (behaviour 2) (behaviour_uniform 2)).2 _ _ hknows).1
  refine ⟨honce, ?_⟩
  revert hanswers
  generalize (callInTurn (behaviour 2) (.callable (.guarded 1 adder adderContract .subtype))
      [[.int 1], [.int 2]]).exec (World.start true).spendId = once at honce ⊢
  obtain ⟨r, w₁⟩ := once
  obtain rfl : r = .ok (.int 3) := honce
  generalize (callInTurn (behaviour 2) _ _).exec (World.start true).spendId = twice
  intro hanswers
  cases hanswers with
  | same worlds => rfl

end CallGuard
