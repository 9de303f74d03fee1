import CallGuard.Engine

/-!
# Running computations on the world

`Run.exec` runs a computation in a given world: it yields the outcome together with the world that
is left. The equations here say what each primitive does under it, so that proofs about calls never
open the monad. Matching, putting a callable under a contract and recording change nothing that a
program can observe but the next identity: what they add to the events is `World.note`.
-/

namespace CallGuard

namespace World

/-- The world with further events, if anyone asked for them. -/
def note (w : World) (events : List Event) : World :=
  if w.recording then { w with events := w.events ++ events } else w

@[simp] theorem note_fresh (w : World) (events : List Event) : (w.note events).fresh = w.fresh := by
  unfold note
  split <;> rfl

@[simp] theorem note_fields (w : World) (events : List Event) :
    (w.note events).fields = w.fields := by
  unfold note
  split <;> rfl

@[simp] theorem note_methods (w : World) (events : List Event) :
    (w.note events).methods = w.methods := by
  unfold note
  split <;> rfl

@[simp] theorem note_nil (w : World) : w.note [] = w := by
  unfold note
  split
  · simp
  · rfl

theorem note_note (w : World) (first second : List Event) :
    (w.note first).note second = w.note (first ++ second) := by
  have h : w.events ++ first ++ second = w.events ++ (first ++ second) :=
    Array.toList_inj.1 (by simp)
  unfold note
  by_cases hr : w.recording
  · simp [hr, h]
  · simp [hr]

/-- The world in which the next identity has been given away. -/
def spendId (w : World) : World := { w with fresh := w.fresh + 1 }

end World

namespace Run

variable {α β : Type}

/-- The outcome of a computation that starts in `w`, and the world it leaves. -/
def exec (x : Run α) (w : World) : Except Fault α × World :=
  Id.run (StateT.run (ExceptT.run x) w)

@[simp] theorem exec_pure (a : α) (w : World) : (pure a : Run α).exec w = (.ok a, w) := rfl

@[simp] theorem exec_throw (e : Fault) (w : World) : (throw e : Run α).exec w = (.error e, w) := rfl

theorem exec_bind (x : Run α) (f : α → Run β) (w : World) :
    (x >>= f).exec w =
      match x.exec w with
      | (.ok a, w') => (f a).exec w'
      | (.error e, w') => (.error e, w') := by
  have h : (x >>= f).exec w =
      Id.run (StateT.run (ExceptT.bindCont f (x.exec w).1) (x.exec w).2) := rfl
  rw [h]
  rcases x.exec w with ⟨_ | a, w'⟩ <;> rfl

theorem exec_bind_ok {x : Run α} {f : α → Run β} {w w' : World} {a : α}
    (h : x.exec w = (.ok a, w')) : (x >>= f).exec w = (f a).exec w' := by
  rw [exec_bind, h]

theorem exec_bind_error {x : Run α} {f : α → Run β} {w w' : World} {e : Fault}
    (h : x.exec w = (.error e, w')) : (x >>= f).exec w = (.error e, w') := by
  rw [exec_bind, h]

theorem eq_of_exec_bind_pure {x : Run α} {b b' : β} {w w' : World}
    (h : (x >>= fun _ => pure b).exec w = (.ok b', w')) : b' = b := by
  rcases hx : x.exec w with ⟨e | a, w₁⟩
  · rw [exec_bind_error hx] at h
    cases h
  · rw [exec_bind_ok hx] at h
    cases h
    rfl

@[simp] theorem exec_record (events : Unit → List Event) (w : World) :
    (record events).exec w = (.ok (), w.note (events ())) := rfl

@[simp] theorem exec_newId (w : World) : newId.exec w = (.ok w.fresh, w.spendId) := rfl

@[simp] theorem exec_ofMisuse_ok (a : α) (w : World) :
    (ofMisuse (.ok a)).exec w = (.ok a, w) := rfl

@[simp] theorem exec_ofMisuse_error (m : Misuse) (w : World) :
    (ofMisuse (.error m) : Run α).exec w = (.error (.misuse m), w) := rfl

@[simp] theorem exec_ofResolve_ok (a : α) (w : World) :
    (ofResolve (.ok a)).exec w = (.ok a, w) := rfl

@[simp] theorem exec_ofResolve_error (e : ResolveError) (w : World) :
    (ofResolve (.error e) : Run α).exec w = (.error (.resolve e), w) := rfl

theorem exec_accepts_ok {rule : TypeRefRule} {d : Descriptor} {v : Value} {b : Bool}
    (h : d.accepts rule v = .ok b) (w : World) :
    (Run.accepts rule d v).exec w = (.ok b, w.note (d.decisions rule v)) := by
  rw [Run.accepts, exec_bind_ok (exec_record _ w), h, exec_ofMisuse_ok]

theorem exec_accepts_error {rule : TypeRefRule} {d : Descriptor} {v : Value} {m : Misuse}
    (h : d.accepts rule v = .error m) (w : World) :
    (Run.accepts rule d v).exec w = (.error (.misuse m), w.note (d.decisions rule v)) := by
  rw [Run.accepts, exec_bind_ok (exec_record _ w), h, exec_ofMisuse_error]

theorem exec_guarded (c : Callable) (k : Contract) (rule : TypeRefRule) (w : World) :
    (Run.guarded c k rule).exec w =
      (.ok (.guarded w.fresh c k rule),
        (w.note [.guarding c.name k.params.length k.result.text]).spendId) := by
  rw [Run.guarded, exec_bind_ok (exec_record _ w), exec_bind_ok (exec_newId _), exec_pure,
    World.note_fresh]

@[simp] theorem exec_bindTo (r : Value) (c : Callable) (w : World) :
    (Run.bind r c).exec w = (.ok (.bound w.fresh r c), w.spendId) := rfl

end Run

namespace Engine

variable {e : Engine} {c : Callable}

theorem exec_wrap_of_ok {k : Contract} (h : e.contractFor c.signature = .ok k) (w : World) :
    (e.wrap (.callable c)).exec w =
      (.ok (.guarded w.fresh c k e.config.rule),
        (w.note [.guarding c.name k.params.length k.result.text]).spendId) := by
  rw [wrap, h, Run.exec_bind_ok (Run.exec_ofResolve_ok k w), Run.exec_guarded]

theorem exec_wrap_of_error {err : ResolveError} (h : e.contractFor c.signature = .error err)
    (w : World) : (e.wrap (.callable c)).exec w = (.error (.resolve err), w) := by
  rw [wrap, h, Run.exec_bind_error (Run.exec_ofResolve_error err w)]

end Engine

end CallGuard
