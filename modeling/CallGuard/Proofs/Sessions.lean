import CallGuard.Proofs.ClassContracts
import CallGuard.Proofs.Holding

/-!
# Sessions

In a session programs are evaluated, callables are called and put under contracts, and classes are
declared, with what came out before (`Session`). Whatever was done, every identity in the world and in
what is held was given away (`Session.covers`). One step keeps this, since it does the same, whichever
numbers the identities to come are (`World.Covers.exec`).
-/

namespace CallGuard

/-! ## Putting callables under contracts -/

namespace Run.Alike

variable {π : Nat → Nat} {α : Type}

theorem ofResolve (x : Except ResolveError α) :
    Alike π id (Run.ofResolve x) (Run.ofResolve x) := by
  rcases x with e | a
  · exact .throw _
  · exact .pure rfl

theorem wrapWith (e : Engine) (v : Value) (k : Contract) :
    Alike π (Callable.rename π) (e.wrapWith v k) (e.wrapWith (v.rename π) k) := by
  cases v with
  | callable c => exact .guarded c k e.config.rule
  | _ => exact .throw _

theorem wrap (e : Engine) (v : Value) :
    Alike π (Callable.rename π) (e.wrap v) (e.wrap (v.rename π)) := by
  cases v with
  | callable c =>
    have hk : e.contractFor (c.rename π).signature = e.contractFor c.signature := by
      rw [Engine.contractFor, Engine.contractFor, Callable.signature_rename,
        Contract.ofSignature_map]
    rw [Value.rename, Engine.wrap, Engine.wrap, hk]
    exact .bind (.ofResolve _) fun k => .guarded c k e.config.rule
  | _ => exact .throw _

theorem guardMethods (e : Engine) (methods : List (String × Method)) :
    Alike π (List.map (Prod.map id (Callable.rename π)))
      (ClassDef.guardMethods e.scope e.config.rule e.config.guardsReturned methods)
      (ClassDef.guardMethods e.scope e.config.rule e.config.guardsReturned
        (methods.map (Prod.map id (Method.rename π)))) := by
  induction methods with
  | nil => exact .pure rfl
  | cons p rest ih =>
    obtain ⟨name, m⟩ := p
    rw [List.map_cons, Prod.map_apply, id_eq]
    by_cases hx : ClassDef.Exposed name
    · rw [ClassDef.guardMethods_cons_of_exposed hx, ClassDef.guardMethods_cons_of_exposed hx]
      exact .bind (.wrap e (.callable m.callable)) fun _ => .bind ih fun _ => .pure rfl
    · rw [ClassDef.guardMethods_cons_of_hidden hx, ClassDef.guardMethods_cons_of_hidden hx]
      exact ih

end Run.Alike

/-! ## Sessions -/

/-- What comes out of a computation that did not end in a fault. -/
def gained {α : Type} (pieces : α → List Piece) : Except Fault α → List Piece
  | .ok a => pieces a
  | .error _ => []

/-- The callables of the methods of a definition. -/
def ClassDef.callables (d : ClassDef) : List Callable := d.methods.entries.map fun e => e.2.callable

theorem ClassDef.mem_callables_replaceCallables {d : ClassDef} {cs : List (String × Callable)}
    {c : Callable} (h : c ∈ (d.replaceCallables cs).callables) :
    c ∈ d.callables ∨ ∃ name, (name, c) ∈ cs := by
  simp only [callables, replaceCallables, OrderedMap.map, List.map_map, List.mem_map,
    Function.comp_apply] at h
  obtain ⟨e, he, hc⟩ := h
  split at hc
  · rename_i c' hlookup
    subst hc
    obtain ⟨before, after, rfl, -⟩ := List.lookup_eq_some_iff.1 hlookup
    exact .inr ⟨e.1, by simp⟩
  · subst hc
    exact .inl (List.mem_map_of_mem he)

/-- The world `w` has come about, and with it the pieces `held`. Programs and values without any
identity come from outside; everything else came out of a step before, or is a part of what did. -/
inductive Session : World → List Piece → Prop where
  | start (recording : Bool) : Session (World.start recording) []
  | bring {w : World} {held : List Piece} {p : Piece} (before : Session w held)
      (plain : p.Known 0) : Session w (p :: held)
  | take {w : World} {held : List Piece} {p q : Piece} (before : Session w held) (mem : p ∈ held)
      (part : q ∈ p.parts) : Session w (q :: held)
  | note {w : World} {held : List Piece} {events : List Event} (before : Session w held) :
      Session (w.note events) held
  | make {w w' : World} {held : List Piece} {cls : Class} {r : Except Fault Value}
      (before : Session w held) (ran : (Run.newObject cls).exec w = (r, w')) :
      Session w' (gained (fun o => [.value o]) r ++ held)
  | reach {w w' : World} {held : List Piece} {v : Value} {name : String}
      {r : Except Fault (Option Callable)} (before : Session w held) (through : .value v ∈ held)
      (ran : (v.member name).exec w = (r, w')) :
      Session w' (gained (fun c => c.toList.map .callable) r ++ held)
  | evaluate {w w' : World} {held : List Piece} {run : Behaviour} {b : Body}
      {frames : List (List Value)} {r : Except Fault Value} (before : Session w held)
      (uniform : run.Uniform) (body : .body b ∈ held)
      (seen : ∀ frame ∈ frames, ∀ v ∈ frame, .value v ∈ held)
      (ran : (b.eval run frames).exec w = (r, w')) :
      Session w' (gained (fun v => [.value v]) r ++ held)
  | call {w w' : World} {held : List Piece} {run : Behaviour} {c : Callable} {args : List Value}
      {r : Except Fault Value} (before : Session w held) (uniform : run.Uniform)
      (callable : .callable c ∈ held) (given : ∀ a ∈ args, .value a ∈ held)
      (ran : (c.callWith run args).exec w = (r, w')) :
      Session w' (gained (fun v => [.value v]) r ++ held)
  | wrap {w w' : World} {held : List Piece} {e : Engine} {v : Value} {r : Except Fault Callable}
      (before : Session w held) (target : .value v ∈ held) (ran : (e.wrap v).exec w = (r, w')) :
      Session w' (gained (fun c => [.callable c]) r ++ held)
  | wrapWith {w w' : World} {held : List Piece} {e : Engine} {v : Value} {k : Contract}
      {r : Except Fault Callable} (before : Session w held) (target : .value v ∈ held)
      (ran : (e.wrapWith v k).exec w = (r, w')) :
      Session w' (gained (fun c => [.callable c]) r ++ held)
  | apply {w w' : World} {held : List Piece} {e : Engine} {d d' : ClassDef} {r : Except Fault Nat}
      (before : Session w held) (methods : ∀ c ∈ d.callables, .callable c ∈ held)
      (ran : e.applyToClass.exec (d, w) = (r, (d', w'))) :
      Session w' (d'.callables.map .callable ++ held)
  | declare {w w' : World} {held : List Piece} {d : ClassDef} {t : Ty} (before : Session w held)
      (methods : ∀ c ∈ d.callables, .callable c ∈ held) (ran : d.declare.exec w = (.ok t, w')) :
      Session w' (.value (.type t) :: held)

/-! ## Identities that were given away -/

/-- Every identity in the world and in the pieces was given away. -/
structure World.Covers (w : World) (held : List Piece) : Prop where
  sound : w.Sound
  known : ∀ p ∈ held, p.Known w.fresh

namespace World.Covers

variable {w w' : World} {held : List Piece} {d : ClassDef}

theorem cons {p : Piece} (h : w.Covers held) (hp : p.Known w.fresh) : w.Covers (p :: held) :=
  ⟨h.sound, List.forall_mem_cons.2 ⟨hp, h.known⟩⟩

theorem append {held' : List Piece} (h : w.Covers held) (h' : ∀ p ∈ held', p.Known w.fresh) :
    w.Covers (held' ++ held) :=
  ⟨h.sound, List.forall_mem_append.2 ⟨h', h.known⟩⟩

theorem note (h : w.Covers held) (events : List Event) : (w.note events).Covers held :=
  ⟨h.sound.note events, by simpa using h.known⟩

/-- One step: a computation that does the same, whichever numbers the identities to come are. -/
theorem exec {α : Type} {f : (Nat → Nat) → α → α} {pieces : α → List Piece} {x : Run α}
    {r : Except Fault α} (h : w.Covers held)
    (hpieces : ∀ π a, (pieces a).map (Piece.rename π) = pieces (f π a))
    (hx : ∀ π, Function.Injective π → (∀ i < w.fresh, π i = i) → Run.Alike π (f π) x x)
    (ran : x.exec w = (r, w')) : w'.Covers (gained pieces r ++ held) := by
  have hsound := Run.Alike.sound hx h.sound
  have hkeeps := ((hx id Function.injective_id fun _ _ => rfl).keeps w).fresh
  rw [ran] at hsound hkeeps
  have hold : w'.Covers held := ⟨hsound.1, fun p hp => (h.known p hp).mono hkeeps⟩
  refine hold.append fun p hp => ?_
  rcases r with fault | a
  · simp [gained] at hp
  · intro π hπ hfix
    have hmap : (pieces a).map (Piece.rename π) = pieces a := by
      rw [hpieces, hsound.2 a rfl π hπ hfix]
    exact Piece.rename_eq_of_map_eq hmap hp

theorem callWith (h : w.Covers held) {run : Behaviour} (hrun : run.Uniform) {c : Callable}
    (hc : (Piece.callable c).Known w.fresh) {args : List Value}
    (hargs : ∀ a ∈ args, (Piece.value a).Known w.fresh) {r : Except Fault Value}
    (ran : (c.callWith run args).exec w = (r, w')) :
    w'.Covers (gained (fun v => [.value v]) r ++ held) := by
  refine h.exec (fun π v => rfl) (fun π hπ hfix => ?_) ran
  have halike := Run.Alike.callWith hπ hrun c args
  rwa [Piece.known_callable.1 hc π hπ hfix, Piece.map_value_rename hargs hπ hfix] at halike

/-! ### Classes -/

theorem methods_rename (h : w.Covers held) (hd : ∀ c ∈ d.callables, .callable c ∈ held)
    {π : Nat → Nat} (hπ : Function.Injective π) (hfix : ∀ i < w.fresh, π i = i) :
    (d.methods.map fun _ m => m.rename π) = d.methods := by
  refine OrderedMap.map_eq_self_iff.2 fun name m hm => ?_
  have hc := h.known _ (hd _ (List.mem_map_of_mem (OrderedMap.get?_eq_some_iff.1 hm)))
  rw [Method.rename, Piece.known_callable.1 hc π hπ hfix]

theorem guardMethods (h : w.Covers held) (hd : ∀ c ∈ d.callables, .callable c ∈ held) {e : Engine}
    {r : Except Fault (List (String × Callable))}
    (ran : (ClassDef.guardMethods e.scope e.config.rule e.config.guardsReturned
      d.methods.entries).exec w = (r, w')) :
    w'.Covers (gained (fun cs => cs.map fun p => .callable p.2) r ++ held) := by
  refine h.exec (f := fun π => List.map (Prod.map id (Callable.rename π)))
    (fun π cs => by simp [Piece.rename, Value.rename]) (fun π hπ hfix => ?_) ran
  have hmethods : d.methods.entries.map (Prod.map id (Method.rename π)) = d.methods.entries :=
    congrArg OrderedMap.entries (h.methods_rename hd hπ hfix)
  have halike := Run.Alike.guardMethods (π := π) e d.methods.entries
  rwa [hmethods] at halike

/-- Putting the methods of a class under contracts is a step. -/
theorem apply (h : w.Covers held) (hd : ∀ c ∈ d.callables, .callable c ∈ held) {e : Engine}
    {d' : ClassDef} {r : Except Fault Nat} (ran : e.applyToClass.exec (d, w) = (r, (d', w'))) :
    w'.Covers (d'.callables.map .callable ++ held) := by
  rcases hguarded : d.guarded with _ | _
  · rcases hloop : (ClassDef.guardMethods e.scope e.config.rule e.config.guardsReturned
        d.methods.entries).exec w with ⟨fault | cs, w₁⟩
    · have hcovers : w₁.Covers held := h.guardMethods hd hloop
      rw [ClassDef.exec_applyToClass_of_loop hguarded hloop] at ran
      cases ran
      exact hcovers.append (List.forall_mem_map.2 fun c hc => hcovers.known _ (hd c hc))
    · have hcovers := (h.guardMethods hd hloop).note [.applied d.name cs.length]
      rw [ClassDef.exec_applyToClass_of_loop hguarded hloop] at ran
      cases ran
      have hold : (w₁.note [.applied d.name cs.length]).Covers held :=
        ⟨hcovers.sound, fun p hp => hcovers.known p (List.mem_append_right _ hp)⟩
      refine hold.append (List.forall_mem_map.2 fun c hc => ?_)
      rcases ClassDef.mem_callables_replaceCallables hc with hc | ⟨name, hc⟩
      · exact hold.known _ (hd c hc)
      · exact hcovers.known _ (List.mem_append_left _ (List.mem_map_of_mem hc))
  · rw [ClassDef.exec_applyToClass_of_guarded hguarded] at ran
    cases ran
    exact h.append (List.forall_mem_map.2 fun c hc => h.known _ (hd c hc))

/-- The methods of a class that is declared are known, as those of the classes before it are. -/
theorem declare (h : w.Covers held) (hd : ∀ c ∈ d.callables, .callable c ∈ held) {t : Ty}
    (ran : d.declare.exec w = (.ok t, w')) : w'.Covers (.value (.type t) :: held) := by
  rw [ClassDef.exec_declare] at ran
  cases ran
  refine cons ⟨fun π hπ hfix => ?_, fun p hp => (h.known p hp).mono (Nat.le_succ _)⟩ fun π _ _ => rfl
  have hfix' : ∀ i < w.fresh, π i = i := fun i hi => hfix i (Nat.lt_succ_of_lt hi)
  have hw := h.sound π hπ hfix'
  refine ⟨hw.fields, fun i => ?_⟩
  show (w.methods.insert w.fresh d.methods).get? i =
    ((w.methods.insert w.fresh d.methods).get? i).map (OrderedMap.map fun _ m => m.rename π)
  rw [OrderedMap.get?_insert]
  split
  · rw [Option.map_some, h.methods_rename hd hπ hfix']
  · exact hw.methods i

end World.Covers

/-- Whatever was done, every identity in the world and in what is held was given away. -/
theorem Session.covers {w : World} {held : List Piece} (h : Session w held) : w.Covers held := by
  induction h with
  | start recording => exact ⟨World.start_sound recording, by simp⟩
  | bring _ plain ih => exact ih.cons (plain.mono (Nat.zero_le _))
  | take _ mem part ih => exact ih.cons ((ih.known _ mem).of_part part)
  | note _ ih => exact ih.note _
  | make _ ran ih => exact ih.exec (fun π o => rfl) (fun π _ _ => .newObject _) ran
  | @reach w w' held v name r _ through ran ih =>
    refine ih.exec (f := fun π => Option.map (Callable.rename π)) (fun π c => ?_)
      (fun π hπ hfix => ?_) ran
    · cases c <;> rfl
    · have halike := Run.Alike.member (π := π) v name
      rwa [Piece.known_value.1 (ih.known _ through) π hπ hfix] at halike
  | @evaluate w w' held run b frames r _ uniform body seen ran ih =>
    refine ih.exec (fun π v => rfl) (fun π hπ hfix => ?_) ran
    have hb : b.rename π = b := Piece.body.inj (ih.known _ body π hπ hfix)
    have hframes : frames.map (List.map (Value.rename π)) = frames :=
      (List.map_congr_left fun frame hframe => Piece.map_value_rename
        (fun v hv => ih.known _ (seen frame hframe v hv)) hπ hfix).trans (List.map_id' frames)
    have halike := Run.Alike.eval hπ uniform frames b
    rwa [hb, hframes] at halike
  | call _ uniform callable given ran ih =>
    exact ih.callWith uniform (ih.known _ callable) (fun a ha => ih.known _ (given a ha)) ran
  | @wrap w w' held e v r _ target ran ih =>
    refine ih.exec (fun π c => rfl) (fun π hπ hfix => ?_) ran
    have halike := Run.Alike.wrap (π := π) e v
    rwa [Piece.known_value.1 (ih.known _ target) π hπ hfix] at halike
  | @wrapWith w w' held e v k r _ target ran ih =>
    refine ih.exec (fun π c => rfl) (fun π hπ hfix => ?_) ran
    have halike := Run.Alike.wrapWith (π := π) e v k
    rwa [Piece.known_value.1 (ih.known _ target) π hπ hfix] at halike
  | apply _ methods ran ih => exact ih.apply methods ran
  | declare _ methods ran ih => exact ih.declare methods ran

end CallGuard
