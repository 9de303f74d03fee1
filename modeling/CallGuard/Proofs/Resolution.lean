import CallGuard.Proofs.Classification
import CallGuard.Proofs.Recognition

/-!
# Which written types resolve

A written type resolves in a scope exactly if it is well formed there: its names are known, every
type constructor has the arguments it takes, parameter lists and dots stand only in `Callable`, and
no variable is met inside its own bound. `WellFormed` says so without an order of looking things up,
and it holds exactly where `TypeExpr.resolve` yields a descriptor.

A text stands for the expression that is read from it (`resolveWith_source`). The number of declared
variables is no restriction on how deeply bounds are entered, because those being entered are
distinct (`Entered.budget_pos`).
-/

namespace CallGuard

namespace TypeExpr

/-! ## Text -/

section Text

variable {join : List Descriptor → Descriptor} {s : Scope}
  {var : String → Option TypeExpr → Except ResolveError Descriptor}

theorem readable_of_parse {text : String} {e : TypeExpr} (h : parse text = .ok e) :
    e.Readable := by
  obtain ⟨d, -, -, rfl⟩ := Grammar.exists_derivation_of_parse h
  exact d.readable

theorem readable_of_mem {e : TypeExpr} {es : List TypeExpr} (h : AllReadable es) (he : e ∈ es) :
    e.Readable := by
  induction es with
  | nil => cases he
  | cons e' es ih =>
    rw [AllReadable] at h
    rcases List.mem_cons.1 he with rfl | he
    · exact h.1
    · exact ih h.2 he

theorem Occurs.readable {p e : TypeExpr} (h : Occurs p e) (he : e.Readable) : p.Readable := by
  induction h with
  | here => exact he
  | arg hmem _ ih =>
    rw [Readable] at he
    exact ih (readable_of_mem he.2.2 hmem)
  | item hmem _ ih =>
    rw [Readable] at he
    exact ih (readable_of_mem he hmem)
  | bound =>
    rw [Readable] at he
    exact he.elim

/-- What is read from text holds no text. -/
theorem not_occurs_source {text text' : String} {e : TypeExpr} (h : parse text = .ok e) :
    ¬ Occurs (source text') e := by
  intro hocc
  have hsource := hocc.readable (readable_of_parse h)
  rw [Readable] at hsource
  exact hsource

/-- A text stands for the expression that is read from it. -/
theorem resolveWith_source {text : String} {e : TypeExpr} (h : parse text = .ok e) :
    (source text).resolveWith join s var = e.resolveWith join s var := by
  rw [resolveWith, resolveWith, classify, classifyText, h]
  refine classify_congr (answeredAlike_of_var (Descriptor.congruence_eq join) ?_ ?_)
  · exact fun _ _ _ _ _ => related_eq_iff.2 rfl
  · exact fun _ ht => (not_occurs_source h ht).elim

end Text

/-! ## Well-formed types -/

/-- The names, markers apart, that may stand alone without being bound in the scope. -/
def bareNames : List String := ["type", "List", "Tuple", "Dict", "Callable"]

/-- A written type is well formed in a scope, while the bounds of the variables `resolving` are
being entered. -/
inductive WellFormed (s : Scope) : (resolving : List String) → TypeExpr → Prop
  | source {R : List String} {text : String} {e : TypeExpr} (read : parse text = .ok e)
    (h : WellFormed s R e) : WellFormed s R (source text)
  | ty {R : List String} (t : Ty) : WellFormed s R (ty t)
  | forward {R : List String} (n : String) : WellFormed s R (forward n)
  | freeVar {R : List String} (n : String) : WellFormed s R (freeVar n)
  | boundedVar {R : List String} {bound : TypeExpr} (n : String) (h : WellFormed s R bound) :
    WellFormed s R (boundedVar n bound)
  | marker {R : List String} {n : String} (h : n ∈ markers) : WellFormed s R (name n)
  | unboundedName {R : List String} {n : String} (unmarked : n ∉ markers)
    (declared : s.var? n = some none) (fresh : n ∉ R) : WellFormed s R (name n)
  | boundedName {R : List String} {n : String} {bound : TypeExpr} (unmarked : n ∉ markers)
    (declared : s.var? n = some (some bound)) (fresh : n ∉ R) (h : WellFormed s (n :: R) bound) :
    WellFormed s R (name n)
  | bareName {R : List String} {n : String} (undeclared : s.var? n = none) (h : n ∈ bareNames) :
    WellFormed s R (name n)
  | typeName {R : List String} {n : String} {t : Ty} (undeclared : s.var? n = none)
    (notUnion : n ≠ "Union") (notOptional : n ≠ "Optional") (h : s.type? n = some t) :
    WellFormed s R (name n)
  /-- `Type`, `List` and `Optional` take one argument. -/
  | one {R : List String} {head : String} {e : TypeExpr}
    (hhead : head ∈ ["Type", "List", "Optional"]) (h : WellFormed s R e) :
    WellFormed s R (applied head [e])
  /-- `Union` and `Tuple` take any number of arguments from one on. -/
  | several {R : List String} {head : String} {args : List TypeExpr}
    (hhead : head ∈ ["Union", "Tuple"]) (hne : args ≠ []) (h : ∀ e ∈ args, WellFormed s R e) :
    WellFormed s R (applied head args)
  | dict {R : List String} {k v : TypeExpr} (hk : WellFormed s R k) (hv : WellFormed s R v) :
    WellFormed s R (applied "Dict" [k, v])
  | callable {R : List String} {items : List TypeExpr} {result : TypeExpr}
    (hitems : ∀ e ∈ items, WellFormed s R e) (hresult : WellFormed s R result) :
    WellFormed s R (applied "Callable" [params items, result])
  | callableAny {R : List String} {result : TypeExpr} (hresult : WellFormed s R result) :
    WellFormed s R (applied "Callable" [ellipsis, result])

/-! ## Names -/

section Names

variable {s : Scope} {R : List String} {n : String}
  {var : String → Option TypeExpr → Except ResolveError Descriptor}

theorem classifyName_declared {bound : Option TypeExpr} (hn : n ∉ markers)
    (hb : s.var? n = some bound) : s.classifyName var n = var n bound := by
  rw [Scope.classifyName, markerDescriptor?_eq_none.2 hn]
  simp only [hb]

theorem exists_classifyName_marker (hn : n ∈ markers) : ∃ d, s.classifyName var n = .ok d := by
  rcases hd : markerDescriptor? n with _ | d
  · exact absurd hn (markerDescriptor?_eq_none.1 hd)
  · exact ⟨d, by rw [Scope.classifyName, hd]⟩

theorem exists_classifyName_undeclared (hn : n ∉ markers) (hb : s.var? n = none) :
    (∃ d, s.classifyName var n = .ok d) ↔
      n ∈ bareNames ∨ n ≠ "Union" ∧ n ≠ "Optional" ∧ ∃ t, s.type? n = some t := by
  rw [Scope.classifyName, markerDescriptor?_eq_none.2 hn]
  simp only [hb]
  by_cases htype : n = "type"
  · simp [htype, bareNames]
  rw [if_neg htype]
  rcases hf : Former.ofName? n with _ | f
  · have hne : ∀ m, Former.ofName? m ≠ none → n ≠ m := by
      rintro m hm rfl
      exact hm hf
    have hbare : n ∉ bareNames := by
      simp [bareNames, htype, hne "List" (by decide), hne "Tuple" (by decide),
        hne "Dict" (by decide), hne "Callable" (by decide)]
    rcases s.type? n with _ | t
    · simp [hbare]
    · simp [hbare, hne "Union" (by decide), hne "Optional" (by decide)]
  · unfold Former.ofName? at hf
    split at hf
    · exact absurd (by simp [markers]) hn
    all_goals cases hf <;> simp [Former.bare?, bareNames]

theorem exists_classifyName (hb : s.var? n = none)
    (h : n ∈ bareNames ∨ n ≠ "Union" ∧ n ≠ "Optional" ∧ ∃ t, s.type? n = some t) :
    ∃ d, s.classifyName var n = .ok d := by
  by_cases hn : n ∈ markers
  · exact exists_classifyName_marker hn
  · exact (exists_classifyName_undeclared hn hb).2 h

end Names

/-! ## What resolves is well formed -/

section Soundness

variable {join : List Descriptor → Descriptor} {s : Scope} {R : List String}
  {var : String → Option TypeExpr → Except ResolveError Descriptor}
  {unread : String → Except ResolveError Descriptor}
  (hvar : ∀ n bound d, n ∉ markers → s.var? n = some bound → var n bound = .ok d →
    WellFormed s R (name n))
  (hunread : ∀ text d, unread text = .ok d → WellFormed s R (source text))

include hvar

theorem wellFormed_of_classifyName {n : String} {d : Descriptor}
    (h : s.classifyName var n = .ok d) : WellFormed s R (name n) := by
  by_cases hn : n ∈ markers
  · exact .marker hn
  rcases hb : s.var? n with _ | bound
  · rcases (exists_classifyName_undeclared hn hb).1 ⟨d, h⟩ with hbare | ⟨hunion, hoptional, t, ht⟩
    · exact .bareName hb hbare
    · exact .typeName hb hunion hoptional ht
  · rw [classifyName_declared hn hb] at h
    exact hvar n bound d hn hb h

include hunread

set_option linter.unusedSectionVars false in
mutual
theorem wellFormed_of_classify :
    ∀ (e : TypeExpr) (d : Descriptor), classify join s var unread e = .ok d → WellFormed s R e
  | source text, d, h => hunread text d h
  | name _, _, h => wellFormed_of_classifyName hvar h
  | freeVar n, _, _ => .freeVar n
  | boundedVar n bound, d, h => by
    rw [classify] at h
    obtain ⟨b, hb, -⟩ := ok_of_bind h
    exact .boundedVar n (wellFormed_of_classify bound b hb)
  | ty t, _, _ => .ty t
  | forward n, _, _ => .forward n
  | params _, _, h | ellipsis, _, h => by
    rw [classify] at h
    cases h
  | applied head args, d, h => by
    cases application head args with
    | type e | optional e | list e =>
      obtain ⟨a, ha, -⟩ := ok_of_bind h
      exact .one (by decide) (wellFormed_of_classify e a ha)
    | dict k v =>
      obtain ⟨a, ha, h⟩ := ok_of_bind h
      obtain ⟨b, hb, -⟩ := ok_of_bind h
      exact .dict (wellFormed_of_classify k a ha) (wellFormed_of_classify v b hb)
    | callable items result =>
      obtain ⟨ds, hds, h⟩ := ok_of_bind h
      obtain ⟨b, hb, -⟩ := ok_of_bind h
      exact .callable (wellFormed_of_classifyAll items ds hds) (wellFormed_of_classify result b hb)
    | callableAny result =>
      obtain ⟨b, hb, -⟩ := ok_of_bind h
      exact .callableAny (wellFormed_of_classify result b hb)
    | union e es | tuple e es =>
      obtain ⟨a, ha, h⟩ := ok_of_bind h
      obtain ⟨ds, hds, -⟩ := ok_of_bind h
      exact .several (by decide) (by simp) (List.forall_mem_cons.2
        ⟨wellFormed_of_classify e a ha, wellFormed_of_classifyAll es ds hds⟩)
    | noFormer hf =>
      rw [classify_noFormer _ _ _ _ hf] at h
      cases h
    | miscounted hf hcount =>
      rw [classify_miscounted _ _ _ _ hf hcount] at h
      cases h
    | callableOther hparams hellipsis =>
      rw [classify_callableOther _ _ _ _ hparams hellipsis] at h
      cases h

theorem wellFormed_of_classifyAll :
    ∀ (es : List TypeExpr) (ds : List Descriptor), classifyAll join s var unread es = .ok ds →
      ∀ e ∈ es, WellFormed s R e
  | [], _, _ => by simp
  | e :: es, _, h => by
    rw [classifyAll] at h
    obtain ⟨a, ha, h⟩ := ok_of_bind h
    obtain ⟨ds, hds, -⟩ := ok_of_bind h
    exact List.forall_mem_cons.2
      ⟨wellFormed_of_classify e a ha, wellFormed_of_classifyAll es ds hds⟩
end

omit hunread

theorem wellFormed_of_resolveWith {e : TypeExpr} {d : Descriptor}
    (h : e.resolveWith join s var = .ok d) : WellFormed s R e := by
  refine wellFormed_of_classify hvar (fun text d h => ?_) e d h
  unfold classifyText at h
  split at h
  · rename_i e' hread
    -- Inside what was read, asking for text would fail.
    refine .source hread (wellFormed_of_classify hvar (fun _ _ herr => ?_) e' d h)
    cases herr
  · cases h

end Soundness

theorem wellFormed_of_resolveVar {join : List Descriptor → Descriptor} {s : Scope} :
    ∀ (budget : Nat) {R : List String}, (∀ n ∈ R, ∃ bound, s.var? n = some (some bound)) →
      ∀ n bound d, n ∉ markers → s.var? n = some bound →
        s.resolveVar join budget R n bound = .ok d → WellFormed s R (name n)
  | budget, R, hR, n, none, _, hn, hb, _ => by
    refine .unboundedName hn hb fun hmem => ?_
    obtain ⟨b, hb'⟩ := hR n hmem
    rw [hb] at hb'
    cases hb'
  | 0, _, _, _, some _, _, _, _, h => by
    rw [Scope.resolveVar] at h
    cases h
  | left + 1, R, hR, n, some bound, d, hn, hb, h => by
    rw [Scope.resolveVar] at h
    split at h
    · cases h
    · rename_i hmem
      obtain ⟨b, hb', -⟩ := ok_of_bind h
      have hR' : ∀ m ∈ n :: R, ∃ bound, s.var? m = some (some bound) :=
        List.forall_mem_cons.2 ⟨⟨bound, hb⟩, hR⟩
      exact .boundedName hn hb hmem
        (wellFormed_of_resolveWith (wellFormed_of_resolveVar left hR') hb')

/-! ## What is well formed resolves -/

section Completeness

variable {join : List Descriptor → Descriptor} {s : Scope}

theorem exists_classifyAll {var : String → Option TypeExpr → Except ResolveError Descriptor}
    {unread : String → Except ResolveError Descriptor} :
    ∀ es : List TypeExpr, (∀ e ∈ es, ∃ d, classify join s var unread e = .ok d) →
      ∃ ds, classifyAll join s var unread es = .ok ds
  | [], _ => ⟨[], by rw [classifyAll]⟩
  | e :: es, h => by
    rw [classifyAll]
    obtain ⟨he, hes⟩ := List.forall_mem_cons.1 h
    exact exists_ok_bind he fun _ => exists_ok_bind (exists_classifyAll es hes) fun _ => ⟨_, rfl⟩

/-- The variables whose bounds are being entered are distinct and have bounds, and the budget
suffices for those that are left. -/
structure Entered (s : Scope) (R : List String) (budget : Nat) : Prop where
  nodup : R.Nodup
  bounded : ∀ n ∈ R, ∃ bound, s.var? n = some (some bound)
  left : s.vars.size ≤ budget + R.length

variable {R : List String} {budget : Nat} {n : String} {bound : TypeExpr}

theorem entered_nil (s : Scope) : Entered s [] s.vars.size :=
  ⟨.nil, by simp, by simp⟩

theorem Entered.cons (h : Entered s R (budget + 1)) (hb : s.var? n = some (some bound))
    (hn : n ∉ R) : Entered s (n :: R) budget where
  nodup := List.nodup_cons.2 ⟨hn, h.nodup⟩
  bounded := List.forall_mem_cons.2 ⟨⟨bound, hb⟩, h.bounded⟩
  left := by
    have := h.left
    simp only [List.length_cons]
    omega

theorem mem_names {α : Type} {m : NameMap α} {a : α} (h : m.get? n = some a) :
    n ∈ m.entries.map Prod.fst := by
  obtain ⟨before, after, heq, -⟩ := List.lookup_eq_some_iff.1 h
  simp [heq]

/-- A variable that can still be entered has its bound covered: with it, the variables entered are
distinct names of the scope. -/
theorem Entered.budget_pos (h : Entered s R budget) (hb : s.var? n = some (some bound))
    (hn : n ∉ R) : 0 < budget := by
  have hsub : n :: R ⊆ s.vars.entries.map Prod.fst := by
    refine List.cons_subset.2 ⟨mem_names hb, fun m hm => ?_⟩
    obtain ⟨b, hb⟩ := h.bounded m hm
    exact mem_names hb
  have hlen := (List.nodup_cons.2 ⟨hn, h.nodup⟩).length_le_of_subset hsub
  have hleft := h.left
  simp only [List.length_cons, List.length_map] at hlen
  unfold OrderedMap.size at hleft
  omega

/-- What is well formed while the bounds of `R` are being entered resolves then, with any budget
that covers the variables left. -/
theorem WellFormed.resolves {e : TypeExpr} (h : WellFormed s R e) :
    ∀ budget, Entered s R budget →
      ∃ d, e.resolveWith join s (s.resolveVar join budget R) = .ok d := by
  -- The derivation enters bounds where resolution does, so it gives the budget's induction too.
  induction h with
  | source read _ ih =>
    intro budget hR
    rw [resolveWith_source read]
    exact ih budget hR
  | ty t => exact fun _ _ => ⟨_, rfl⟩
  | forward n => exact fun _ _ => ⟨_, rfl⟩
  | freeVar n => exact fun _ _ => ⟨_, rfl⟩
  | boundedVar n _ ih =>
    intro budget hR
    rw [resolveWith, classify]
    exact exists_ok_bind (ih budget hR) fun _ => ⟨_, rfl⟩
  | marker hn => exact fun _ _ => exists_classifyName_marker hn
  | unboundedName hn hb _ =>
    intro budget hR
    rw [resolveWith, classify, classifyName_declared hn hb, Scope.resolveVar]
    exact ⟨_, rfl⟩
  | boundedName hn hb hmem _ ih =>
    intro budget hR
    obtain ⟨left, rfl⟩ := Nat.exists_eq_add_one.2 (hR.budget_pos hb hmem)
    rw [resolveWith, classify, classifyName_declared hn hb, Scope.resolveVar, if_neg hmem]
    exact exists_ok_bind (ih left (hR.cons hb hmem)) fun _ => ⟨_, rfl⟩
  | bareName hb hn => exact fun _ _ => exists_classifyName hb (.inl hn)
  | typeName hb hunion hoptional ht =>
    exact fun _ _ => exists_classifyName hb (.inr ⟨hunion, hoptional, _, ht⟩)
  | one hhead _ ih =>
    intro budget hR
    simp only [List.mem_cons, List.not_mem_nil, or_false] at hhead
    rcases hhead with rfl | rfl | rfl <;>
      exact exists_ok_bind (ih budget hR) fun _ => ⟨_, rfl⟩
  | @several R head args hhead hne _ ih =>
    intro budget hR
    obtain ⟨e, es, rfl⟩ := List.exists_cons_of_ne_nil hne
    obtain ⟨he, hes⟩ := List.forall_mem_cons.1 fun e' he' => ih e' he' budget hR
    have hall := exists_classifyAll es hes
    simp only [List.mem_cons, List.not_mem_nil, or_false] at hhead
    rcases hhead with rfl | rfl <;>
      exact exists_ok_bind he fun _ => exists_ok_bind hall fun _ => ⟨_, rfl⟩
  | dict _ _ ihk ihv =>
    intro budget hR
    exact exists_ok_bind (ihk budget hR) fun _ => exists_ok_bind (ihv budget hR) fun _ => ⟨_, rfl⟩
  | @callable R items result _ _ ihitems ihresult =>
    intro budget hR
    have hall := exists_classifyAll items fun e he => ihitems e he budget hR
    exact exists_ok_bind hall fun _ => exists_ok_bind (ihresult budget hR) fun _ => ⟨_, rfl⟩
  | callableAny _ ih =>
    intro budget hR
    exact exists_ok_bind (ih budget hR) fun _ => ⟨_, rfl⟩

end Completeness

/-- A written type resolves in a scope exactly if it is well formed there. -/
theorem resolves_iff_wellFormed (s : Scope) (e : TypeExpr) :
    (∃ d, e.resolve s = .ok d) ↔ WellFormed s [] e := by
  constructor
  · rintro ⟨d, hd⟩
    exact wellFormed_of_resolveWith (wellFormed_of_resolveVar s.vars.size (by simp)) hd
  · intro h
    exact h.resolves s.vars.size (entered_nil s)

end TypeExpr

end CallGuard
