import CallGuard.Proofs.Resolution
import Mathlib.Logic.Relation

/-!
# Variables whose bounds lead back to them

A variable depends on those that its bound mentions, and bounds may lead round in a circle.
`ComesTo` is resolution without a limit on how many bounds are entered: it holds where the bounds
and texts that resolution goes into come to an end. They always do, and what they come to is what
`TypeExpr.resolve` yields (`comesTo_iff`).

The variables being entered form a path of dependencies, so the one that is reported as cyclic is on
a cycle (`ComesTo.transGen_of_cyclicVar`). Conversely a type that resolves has each of its variables
resolved in turn, with ever more of them being entered, so none leads to a cycle
(`WellFormed.of_reflTransGen`).
-/

namespace CallGuard

open Relation (ReflTransGen TransGen)

namespace TypeExpr

/-! ## Dependencies -/

/-- The bare name `n` occurs anywhere in an expression or in what is read from its texts. -/
inductive Mentions : TypeExpr → String → Prop
  | name {e : TypeExpr} {n : String} (h : Occurs (name n) e) : Mentions e n
  | text {e e' : TypeExpr} {text n : String} (h : Occurs (source text) e)
    (read : parse text = .ok e') (h' : Mentions e' n) : Mentions e n

theorem Mentions.of_part {p e : TypeExpr} {n : String} (h : Mentions p n) (hp : Occurs p e) :
    Mentions e n := by
  cases h with
  | name h => exact .name (h.trans hp)
  | text h read h' => exact .text (h.trans hp) read h'

end TypeExpr

namespace Scope

/-- The name stands for a variable that is declared in the scope. -/
def IsVar (s : Scope) (n : String) : Prop :=
  n ∉ TypeExpr.markers ∧ ∃ bound, s.var? n = some bound

/-- The variable `b` is mentioned in the bound of the variable `a`. -/
def DependsOn (s : Scope) (a b : String) : Prop :=
  s.IsVar b ∧ ∃ bound, s.var? a = some (some bound) ∧ bound.Mentions b

/-- The variable `n` is mentioned in an expression, or one that is leads to it. -/
def Reaches (s : Scope) (e : TypeExpr) (n : String) : Prop :=
  ∃ m, e.Mentions m ∧ s.IsVar m ∧ ReflTransGen s.DependsOn m n

end Scope

namespace TypeExpr

/-! ## Resolution without a limit -/

/-- Resolution of an expression comes to the result `r` while the bounds of the variables
`resolving` are being entered. A variable comes to what its bound comes to, a text to what the
expression read from it does, and any expression to what it is classified as when the variables and
texts in it have come to theirs. -/
inductive ComesTo (s : Scope) :
    (resolving : List String) → TypeExpr → (r : Except ResolveError Descriptor) → Prop
  | free {R : List String} {n : String} (unmarked : n ∉ markers)
    (declared : s.var? n = some none) : ComesTo s R (name n) (.ok (.freeVar n))
  | cyclic {R : List String} {n : String} {bound : TypeExpr} (unmarked : n ∉ markers)
    (declared : s.var? n = some (some bound)) (met : n ∈ R) :
    ComesTo s R (name n) (.error (.cyclicVar n))
  | enter {R : List String} {n : String} {bound : TypeExpr} {r : Except ResolveError Descriptor}
    (unmarked : n ∉ markers) (declared : s.var? n = some (some bound)) (fresh : n ∉ R)
    (h : ComesTo s (n :: R) bound r) : ComesTo s R (name n) (do return .boundedVar n (← r))
  | unreadable {R : List String} {text : String} {err : SyntaxError}
    (read : parse text = .error err) : ComesTo s R (source text) (.error (.malformed err))
  | text {R : List String} {text : String} {e : TypeExpr} {r : Except ResolveError Descriptor}
    (read : parse text = .ok e) (h : ComesTo s R e r) : ComesTo s R (source text) r
  | parts {R : List String} {e : TypeExpr}
    {var : String → Option TypeExpr → Except ResolveError Descriptor}
    {unread : String → Except ResolveError Descriptor}
    (hvar : ∀ n bound, Occurs (name n) e → n ∉ markers → s.var? n = some bound →
      ComesTo s R (name n) (var n bound))
    (hunread : ∀ text, Occurs (source text) e → ComesTo s R (source text) (unread text)) :
    ComesTo s R e (classify .unionOf s var unread e)

section Budget

variable {s : Scope} {R : List String} {budget : Nat} {n : String} {bound : TypeExpr}

theorem resolveVar_of_mem {join : List Descriptor → Descriptor} (hn : n ∈ R) :
    s.resolveVar join budget R n (some bound) = .error (.cyclicVar n) := by
  cases budget with
  | zero => rfl
  | succ left => rw [Scope.resolveVar, if_pos hn]

theorem resolveWith_name {join : List Descriptor → Descriptor}
    {var : String → Option TypeExpr → Except ResolveError Descriptor} {b : Option TypeExpr}
    (hn : n ∉ markers) (hb : s.var? n = some b) : (name n).resolveWith join s var = var n b := by
  rw [resolveWith, classify, classifyName_declared hn hb]

/-- If every variable comes to what `var` says, so does every expression. -/
theorem comesTo_resolveWith {var : String → Option TypeExpr → Except ResolveError Descriptor}
    (hvar : ∀ n bound, n ∉ markers → s.var? n = some bound → ComesTo s R (name n) (var n bound))
    (e : TypeExpr) : ComesTo s R e (e.resolveWith .unionOf s var) := by
  refine .parts (fun n b _ => hvar n b) fun text _ => ?_
  rcases hread : parse text with err | e'
  · rw [classifyText, hread]
    exact .unreadable hread
  · rw [classifyText, hread]
    exact .text hread (.parts (fun n b _ => hvar n b) fun _ ht => (not_occurs_source hread ht).elim)

/-- The bounds that are entered come to an end: each of them uses up a variable. -/
theorem comesTo_resolveVar : ∀ (budget : Nat) {R : List String}, Entered s R budget →
    ∀ n bound, n ∉ markers → s.var? n = some bound →
      ComesTo s R (name n) (s.resolveVar .unionOf budget R n bound)
  | budget, R, _, n, none, hn, hb => by
    rw [Scope.resolveVar]
    exact .free hn hb
  | budget, R, hR, n, some bound, hn, hb => by
    by_cases hmem : n ∈ R
    · rw [resolveVar_of_mem hmem]
      exact .cyclic hn hb hmem
    · -- The budget never ends here: it covers the variables that are not being entered.
      obtain ⟨left, rfl⟩ := Nat.exists_eq_add_one.2 (hR.budget_pos hb hmem)
      rw [Scope.resolveVar, if_neg hmem]
      exact .enter hn hb hmem
        (comesTo_resolveWith (comesTo_resolveVar left (hR.cons hb hmem)) bound)

theorem ComesTo.eq_resolveWith {e : TypeExpr} {r : Except ResolveError Descriptor}
    (h : ComesTo s R e r) : ∀ budget, Entered s R budget →
      r = e.resolveWith .unionOf s (s.resolveVar .unionOf budget R) := by
  induction h with
  | free hn hb =>
    intro budget _
    rw [resolveWith_name hn hb, Scope.resolveVar]
  | cyclic hn hb hmem =>
    intro budget _
    rw [resolveWith_name hn hb, resolveVar_of_mem hmem]
  | enter hn hb hmem _ ih =>
    intro budget hR
    obtain ⟨left, rfl⟩ := Nat.exists_eq_add_one.2 (hR.budget_pos hb hmem)
    rw [resolveWith_name hn hb, Scope.resolveVar, if_neg hmem, ih left (hR.cons hb hmem)]
  | unreadable hread =>
    intro budget _
    rw [resolveWith, classify, classifyText, hread]
  | text hread _ ih =>
    intro budget hR
    rw [resolveWith_source hread, ih budget hR]
  | parts _ _ ihvar ihunread =>
    intro budget hR
    refine classify_congr (answeredAlike_of_var (Descriptor.congruence_eq .unionOf) ?_ ?_)
    · intro n b hocc hn hb
      rw [related_eq_iff, ihvar n b hocc hn hb budget hR, resolveWith_name hn hb]
    · intro text hocc
      rw [related_eq_iff, ihunread text hocc budget hR, resolveWith, classify]

/-- Without a limit resolution comes to one result, the one that it has within the budget. -/
theorem comesTo_iff (s : Scope) (e : TypeExpr) (r : Except ResolveError Descriptor) :
    ComesTo s [] e r ↔ r = e.resolve s := by
  constructor
  · intro h
    exact h.eq_resolveWith s.vars.size (entered_nil s)
  · rintro rfl
    exact comesTo_resolveWith (comesTo_resolveVar s.vars.size (entered_nil s)) e

end Budget

/-! ## What is reported is a cycle -/

section Reports

variable {join : List Descriptor → Descriptor} {s : Scope} {R : List String}
  {var : String → Option TypeExpr → Except ResolveError Descriptor}
  {unread : String → Except ResolveError Descriptor}

/-- A variable or a text in an expression is resolved with this error. -/
def AnsweredWith (s : Scope) (var : String → Option TypeExpr → Except ResolveError Descriptor)
    (unread : String → Except ResolveError Descriptor) (err : ResolveError) (e : TypeExpr) : Prop :=
  (∃ n bound, Occurs (name n) e ∧ n ∉ markers ∧ s.var? n = some bound ∧
    var n bound = .error err) ∨
  ∃ text, Occurs (source text) e ∧ unread text = .error err

theorem AnsweredWith.of_part {err : ResolveError} {p e : TypeExpr}
    (h : AnsweredWith s var unread err p) (hp : Occurs p e) : AnsweredWith s var unread err e := by
  rcases h with ⟨n, bound, hocc, h⟩ | ⟨text, hocc, h⟩
  · exact .inl ⟨n, bound, hocc.trans hp, h⟩
  · exact .inr ⟨text, hocc.trans hp, h⟩

theorem answeredWith_of_classifyName {n m : String}
    (h : s.classifyName var n = .error (.cyclicVar m)) :
    AnsweredWith s var unread (.cyclicVar m) (name n) := by
  by_cases hn : n ∈ markers
  · obtain ⟨d, hd⟩ : ∃ d, s.classifyName var n = .ok d := exists_classifyName_marker hn
    rw [hd] at h
    cases h
  rcases hb : s.var? n with _ | bound
  · rw [Scope.classifyName, markerDescriptor?_eq_none.2 hn] at h
    simp only [hb] at h
    repeat' split at h
    all_goals cases h
  · rw [classifyName_declared hn hb] at h
    exact .inl ⟨n, bound, .here, hn, hb, h⟩

mutual
/-- Classification itself reports no cycle: it passes on what it is told about a variable or a
text. -/
theorem answeredWith_of_classify {m : String} : ∀ e : TypeExpr,
    classify join s var unread e = .error (.cyclicVar m) →
      AnsweredWith s var unread (.cyclicVar m) e
  | source text, h => .inr ⟨text, .here, h⟩
  | name _, h => answeredWith_of_classifyName h
  | freeVar _, h | ty _, h | forward _, h | params _, h | ellipsis, h => by
    rw [classify] at h
    cases h
  | boundedVar n bound, h => by
    rw [classify] at h
    rcases error_of_bind h with h | ⟨_, _, h⟩
    · exact (answeredWith_of_classify bound h).of_part (.bound .here)
    · cases h
  | applied head args, h => by
    cases application head args with
    | type e | optional e | list e =>
      rcases error_of_bind h with h | ⟨_, _, h⟩
      · exact (answeredWith_of_classify e h).of_part (occurs_arg (by simp))
      · cases h
    | dict k v =>
      rcases error_of_bind h with h | ⟨_, _, h⟩
      · exact (answeredWith_of_classify k h).of_part (occurs_arg (by simp))
      rcases error_of_bind h with h | ⟨_, _, h⟩
      · exact (answeredWith_of_classify v h).of_part (occurs_arg (by simp))
      · cases h
    | callable items result =>
      rcases error_of_bind h with h | ⟨_, _, h⟩
      · obtain ⟨e, he, h⟩ := answeredWith_of_classifyAll items h
        exact h.of_part (occurs_callable_item he)
      rcases error_of_bind h with h | ⟨_, _, h⟩
      · exact (answeredWith_of_classify result h).of_part (occurs_arg (by simp))
      · cases h
    | callableAny result =>
      rcases error_of_bind h with h | ⟨_, _, h⟩
      · exact (answeredWith_of_classify result h).of_part (occurs_arg (by simp))
      · cases h
    | union e es | tuple e es =>
      rcases error_of_bind h with h | ⟨_, _, h⟩
      · exact (answeredWith_of_classify e h).of_part (occurs_arg (by simp))
      rcases error_of_bind h with h | ⟨_, _, h⟩
      · obtain ⟨e', he, h⟩ := answeredWith_of_classifyAll es h
        exact h.of_part (occurs_arg (List.mem_cons_of_mem _ he))
      · cases h
    | noFormer hf =>
      rw [classify_noFormer _ _ _ _ hf, Scope.notApplicable] at h
      split at h <;> cases h
    | miscounted hf hcount =>
      rw [classify_miscounted _ _ _ _ hf hcount] at h
      cases h
    | callableOther hparams hellipsis =>
      rw [classify_callableOther _ _ _ _ hparams hellipsis] at h
      cases h

theorem answeredWith_of_classifyAll {m : String} : ∀ es : List TypeExpr,
    classifyAll join s var unread es = .error (.cyclicVar m) →
      ∃ e ∈ es, AnsweredWith s var unread (.cyclicVar m) e
  | [], h => by
    rw [classifyAll] at h
    cases h
  | e :: es, h => by
    rw [classifyAll] at h
    rcases error_of_bind h with h | ⟨_, _, h⟩
    · exact ⟨e, List.mem_cons_self, answeredWith_of_classify e h⟩
    rcases error_of_bind h with h | ⟨_, _, h⟩
    · obtain ⟨e', he, h⟩ := answeredWith_of_classifyAll es h
      exact ⟨e', List.mem_cons_of_mem _ he, h⟩
    · cases h
end

/-- A variable that is reported as cyclic leads back to itself, if those being entered lead to all
that the expression mentions. -/
theorem ComesTo.transGen_of_cyclicVar {e : TypeExpr} {r : Except ResolveError Descriptor}
    (h : ComesTo s R e r) {n : String} (hr : r = .error (.cyclicVar n))
    (hR : ∀ a ∈ R, ∀ m, s.IsVar m → e.Mentions m → TransGen s.DependsOn a m) :
    TransGen s.DependsOn n n := by
  induction h with
  | free | unreadable => cases hr
  | cyclic hn hb hmem =>
    cases hr
    exact hR n hmem n ⟨hn, _, hb⟩ (.name .here)
  | @enter R a bound r hn hb _ _ ih =>
    -- The path grows by the variable that is entered, which leads to what its bound mentions.
    rcases error_of_bind hr with hr | ⟨_, _, hr⟩
    · refine ih hr fun c hc m hm hmention => ?_
      have hdep : s.DependsOn a m := ⟨hm, bound, hb, hmention⟩
      rcases List.mem_cons.1 hc with rfl | hc
      · exact .single hdep
      · exact (hR c hc a ⟨hn, _, hb⟩ (.name .here)).tail hdep
    · cases hr
  | text read _ ih =>
    exact ih hr fun a ha m hm hmention => hR a ha m hm (.text .here read hmention)
  | parts _ _ ihvar ihunread =>
    rcases answeredWith_of_classify _ hr with ⟨m, bound, hocc, hm, hb, h⟩ | ⟨text, hocc, h⟩
    · exact ihvar m bound hocc hm hb h fun a ha m' hm' hmention =>
        hR a ha m' hm' (hmention.of_part hocc)
    · exact ihunread text hocc h fun a ha m' hm' hmention =>
        hR a ha m' hm' (hmention.of_part hocc)

end Reports

/-! ## What resolves leads to no cycle -/

section WellFormed

variable {s : Scope} {R : List String}

/-- What may stand among the arguments of a well-formed type. -/
inductive ArgFormed (s : Scope) (R : List String) : TypeExpr → Prop
  | type {e : TypeExpr} (h : WellFormed s R e) : ArgFormed s R e
  | params {items : List TypeExpr} (h : ∀ e ∈ items, WellFormed s R e) :
    ArgFormed s R (params items)
  | ellipsis : ArgFormed s R ellipsis

theorem WellFormed.argFormed {head : String} {args : List TypeExpr}
    (h : WellFormed s R (applied head args)) : ∀ e ∈ args, ArgFormed s R e := by
  cases h with
  | one _ h => exact List.forall_mem_singleton.2 (.type h)
  | several _ _ h => exact fun e he => .type (h e he)
  | dict hk hv => exact List.forall_mem_cons.2 ⟨.type hk, List.forall_mem_singleton.2 (.type hv)⟩
  | callable hitems hresult =>
    exact List.forall_mem_cons.2 ⟨.params hitems, List.forall_mem_singleton.2 (.type hresult)⟩
  | callableAny hresult =>
    exact List.forall_mem_cons.2 ⟨.ellipsis, List.forall_mem_singleton.2 (.type hresult)⟩

theorem ArgFormed.part {p e : TypeExpr} (h : ArgFormed s R e) (hp : Occurs p e) :
    ArgFormed s R p := by
  induction hp with
  | here => exact h
  | arg he _ ih =>
    cases h with
    | type h => exact ih (h.argFormed _ he)
  | item he _ ih =>
    cases h with
    | type h => cases h
    | params h => exact ih (.type (h _ he))
  | bound _ ih =>
    cases h with
    | type h =>
      cases h with
      | boundedVar _ h => exact ih (.type h)

theorem WellFormed.of_mentions {e : TypeExpr} {n : String} (h : WellFormed s R e)
    (hn : e.Mentions n) : WellFormed s R (name n) := by
  induction hn with
  | name hocc =>
    cases (ArgFormed.type h).part hocc with
    | type h => exact h
  | text hocc read _ ih =>
    cases (ArgFormed.type h).part hocc with
    | type h =>
      cases h with
      | source read' h =>
        rw [read] at read'
        cases read'
        exact ih h

theorem WellFormed.enter {n : String} {bound : TypeExpr} (h : WellFormed s R (name n))
    (hn : n ∉ markers) (hb : s.var? n = some (some bound)) :
    n ∉ R ∧ WellFormed s (n :: R) bound := by
  cases h with
  | marker hmarker => exact absurd hmarker hn
  | unboundedName _ hb' _ =>
    rw [hb] at hb'
    cases hb'
  | boundedName _ hb' hmem h =>
    rw [hb] at hb'
    cases hb'
    exact ⟨hmem, h⟩
  | bareName hb' _ | typeName hb' _ _ _ =>
    rw [hb] at hb'
    cases hb'

/-- A variable that is well formed leads to well-formed ones only, with the variables that were
entered on the way. -/
theorem WellFormed.of_reflTransGen {m n : String} (h : WellFormed s R (name m)) (hm : s.IsVar m)
    (hreach : ReflTransGen s.DependsOn m n) :
    s.IsVar n ∧ ∃ R', R ⊆ R' ∧ WellFormed s R' (name n) := by
  induction hreach with
  | refl => exact ⟨hm, R, List.Subset.refl R, h⟩
  | @tail b c _ hdep ih =>
    obtain ⟨hb, R', hsub, h'⟩ := ih
    obtain ⟨hc, bound, hbound, hmention⟩ := hdep
    exact ⟨hc, b :: R', List.subset_cons_of_subset b hsub,
      (h'.enter hb.1 hbound).2.of_mentions hmention⟩

theorem WellFormed.not_transGen {n : String} (h : WellFormed s R (name n)) (hn : s.IsVar n) :
    ¬ TransGen s.DependsOn n n := by
  intro hcycle
  obtain ⟨m, ⟨hm, bound, hb, hmention⟩, hreach⟩ := TransGen.head'_iff.1 hcycle
  obtain ⟨-, R', hsub, h'⟩ := ((h.enter hn.1 hb).2.of_mentions hmention).of_reflTransGen hm hreach
  -- Round the cycle the variable is met again while it is being entered.
  exact (h'.enter hn.1 hb).1 (hsub List.mem_cons_self)

end WellFormed

/-- Resolution comes to an end on every scope, whatever bounds lead to each other. A variable that
it reports as cyclic is on a cycle of dependencies, and if a variable that the expression leads to
is on one there is no descriptor. -/
theorem resolve_ends_and_reports_cycles (s : Scope) (e : TypeExpr) :
    (∀ r, ComesTo s [] e r ↔ r = e.resolve s) ∧
    (∀ n, e.resolve s = .error (.cyclicVar n) → TransGen s.DependsOn n n) ∧
    (∀ n, s.Reaches e n → TransGen s.DependsOn n n → ∀ d, e.resolve s ≠ .ok d) := by
  refine ⟨comesTo_iff s e, fun n h => ?_, fun n hreach hcycle d h => ?_⟩
  · exact ((comesTo_iff s e _).2 rfl).transGen_of_cyclicVar h (by simp)
  · have hwell : WellFormed s [] e :=
      wellFormed_of_resolveWith (wellFormed_of_resolveVar s.vars.size (by simp)) h
    obtain ⟨m, hmention, hm, hmn⟩ := hreach
    obtain ⟨hn, R, -, hn'⟩ := (hwell.of_mentions hmention).of_reflTransGen hm hmn
    exact hn'.not_transGen hn hcycle

/-- The bounds of `T` and `U` lead to each other, one of them through text, and that of `V` leads
there. -/
def loopScope : Scope :=
  ((Scope.empty.declareVar "T" (some (applied "List" [source "U"]))).declareVar "U"
    (some (applied "Optional" [name "T"]))).declareVar "V" (some (name "T"))

theorem loop_is_reported :
    (name "V").resolve loopScope = .error (.cyclicVar "T") ∧
      TransGen loopScope.DependsOn "T" "T" ∧
      ∀ d, (applied "Tuple" [source "type", name "V"]).resolve loopScope ≠ .ok d := by
  have herr : (name "V").resolve loopScope = .error (.cyclicVar "T") := by rfl
  have hcycle : TransGen loopScope.DependsOn "T" "T" :=
    (resolve_ends_and_reports_cycles loopScope (name "V")).2.1 "T" herr
  have hV : loopScope.IsVar "V" := ⟨by decide, _, rfl⟩
  have hT : loopScope.IsVar "T" := ⟨by decide, _, rfl⟩
  have hreach : loopScope.Reaches (applied "Tuple" [source "type", name "V"]) "T" :=
    ⟨"V", .name (occurs_arg (by simp)), hV, .single ⟨hT, name "T", rfl, .name .here⟩⟩
  exact ⟨herr, hcycle, (resolve_ends_and_reports_cycles loopScope _).2.2 "T" hreach hcycle⟩

end TypeExpr

end CallGuard
