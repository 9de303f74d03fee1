import CallGuard.Proofs.Cycles

/-!
# The names that a written type can reach

Resolution looks names up in four places, in different orders, and goes on into the bounds of
variables. Wherever it looks, the name is one that the expression reaches: it is written in the
expression or in a text of it, as a bare name or before brackets, or in the bound of a variable that
is reached. So scopes that agree on those names resolve the expression alike, whatever else they
hold and however many variables they declare (`ComesTo.of_agreeAt`).

The types of a scope are looked up last, after the names that resolution knows by itself, so that a
type bound under one of these is never found (`classifyName_of_agreeAt`,
`notApplicable_of_agreeAt`).
-/

namespace CallGuard

namespace TypeExpr

/-! ## Reachable names -/

/-- The name is written in an expression or in what is read from its texts, alone or before
brackets. -/
inductive Writes (n : String) : TypeExpr → Prop
  | name : Writes n (name n)
  | head (args : List TypeExpr) : Writes n (applied n args)
  | arg {head : String} {args : List TypeExpr} {e : TypeExpr} (he : e ∈ args) (h : Writes n e) :
    Writes n (applied head args)
  | item {items : List TypeExpr} {e : TypeExpr} (he : e ∈ items) (h : Writes n e) :
    Writes n (params items)
  | bound {m : String} {e : TypeExpr} (h : Writes n e) : Writes n (boundedVar m e)
  | text {text : String} {e : TypeExpr} (read : parse text = .ok e) (h : Writes n e) :
    Writes n (source text)

theorem writes_name {n m : String} : (name m).Writes n ↔ n = m := by
  constructor
  · rintro ⟨⟩
    rfl
  · rintro rfl
    exact .name

theorem writes_applied {n head : String} {args : List TypeExpr} :
    (applied head args).Writes n ↔ n = head ∨ ∃ e ∈ args, e.Writes n := by
  constructor
  · intro h
    cases h with
    | head => exact .inl rfl
    | arg he h => exact .inr ⟨_, he, h⟩
  · rintro (rfl | ⟨e, he, h⟩)
    · exact .head args
    · exact .arg he h

theorem writes_source {n text : String} {e : TypeExpr} (read : parse text = .ok e) :
    (source text).Writes n ↔ e.Writes n := by
  constructor
  · intro h
    cases h with
    | text read' h =>
      rw [read] at read'
      cases read'
      exact h
  · exact .text read

theorem Writes.of_part {n : String} {p e : TypeExpr} (h : Writes n p) (hp : Occurs p e) :
    Writes n e := by
  induction hp with
  | here => exact h
  | arg he _ ih => exact .arg he ih
  | item he _ ih => exact .item he ih
  | bound _ ih => exact .bound ih

end TypeExpr

namespace Scope

/-- The names that an expression reaches in a scope: those written in it, and those written in the
bound of a variable that it reaches. -/
inductive Reach (s : Scope) (e : TypeExpr) : String → Prop
  | written {n : String} (h : e.Writes n) : Reach s e n
  | bound {m n : String} {bound : TypeExpr} (hm : Reach s e m)
    (declared : s.var? m = some (some bound)) (h : bound.Writes n) : Reach s e n

variable {s s' : Scope} {e : TypeExpr} {n : String}

theorem Reach.of_part {p : TypeExpr} (h : s.Reach p n) (hp : ∀ m, p.Writes m → s.Reach e m) :
    s.Reach e n := by
  induction h with
  | written h => exact hp _ h
  | bound _ declared h ih => exact .bound ih declared h

/-! ## Names that resolution knows by itself -/

/-- The names that have a meaning without being bound to a type. -/
def reserved : List String :=
  ["Any", "NoReturn", "None", "NoneType", "Type", "type", "Union", "Optional", "List", "Tuple",
    "Dict", "Callable"]

theorem not_mem_reserved (hmarker : markerDescriptor? n = none) (htype : n ≠ "type")
    (hformer : Former.ofName? n = none) : n ∉ reserved := by
  have known : reserved.all fun m =>
    (markerDescriptor? m).isSome || m == "type" || (Former.ofName? m).isSome := by decide
  intro hn
  simpa [hmarker, htype, hformer] using List.all_eq_true.1 known n hn

/-- Two scopes declare the same under a name, as a variable and, unless the name is reserved, as a
type. -/
structure AgreeAt (s s' : Scope) (n : String) : Prop where
  var : s.var? n = s'.var? n
  type : n ∉ reserved → s.type? n = s'.type? n

theorem classifyName_of_agreeAt (h : AgreeAt s s' n)
    (var : String → Option TypeExpr → Except ResolveError Descriptor) :
    s.classifyName var n = s'.classifyName var n := by
  unfold classifyName
  rw [← h.var]
  split
  · rfl
  rename_i hmarker
  split
  · rfl
  split_ifs with htype
  · rfl
  split
  · rfl
  rename_i hformer
  rw [h.type (not_mem_reserved hmarker htype hformer)]

theorem notApplicable_of_agreeAt (h : AgreeAt s s' n) (hformer : Former.ofName? n = none) :
    s.notApplicable n = s'.notApplicable n := by
  unfold notApplicable
  rw [← h.var]
  by_cases hmarker : markerDescriptor? n = none
  · by_cases htype : n = "type"
    · simp [htype]
    · rw [h.type (not_mem_reserved hmarker htype hformer)]
  · simp [Option.isSome_iff_ne_none.2 hmarker]

end Scope

namespace TypeExpr

variable {s s' : Scope}

theorem ComesTo.of_agreeAt {R : List String} {e : TypeExpr} {r : Except ResolveError Descriptor}
    (h : ComesTo s R e r) (hs : ∀ n, s.Reach e n → Scope.AgreeAt s s' n) : ComesTo s' R e r := by
  -- The relation has no budget, which would differ where the scopes declare different numbers of
  -- variables; what a bound or a text reaches is reached from outside it.
  induction h with
  | @free R n hn hb => exact .free hn ((hs n (.written .name)).var ▸ hb)
  | @cyclic R n bound hn hb hmem => exact .cyclic hn ((hs n (.written .name)).var ▸ hb) hmem
  | @enter R n bound r hn hb hmem _ ih =>
    refine .enter hn ((hs n (.written .name)).var ▸ hb) hmem (ih fun m hm => hs m ?_)
    exact hm.of_part fun k hk => .bound (.written .name) hb hk
  | unreadable hread => exact .unreadable hread
  | text hread _ ih =>
    exact .text hread (ih fun m hm => hs m (hm.of_part fun k hk => .written (.text hread hk)))
  | @parts R e var unread _ _ ihvar ihunread =>
    have part : ∀ p, Occurs p e → ∀ n, s.Reach p n → Scope.AgreeAt s s' n := fun p hp n hn =>
      hs n (hn.of_part fun m hm => .written (hm.of_part hp))
    have hclassify : classify .unionOf s var unread e = classify .unionOf s' var unread e := by
      refine classify_congr ⟨fun n hn => ?_, fun head args ha hf => ?_, fun text _ => ?_⟩
      · rw [Scope.classifyName_of_agreeAt (part _ hn n (.written .name))]
        exact related_eq_iff.2 rfl
      · exact Scope.notApplicable_of_agreeAt (part _ ha head (.written (.head args))) hf
      · exact related_eq_iff.2 rfl
    rw [hclassify]
    refine .parts (fun n bound hocc hn hb => ?_) fun text hocc => ihunread text hocc (part _ hocc)
    have hvar := (part _ hocc n (.written .name)).var
    exact ihvar n bound hocc hn (hvar ▸ hb) (part _ hocc)

theorem resolve_of_agreeAt {e : TypeExpr} (hs : ∀ n, s.Reach e n → Scope.AgreeAt s s' n) :
    e.resolve s = e.resolve s' :=
  (comesTo_iff s' e _).1 (((comesTo_iff s e _).2 rfl).of_agreeAt hs)

theorem resolve_register_reserved {n : String} (hn : n ∈ Scope.reserved) (t : Ty) (e : TypeExpr) :
    e.resolve (s.register n t) = e.resolve s := by
  refine resolve_of_agreeAt fun m _ => ⟨rfl, fun hm => ?_⟩
  have hne : m ≠ n := fun h => hm (h ▸ hn)
  simp [Scope.type?, Scope.register, hne]

/-- What a written type resolves to depends on the names that it reaches, and on no others: scopes
that declare the same variables and bind the same types under these give the same result. Types that
are bound under reserved names never make a difference. -/
theorem resolve_depends_on_reachable_names :
    (∀ (s s' : Scope) (e : TypeExpr),
      (∀ n, s.Reach e n → s.var? n = s'.var? n ∧ s.type? n = s'.type? n) →
        e.resolve s = e.resolve s') ∧
    ∀ (s : Scope) (bindings : List (String × Ty)) (e : TypeExpr),
      (∀ b ∈ bindings, b.1 ∈ Scope.reserved) →
        e.resolve (bindings.foldl (fun s b => s.register b.1 b.2) s) = e.resolve s := by
  constructor
  · intro s s' e hs
    exact resolve_of_agreeAt fun n hn => ⟨(hs n hn).1, fun _ => (hs n hn).2⟩
  · intro s bindings e
    induction bindings generalizing s with
    | nil => exact fun _ => rfl
    | cons b bindings ih =>
      intro hb
      obtain ⟨hb, hbs⟩ := List.forall_mem_cons.1 hb
      rw [List.foldl_cons, ih (s.register b.1 b.2) hbs, resolve_register_reserved hb]

/-- A type, and a variable whose bound is text. -/
def boundScope : Scope :=
  (Scope.empty.register "Int" (.builtin .int)).declareVar "N" (some (source "Optional[Int]"))

/-- The same with a further variable, which is bounded by itself, and with a type of that name. -/
def crowdedScope : Scope :=
  (boundScope.declareVar "Loop" (some (name "Loop"))).register "Loop" (.builtin .float)

/-- `Tuple[N, Type]`, with `N` as text -/
def textPair : TypeExpr := applied "Tuple" [source "N", name "Type"]

theorem reach_textPair {n : String} (h : boundScope.Reach textPair n) :
    n ∈ ["Tuple", "N", "Type", "Optional", "Int"] := by
  have hN : parse "N" = .ok (name "N") := rfl
  have hbound : parse "Optional[Int]" = .ok (applied "Optional" [name "Int"]) := rfl
  induction h with
  | written h =>
    simp only [textPair, writes_applied, List.mem_cons, List.not_mem_nil, or_false,
      exists_eq_or_imp, exists_eq_left, writes_source hN, writes_name] at h
    rcases h with rfl | rfl | rfl <;> simp
  | @bound m n bound _ declared h _ =>
    have hm : bound = source "Optional[Int]" := by
      simp only [boundScope, Scope.var?, Scope.declareVar, OrderedMap.get?_insert] at declared
      split at declared
      · cases declared
        rfl
      · cases declared
    subst hm
    simp only [writes_source hbound, writes_applied, writes_name, List.mem_singleton,
      exists_eq_left] at h
    rcases h with rfl | rfl <;> simp

theorem textPair_resolves_alike :
    textPair.resolve boundScope = textPair.resolve crowdedScope ∧
      textPair.resolve (boundScope.register "Type" (.builtin .int)) =
        textPair.resolve boundScope := by
  obtain ⟨hagree, hreserved⟩ := resolve_depends_on_reachable_names
  constructor
  · refine hagree boundScope crowdedScope textPair fun n hn => ?_
    have hne : n ≠ "Loop" := by
      rintro rfl
      simpa using reach_textPair hn
    simp [crowdedScope, Scope.var?, Scope.type?, Scope.register, Scope.declareVar, hne]
  · exact hreserved boundScope [("Type", .builtin .int)] textPair (by simp [Scope.reserved])

end TypeExpr

end CallGuard
