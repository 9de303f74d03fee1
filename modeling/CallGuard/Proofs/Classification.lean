import CallGuard.Resolve
import Mathlib.Data.List.Forall2

/-!
# What classification depends on

Classification goes through an expression and asks about three things outside it: its bare names,
the heads that are no type constructors, and its texts. Two classifications of one expression that
get related answers have related results (`classify_related`), for every relation between
descriptors that goes through the forms they are built in (`Descriptor.Congruence`). With equality
for the relation, what an expression is classified as depends on the answers alone
(`classify_congr`). A property of descriptors that all the forms keep is a relation too, so it holds
of whatever a written type resolves to (`resolveJoining_related`).

What an applied name can be is said once (`Application`).
-/

namespace CallGuard

/-! ## Results -/

section Results

variable {ε α β : Type}

theorem ok_of_bind {x : Except ε α} {f : α → Except ε β} {b : β} (h : (x >>= f) = .ok b) :
    ∃ a, x = .ok a ∧ f a = .ok b := by
  rcases x with e | a
  · cases h
  · exact ⟨a, rfl, h⟩

theorem exists_ok_bind {x : Except ε α} {f : α → Except ε β} (hx : ∃ a, x = .ok a)
    (hf : ∀ a, ∃ b, f a = .ok b) : ∃ b, (x >>= f) = .ok b := by
  obtain ⟨a, rfl⟩ := hx
  exact hf a

theorem error_of_bind {x : Except ε α} {f : α → Except ε β} {err : ε}
    (h : (x >>= f) = .error err) : x = .error err ∨ ∃ a, x = .ok a ∧ f a = .error err := by
  rcases x with e | a
  · cases h
    exact .inl rfl
  · exact .inr ⟨a, rfl, h⟩

/-- Both results are there, or both are errors, and they are related: values by `P` and errors by
`E`. -/
inductive RelatedBy (E : ε → ε → Prop) (P : α → β → Prop) : Except ε α → Except ε β → Prop
  | ok {a : α} {b : β} (h : P a b) : RelatedBy E P (.ok a) (.ok b)
  | error {e e' : ε} (h : E e e') : RelatedBy E P (.error e) (.error e')

/-- Both results are the same error, or both are there and related. -/
abbrev Related (P : α → β → Prop) : Except ε α → Except ε β → Prop := RelatedBy Eq P

theorem RelatedBy.bind {γ δ : Type} {E : ε → ε → Prop} {P : α → β → Prop} {Q : γ → δ → Prop}
    {x : Except ε α} {y : Except ε β} {f : α → Except ε γ} {g : β → Except ε δ}
    (h : RelatedBy E P x y) (hfg : ∀ a b, P a b → RelatedBy E Q (f a) (g b)) :
    RelatedBy E Q (x >>= f) (y >>= g) := by
  cases h with
  | ok h => exact hfg _ _ h
  | error h => exact .error h

theorem relatedBy_refl {E : ε → ε → Prop} (hE : ∀ e, E e e) (x : Except ε α) :
    RelatedBy E Eq x x := by
  cases x with
  | ok a => exact .ok rfl
  | error e => exact .error (hE e)

theorem related_eq_iff {x y : Except ε α} : Related Eq x y ↔ x = y := by
  constructor
  · intro h
    cases h with
    | ok h => rw [h]
    | error h => rw [h]
  · rintro rfl
    exact relatedBy_refl (fun _ => rfl) x

end Results

namespace TypeExpr

/-! ## Applied names -/

section Refused

variable (join : List Descriptor → Descriptor) (s : Scope)
  (var : String → Option TypeExpr → Except ResolveError Descriptor)
  (unread : String → Except ResolveError Descriptor)

theorem classify_noFormer {head : String} (h : Former.ofName? head = none) (args : List TypeExpr) :
    classify join s var unread (applied head args) = .error (s.notApplicable head) := by
  rw [classify.eq_def]
  simp only [h]

theorem classify_miscounted {head : String} {f : Former} {args : List TypeExpr}
    (hf : Former.ofName? head = some f) (h : f.count.admits args.length = false) :
    classify join s var unread (applied head args) =
      .error (.arity head f.count args.length) := by
  rw [classify.eq_def]
  -- Up to three arguments tell all rows apart; those with a number that `f` admits are excluded.
  cases f <;> rcases args with _ | ⟨a, _ | ⟨b, _ | ⟨c, args⟩⟩⟩ <;>
    simp_all [Former.count, Count.admits]

theorem classify_callableOther {first : TypeExpr} (hparams : ∀ items, first ≠ params items)
    (hellipsis : first ≠ ellipsis) (result : TypeExpr) :
    classify join s var unread (applied "Callable" [first, result]) =
      .error (.callableParams first.text) := by
  cases first with
  | params items => exact absurd rfl (hparams items)
  | ellipsis => exact absurd rfl hellipsis
  | _ => rfl

end Refused

/-- What an applied name can be. The last three forms are refused, whatever their arguments resolve
to. -/
inductive Application : String → List TypeExpr → Prop
  | type (e : TypeExpr) : Application "Type" [e]
  | optional (e : TypeExpr) : Application "Optional" [e]
  | list (e : TypeExpr) : Application "List" [e]
  | dict (k v : TypeExpr) : Application "Dict" [k, v]
  | callable (items : List TypeExpr) (result : TypeExpr) :
    Application "Callable" [params items, result]
  | callableAny (result : TypeExpr) : Application "Callable" [ellipsis, result]
  | union (e : TypeExpr) (es : List TypeExpr) : Application "Union" (e :: es)
  | tuple (e : TypeExpr) (es : List TypeExpr) : Application "Tuple" (e :: es)
  | noFormer {head : String} (h : Former.ofName? head = none) (args : List TypeExpr) :
    Application head args
  | miscounted {head : String} {f : Former} {args : List TypeExpr}
    (hf : Former.ofName? head = some f) (h : f.count.admits args.length = false) :
    Application head args
  | callableOther {first : TypeExpr} (hparams : ∀ items, first ≠ params items)
    (hellipsis : first ≠ ellipsis) (result : TypeExpr) : Application "Callable" [first, result]

theorem application (head : String) (args : List TypeExpr) : Application head args := by
  rcases hf : Former.ofName? head with _ | f
  · exact .noFormer hf args
  rcases hcount : f.count.admits args.length with _ | _
  · exact .miscounted hf hcount
  have one : f.count = .exactly 1 → ∃ e, args = [e] := by
    intro h
    simpa [h, Count.admits, List.length_eq_one_iff] using hcount
  have two : f.count = .exactly 2 → ∃ e e', args = [e, e'] := by
    intro h
    simpa [h, Count.admits, List.length_eq_two] using hcount
  have several : f.count = .atLeast 1 → ∃ e es, args = e :: es := by
    intro h
    have hpos : 1 ≤ args.length := by simpa [h, Count.admits] using hcount
    exact List.exists_cons_of_length_pos hpos
  unfold Former.ofName? at hf
  split at hf <;> cases hf
  · obtain ⟨e, rfl⟩ := one rfl
    exact .type e
  · obtain ⟨e, es, rfl⟩ := several rfl
    exact .union e es
  · obtain ⟨e, rfl⟩ := one rfl
    exact .optional e
  · obtain ⟨e, rfl⟩ := one rfl
    exact .list e
  · obtain ⟨e, es, rfl⟩ := several rfl
    exact .tuple e es
  · obtain ⟨k, v, rfl⟩ := two rfl
    exact .dict k v
  · obtain ⟨first, result, rfl⟩ := two rfl
    cases first with
    | params items => exact .callable items result
    | ellipsis => exact .callableAny result
    | _ => exact .callableOther (by simp) (by simp) result

/-! ## Occurrences -/

/-- The names that no declaration can change. -/
def markers : List String := ["Any", "NoReturn", "None", "NoneType", "Type"]

theorem markerDescriptor?_eq_none {n : String} : markerDescriptor? n = none ↔ n ∉ markers := by
  unfold markerDescriptor? markers
  split <;> simp_all

/-- The expression `p` occurs in another one as it is written, with text unread. -/
inductive Occurs (p : TypeExpr) : TypeExpr → Prop
  | here : Occurs p p
  | arg {head : String} {args : List TypeExpr} {e : TypeExpr} (he : e ∈ args) (h : Occurs p e) :
    Occurs p (applied head args)
  | item {items : List TypeExpr} {e : TypeExpr} (he : e ∈ items) (h : Occurs p e) :
    Occurs p (params items)
  | bound {n : String} {e : TypeExpr} (h : Occurs p e) : Occurs p (boundedVar n e)

theorem Occurs.trans {p q e : TypeExpr} (h : Occurs p q) (h' : Occurs q e) : Occurs p e := by
  induction h' with
  | here => exact h
  | arg he _ ih => exact .arg he ih
  | item he _ ih => exact .item he ih
  | bound _ ih => exact .bound ih

theorem occurs_applied {p : TypeExpr} {head : String} {args : List TypeExpr} :
    Occurs p (applied head args) ↔ p = applied head args ∨ ∃ e ∈ args, Occurs p e := by
  constructor
  · intro h
    cases h with
    | here => exact .inl rfl
    | arg he h => exact .inr ⟨_, he, h⟩
  · rintro (rfl | ⟨e, he, h⟩)
    · exact .here
    · exact .arg he h

theorem occurs_params {p : TypeExpr} {items : List TypeExpr} :
    Occurs p (params items) ↔ p = params items ∨ ∃ e ∈ items, Occurs p e := by
  constructor
  · intro h
    cases h with
    | here => exact .inl rfl
    | item he h => exact .inr ⟨_, he, h⟩
  · rintro (rfl | ⟨e, he, h⟩)
    · exact .here
    · exact .item he h

theorem occurs_boundedVar {p : TypeExpr} {n : String} {e : TypeExpr} :
    Occurs p (boundedVar n e) ↔ p = boundedVar n e ∨ Occurs p e := by
  constructor
  · intro h
    cases h with
    | here => exact .inl rfl
    | bound h => exact .inr h
  · rintro (rfl | h)
    · exact .here
    · exact .bound h

theorem occurs_source {p : TypeExpr} {text : String} :
    Occurs p (source text) ↔ p = source text := by
  constructor
  · rintro ⟨⟩
    rfl
  · rintro rfl
    exact .here

theorem occurs_arg {head : String} {args : List TypeExpr} {e : TypeExpr} (he : e ∈ args) :
    Occurs e (applied head args) :=
  .arg he .here

theorem occurs_callable_item {items : List TypeExpr} {result e : TypeExpr} (he : e ∈ items) :
    Occurs e (applied "Callable" [params items, result]) :=
  .arg List.mem_cons_self (.item he .here)

end TypeExpr

/-! ## Related answers, related results -/

namespace Descriptor

/-- The descriptor is not built from others. -/
def isAtom : Descriptor → Bool
  | union _ | listOf _ | tuple _ | dictOf _ _ | boundedVar _ _ | typeRefTo _ | callable _ _ => false
  | any | noReturn | none | list | dict | freeVar _ | typeRef | wildcard | forward _ | nominal _ =>
    true

/-- A relation between descriptors that goes through every form that one is built in. Unions are
made by `join` on one side and by `join'` on the other, of at least one member each. -/
structure Congruence (P : Descriptor → Descriptor → Prop)
    (join join' : List Descriptor → Descriptor) : Prop where
  atom : ∀ d : Descriptor, d.isAtom = true → P d d
  boundedVar : ∀ (n : String) {d p : Descriptor}, P d p → P (boundedVar n d) (boundedVar n p)
  typeRefTo : ∀ {d p : Descriptor}, P d p → P (typeRefTo d) (typeRefTo p)
  listOf : ∀ {d p : Descriptor}, P d p → P (listOf d) (listOf p)
  dictOf : ∀ {k q d p : Descriptor}, P k q → P d p → P (dictOf k d) (dictOf q p)
  tuple : ∀ {ds ps : List Descriptor}, List.Forall₂ P ds ps → P (tuple ds) (tuple ps)
  callable : ∀ {ds ps : List Descriptor} {d p : Descriptor}, List.Forall₂ P ds ps → P d p →
    P (callable ds d) (callable ps p)
  join : ∀ {d p : Descriptor} {ds ps : List Descriptor}, P d p → List.Forall₂ P ds ps →
    P (join (d :: ds)) (join' (p :: ps))

theorem congruence_eq (join : List Descriptor → Descriptor) : Congruence Eq join join := by
  have lists : ∀ {ds ps : List Descriptor}, List.Forall₂ Eq ds ps → ds = ps := by
    intro ds ps h
    rwa [List.forall₂_eq_eq_eq] at h
  constructor
  case atom => exact fun _ _ => rfl
  case boundedVar => exact fun n _ _ h => congrArg _ h
  case typeRefTo | listOf => exact fun h => congrArg _ h
  case dictOf => exact fun hk h => hk ▸ h ▸ rfl
  case tuple => exact fun h => congrArg _ (lists h)
  case callable => exact fun hs h => lists hs ▸ h ▸ rfl
  case join => exact fun h hs => h ▸ lists hs ▸ rfl

end Descriptor

namespace TypeExpr

open Descriptor (Congruence)

section Related

variable {P : Descriptor → Descriptor → Prop} {join join' : List Descriptor → Descriptor}
  {s s' : Scope} {var var' : String → Option TypeExpr → Except ResolveError Descriptor}
  {unread unread' : String → Except ResolveError Descriptor}

/-- What two classifications ask about an expression is answered alike: by related descriptors or by
the same error. -/
structure AnsweredAlike (P : Descriptor → Descriptor → Prop) (s s' : Scope)
    (var var' : String → Option TypeExpr → Except ResolveError Descriptor)
    (unread unread' : String → Except ResolveError Descriptor) (e : TypeExpr) : Prop where
  name : ∀ n, Occurs (name n) e → Related P (s.classifyName var n) (s'.classifyName var' n)
  head : ∀ head args, Occurs (applied head args) e → Former.ofName? head = none →
    s.notApplicable head = s'.notApplicable head
  text : ∀ text, Occurs (source text) e → Related P (unread text) (unread' text)

theorem AnsweredAlike.part {p e : TypeExpr} (h : AnsweredAlike P s s' var var' unread unread' e)
    (hp : Occurs p e) : AnsweredAlike P s s' var var' unread unread' p where
  name n hn := h.name n (hn.trans hp)
  head head args ha := h.head head args (ha.trans hp)
  text text ht := h.text text (ht.trans hp)

mutual
/-- Related answers about an expression give related results. -/
theorem classify_related (hP : Congruence P join join') :
    ∀ e : TypeExpr, AnsweredAlike P s s' var var' unread unread' e →
      Related P (classify join s var unread e) (classify join' s' var' unread' e)
  | source text, h => h.text text .here
  | name n, h => h.name n .here
  | freeVar _, _ | forward _, _ => .ok (hP.atom _ rfl)
  | ty t, _ => by
    rw [classify, classify]
    refine .ok (hP.atom _ ?_)
    unfold Ty.descriptor
    split <;> rfl
  | params _, _ | ellipsis, _ => .error rfl
  | boundedVar n bound, h => by
    rw [classify, classify]
    exact (classify_related hP bound (h.part (.bound .here))).bind fun _ _ h =>
      .ok (hP.boundedVar n h)
  | applied head args, h => by
    cases application head args with
    | type e =>
      exact (classify_related hP e (h.part (occurs_arg (by simp)))).bind fun _ _ h =>
        .ok (hP.typeRefTo h)
    | optional e =>
      exact (classify_related hP e (h.part (occurs_arg (by simp)))).bind fun _ _ h =>
        .ok (hP.join h (.cons (hP.atom _ rfl) .nil))
    | list e =>
      exact (classify_related hP e (h.part (occurs_arg (by simp)))).bind fun _ _ h =>
        .ok (hP.listOf h)
    | dict k v =>
      exact (classify_related hP k (h.part (occurs_arg (by simp)))).bind fun _ _ hk =>
        (classify_related hP v (h.part (occurs_arg (by simp)))).bind fun _ _ hv =>
          .ok (hP.dictOf hk hv)
    | callable items result =>
      exact (classifyAll_related hP items fun e he => h.part (occurs_callable_item he)).bind
        fun _ _ hs => (classify_related hP result (h.part (occurs_arg (by simp)))).bind
          fun _ _ h => .ok (hP.callable hs h)
    | callableAny result =>
      exact (classify_related hP result (h.part (occurs_arg (by simp)))).bind fun _ _ h =>
        .ok (hP.callable .nil h)
    | union e es =>
      exact (classify_related hP e (h.part (occurs_arg (by simp)))).bind fun _ _ hd =>
        (classifyAll_related hP es fun e he => h.part (occurs_arg (by simp [he]))).bind
          fun _ _ hs => .ok (hP.join hd hs)
    | tuple e es =>
      exact (classify_related hP e (h.part (occurs_arg (by simp)))).bind fun _ _ hd =>
        (classifyAll_related hP es fun e he => h.part (occurs_arg (by simp [he]))).bind
          fun _ _ hs => .ok (hP.tuple (.cons hd hs))
    | noFormer hf args =>
      rw [classify_noFormer _ _ _ _ hf, classify_noFormer _ _ _ _ hf, h.head head args .here hf]
      exact .error rfl
    | miscounted hf hcount =>
      rw [classify_miscounted _ _ _ _ hf hcount, classify_miscounted _ _ _ _ hf hcount]
      exact .error rfl
    | callableOther hparams hellipsis result =>
      rw [classify_callableOther _ _ _ _ hparams hellipsis,
        classify_callableOther _ _ _ _ hparams hellipsis]
      exact .error rfl

theorem classifyAll_related (hP : Congruence P join join') :
    ∀ es : List TypeExpr, (∀ e ∈ es, AnsweredAlike P s s' var var' unread unread' e) →
      Related (List.Forall₂ P) (classifyAll join s var unread es)
        (classifyAll join' s' var' unread' es)
  | [], _ => .ok .nil
  | e :: es, h => by
    obtain ⟨he, hes⟩ := List.forall_mem_cons.1 h
    rw [classifyAll, classifyAll]
    exact (classify_related hP e he).bind fun _ _ hd => (classifyAll_related hP es hes).bind
      fun _ _ hs => .ok (.cons hd hs)
end

/-- What an expression is classified as depends on the answers about it. -/
theorem classify_congr {e : TypeExpr} (h : AnsweredAlike Eq s s' var var' unread unread' e) :
    classify join s var unread e = classify join s' var' unread' e :=
  related_eq_iff.1 (classify_related (Descriptor.congruence_eq join) e h)

/-! ## Resolution in one scope -/

variable (hP : Congruence P join join')

include hP

theorem classifyName_related {n : String}
    (hvar : ∀ bound, n ∉ markers → s.var? n = some bound →
      Related P (var n bound) (var' n bound)) :
    Related P (s.classifyName var n) (s.classifyName var' n) := by
  unfold Scope.classifyName
  split
  · rename_i d hd
    refine .ok (hP.atom d ?_)
    unfold markerDescriptor? at hd
    split at hd <;> cases hd <;> rfl
  rename_i hn
  split
  · rename_i bound hb
    exact hvar bound (markerDescriptor?_eq_none.1 hn) hb
  split
  · exact .ok (hP.atom _ rfl)
  split
  · rename_i f _
    cases f with
    | union | optional => exact .error rfl
    | type | list | dict => exact .ok (hP.atom _ rfl)
    | tuple => exact .ok (hP.tuple .nil)
    | callable => exact .ok (hP.callable .nil (hP.atom _ rfl))
  split
  · exact .ok (hP.atom _ rfl)
  · exact .error rfl

/-- In one scope, the answers about an expression are alike if those about its variables and its
texts are. -/
theorem answeredAlike_of_var {e : TypeExpr}
    (hvar : ∀ n bound, Occurs (name n) e → n ∉ markers → s.var? n = some bound →
      Related P (var n bound) (var' n bound))
    (htext : ∀ text, Occurs (source text) e → Related P (unread text) (unread' text)) :
    AnsweredAlike P s s var var' unread unread' e where
  name n hn := classifyName_related hP fun bound => hvar n bound hn
  head _ _ _ _ := rfl
  text := htext

theorem resolveWith_related (hvar : ∀ n bound, Related P (var n bound) (var' n bound))
    (e : TypeExpr) : Related P (e.resolveWith join s var) (e.resolveWith join' s var') := by
  refine classify_related hP e (answeredAlike_of_var hP (fun n bound _ _ _ => hvar n bound) ?_)
  intro text _
  unfold classifyText
  split
  · exact classify_related hP _
      (answeredAlike_of_var hP (fun n bound _ _ _ => hvar n bound) fun _ _ => .error rfl)
  · exact .error rfl

theorem resolveVar_related : ∀ (budget : Nat) (R : List String) (n : String)
    (bound : Option TypeExpr),
    Related P (s.resolveVar join budget R n bound) (s.resolveVar join' budget R n bound)
  | budget, _, _, none => by
    rw [Scope.resolveVar, Scope.resolveVar]
    exact .ok (hP.atom _ rfl)
  | 0, _, _, some _ => .error rfl
  | left + 1, R, n, some bound => by
    rw [Scope.resolveVar, Scope.resolveVar]
    split
    · exact .error rfl
    · exact (resolveWith_related hP (resolveVar_related left (n :: R)) bound).bind
        fun _ _ h => .ok (hP.boundedVar n h)

/-- What a written type resolves to is related to what it would with unions made in the other
way. -/
theorem resolveJoining_related (s : Scope) (e : TypeExpr) :
    Related P (e.resolveJoining join s) (e.resolveJoining join' s) :=
  resolveWith_related hP (resolveVar_related hP s.vars.size []) e

end Related

end TypeExpr

end CallGuard
