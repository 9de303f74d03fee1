import CallGuard.Proofs.Cycles

/-!
# Text may be read early

Text in an expression is read when resolution comes to it. Reading all of it beforehand makes no
difference, as long as there is no text where `Callable` expects its parameters: that place is
looked at before anything is read, so that text is refused there even if it says what would be
accepted. Errors may quote the expression, and then they quote it as it stands; they are the same
otherwise (`resolveWith_readTexts`).

What resolves holds no text that cannot be read and none in that place, since all that occurs in a
well-formed type is well formed, or is the first argument of a `Callable` (`ArgFormed.part`).
-/

namespace CallGuard

/-- The errors are the same but for the expression that they quote. -/
inductive ResolveError.SameKind : ResolveError → ResolveError → Prop
  | refl (err : ResolveError) : SameKind err err
  | callableParams (found found' : String) :
    SameKind (.callableParams found) (.callableParams found')
  | misplaced (what : CallableOnly) (context context' : String) :
    SameKind (.misplaced what context) (.misplaced what context')

namespace TypeExpr

open ResolveError (SameKind)

mutual
/-- The expression with all its texts replaced by what is read from them. A text that cannot be read
stays. -/
def readTexts : TypeExpr → TypeExpr
  | source text =>
    match parse text with
    | .ok e => e
    | .error _ => source text
  | applied head args => applied head (readAllTexts args)
  | params items => params (readAllTexts items)
  | boundedVar n bound => boundedVar n (readTexts bound)
  | e => e

/-- The expressions with all their texts read. -/
def readAllTexts : List TypeExpr → List TypeExpr
  | [] => []
  | e :: es => readTexts e :: readAllTexts es
end

theorem length_readAllTexts (es : List TypeExpr) : (readAllTexts es).length = es.length := by
  induction es with
  | nil => rfl
  | cons e es ih => rw [readAllTexts, List.length_cons, List.length_cons, ih]

/-- All texts in an expression can be read, and none stands where `Callable` expects its
parameters. -/
structure Legible (e : TypeExpr) : Prop where
  reads : ∀ text, Occurs (source text) e → ∃ e', parse text = .ok e'
  notParams : ∀ text result, ¬ Occurs (applied "Callable" [source text, result]) e

theorem Legible.part {p e : TypeExpr} (h : Legible e) (hp : Occurs p e) : Legible p where
  reads text ht := h.reads text (ht.trans hp)
  notParams text result hc := h.notParams text result (hc.trans hp)

section Legible

variable {join : List Descriptor → Descriptor} {s : Scope}
  {var : String → Option TypeExpr → Except ResolveError Descriptor}

theorem resolveWith_callableOther {first : TypeExpr} (hparams : ∀ items, first ≠ params items)
    (hellipsis : first ≠ ellipsis) (hsource : ∀ text, first ≠ source text) (result : TypeExpr) :
    ∃ found, (applied "Callable" [first.readTexts, result]).resolveWith join s var =
      .error (.callableParams found) := by
  cases first with
  | params items => exact absurd rfl (hparams items)
  | ellipsis => exact absurd rfl hellipsis
  | source text => exact absurd rfl (hsource text)
  | _ => exact ⟨_, classify_callableOther _ _ _ _ (by simp [readTexts]) (by simp [readTexts]) _⟩

mutual
theorem resolveWith_readTexts : ∀ e : TypeExpr, Legible e →
    RelatedBy SameKind Eq (e.resolveWith join s var) (e.readTexts.resolveWith join s var)
  | source text, h => by
    obtain ⟨e, hread⟩ := h.reads text .here
    rw [resolveWith_source hread, readTexts, hread]
    exact relatedBy_refl .refl _
  | name _, _ | freeVar _, _ | ty _, _ | forward _, _ | ellipsis, _ => relatedBy_refl .refl _
  | params items, _ => .error (.misplaced _ _ _)
  | boundedVar n bound, h => by
    rw [readTexts, resolveWith, resolveWith, classify, classify]
    exact (resolveWith_readTexts bound (h.part (.bound .here))).bind fun _ _ h => .ok (h ▸ rfl)
  | applied head args, h => by
    cases application head args with
    | type e | optional e | list e =>
      exact (resolveWith_readTexts e (h.part (occurs_arg (by simp)))).bind fun _ _ h =>
        .ok (h ▸ rfl)
    | dict k v =>
      exact (resolveWith_readTexts k (h.part (occurs_arg (by simp)))).bind fun _ _ hk =>
        (resolveWith_readTexts v (h.part (occurs_arg (by simp)))).bind fun _ _ hv =>
          .ok (hk ▸ hv ▸ rfl)
    | callable items result =>
      exact (classifyAll_readAllTexts items fun e he => h.part (occurs_callable_item he)).bind
        fun _ _ hs => (resolveWith_readTexts result (h.part (occurs_arg (by simp)))).bind
          fun _ _ h => .ok (hs ▸ h ▸ rfl)
    | callableAny result =>
      exact (resolveWith_readTexts result (h.part (occurs_arg (by simp)))).bind fun _ _ h =>
        .ok (h ▸ rfl)
    | union e es | tuple e es =>
      exact (resolveWith_readTexts e (h.part (occurs_arg (by simp)))).bind fun _ _ hd =>
        (classifyAll_readAllTexts es fun e he => h.part (occurs_arg (by simp [he]))).bind
          fun _ _ hs => .ok (hd ▸ hs ▸ rfl)
    | noFormer hf =>
      rw [readTexts, resolveWith, resolveWith, classify_noFormer _ _ _ _ hf,
        classify_noFormer _ _ _ _ hf]
      exact .error (.refl _)
    | miscounted hf hcount =>
      have hcount' := hcount
      rw [← length_readAllTexts] at hcount'
      rw [readTexts, resolveWith, resolveWith, classify_miscounted _ _ _ _ hf hcount,
        classify_miscounted _ _ _ _ hf hcount', length_readAllTexts]
      exact .error (.refl _)
    | @callableOther first hparams hellipsis result =>
      have hsource : ∀ text, first ≠ source text := by
        rintro text rfl
        exact h.notParams text result .here
      obtain ⟨found, hfound⟩ : ∃ found, (applied "Callable" [first.readTexts,
          result.readTexts]).resolveWith join s var = .error (.callableParams found) :=
        resolveWith_callableOther hparams hellipsis hsource result.readTexts
      rw [readTexts, readAllTexts, readAllTexts, readAllTexts, hfound, resolveWith,
        classify_callableOther _ _ _ _ hparams hellipsis]
      exact .error (.callableParams _ _)

theorem classifyAll_readAllTexts : ∀ es : List TypeExpr, (∀ e ∈ es, Legible e) →
    RelatedBy SameKind Eq (classifyAll join s var (classifyText join s var) es)
      (classifyAll join s var (classifyText join s var) (readAllTexts es))
  | [], _ => .ok rfl
  | e :: es, h => by
    obtain ⟨he, hes⟩ := List.forall_mem_cons.1 h
    rw [readAllTexts, classifyAll, classifyAll]
    exact (resolveWith_readTexts e he).bind fun _ _ hd =>
      (classifyAll_readAllTexts es hes).bind fun _ _ hs => .ok (hd ▸ hs ▸ rfl)
end

end Legible

/-! ## Text in the way -/

theorem exists_error {ε α : Type} {x : Except ε α} (h : ∀ a, x ≠ .ok a) :
    ∃ err, x = .error err := by
  rcases x with err | a
  · exact ⟨err, rfl⟩
  · exact absurd rfl (h a)

section Refused

variable {s : Scope} {e : TypeExpr} {d : Descriptor} {text : String}

theorem argFormed_of_resolve {p : TypeExpr} (h : e.resolve s = .ok d) (hp : Occurs p e) :
    ArgFormed s [] p :=
  .part (.type ((resolves_iff_wellFormed s e).1 ⟨d, h⟩)) hp

theorem parse_of_resolve (h : e.resolve s = .ok d) (ht : Occurs (source text) e) :
    ∃ e', parse text = .ok e' := by
  cases argFormed_of_resolve h ht with
  | type h =>
    cases h with
    | source read _ => exact ⟨_, read⟩

theorem not_occurs_callable_source (h : e.resolve s = .ok d) (rest : List TypeExpr) :
    ¬ Occurs (applied "Callable" (source text :: rest)) e := by
  intro hocc
  cases argFormed_of_resolve h hocc with
  | type h =>
    generalize hhead : "Callable" = head at h
    cases h with
    | one hmem => simp [← hhead] at hmem
    | several hmem => simp [← hhead] at hmem
    | dict => exact absurd hhead (by decide)

end Refused

/-- Text stands for what is read from it. Where all text can be read and none stands for the
parameters of a `Callable`, an expression resolves to the same descriptor as with its texts read
beforehand, or both fail with errors that differ only in what they quote. Text that cannot be read,
and text as the first argument of a `Callable`, whatever it says, leaves no descriptor. -/
theorem text_stands_for_its_reading (s : Scope) (e : TypeExpr) :
    ((∀ text, Occurs (source text) e → ∃ e', parse text = .ok e') →
      (∀ text result, ¬ Occurs (applied "Callable" [source text, result]) e) →
        (∀ d, e.resolve s = .ok d ↔ e.readTexts.resolve s = .ok d) ∧
        ((∀ d, e.resolve s ≠ .ok d) → ∃ err err', e.resolve s = .error err ∧
          e.readTexts.resolve s = .error err' ∧ SameKind err err')) ∧
    (∀ text, Occurs (source text) e → (∀ e', parse text ≠ .ok e') →
      ∃ err, e.resolve s = .error err) ∧
    ∀ text rest, Occurs (applied "Callable" (source text :: rest)) e →
      ∃ err, e.resolve s = .error err := by
  refine ⟨fun hreads hparams => ?_, fun text ht hread => ?_, fun text rest hc => ?_⟩
  · have h : RelatedBy SameKind Eq (e.resolve s) (e.readTexts.resolve s) :=
      resolveWith_readTexts e ⟨hreads, hparams⟩
    generalize e.resolve s = r, e.readTexts.resolve s = r' at h
    cases h with
    | ok h => simp [h]
    | error h => exact ⟨by simp, fun _ => ⟨_, _, rfl, rfl, h⟩⟩
  · refine exists_error fun d hd => ?_
    obtain ⟨e', he'⟩ := parse_of_resolve hd ht
    exact hread e' he'
  · exact exists_error fun d hd => not_occurs_callable_source hd rest hc

/-- `Dict[Int, Callable[[Int | None], B]]` with a bound for `B`, in texts but for its outer forms -/
def textCallable : TypeExpr :=
  applied "Dict" [source "Int", applied "Callable"
    [params [source "Int | None"], boundedVar "B" (source "List[Int]")]]

theorem textCallable_texts {text : String} (h : Occurs (source text) textCallable) :
    text ∈ ["Int", "Int | None", "List[Int]"] := by
  simpa [textCallable, occurs_applied, occurs_params, occurs_boundedVar, occurs_source] using h

/-- The texts of `textCallable` may be read beforehand. A list in which one text breaks off has no
descriptor, and neither has a type whose parameter list is text. -/
theorem textCallable_resolves_as_read :
    let int := Descriptor.nominal (.builtin .int)
    let d := Descriptor.dictOf int
      (.callable [.union [int, .none]] (.boundedVar "B" (.listOf int)))
    textCallable.readTexts.resolve .builtins = .ok d ∧ textCallable.resolve .builtins = .ok d ∧
      (∃ err, (applied "Tuple" [name "Int", source "List["]).resolve .builtins = .error err) ∧
      ∃ err, (applied "List" [applied "Callable" [source "[Int]", name "Int"]]).resolve .builtins =
        .error err := by
  intro int d
  have hread : textCallable.readTexts.resolve .builtins = .ok d := rfl
  have hreads : ∀ text, Occurs (source text) textCallable → ∃ e', parse text = .ok e' := by
    intro text ht
    have hmem := textCallable_texts ht
    simp only [List.mem_cons, List.not_mem_nil, or_false] at hmem
    rcases hmem with rfl | rfl | rfl <;> exact ⟨_, rfl⟩
  have hparams : ∀ text result,
      ¬ Occurs (applied "Callable" [source text, result]) textCallable := by
    intro text result hocc
    simp [textCallable, occurs_applied, occurs_params, occurs_boundedVar, occurs_source] at hocc
  refine ⟨hread, ?_, ?_, ?_⟩
  · exact (((text_stands_for_its_reading .builtins textCallable).1 hreads hparams).1 d).2 hread
  · refine (text_stands_for_its_reading .builtins _).2.1 "List[" (occurs_arg (by simp)) ?_
    intro e' he'
    cases he'
  · exact (text_stands_for_its_reading .builtins _).2.2 "[Int]" [name "Int"] (occurs_arg (by simp))

end TypeExpr

end CallGuard
