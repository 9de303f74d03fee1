import CallGuard.Proofs.NormalForm

/-!
# How a union is written

The arguments of a union may be grouped into unions of their own and may be repeated. Joining keeps
of equal members the first, so what matters is only the order in which they come for the first time:
taking a group apart leaves it as it is, since the members of a group are those of its arguments
(`unionOf_group`), and so does coming again (`unionOf_again`). Arguments are resolved from left to
right and the first error is the result, which neither changes.
-/

namespace CallGuard

namespace Descriptor

/-! ## Joins -/

theorem unionOf_congr {ds ps : List Descriptor}
    (h : (ds.flatMap members).eraseDups = (ps.flatMap members).eraseDups) :
    unionOf ds = unionOf ps := by
  unfold unionOf
  rw [h]

/-- A join inside a join may be taken apart. -/
theorem unionOf_group {ys : List Descriptor} (h : ∀ d ∈ ys, d.Normal) (xs zs : List Descriptor) :
    unionOf (xs ++ unionOf ys :: zs) = unionOf (xs ++ ys ++ zs) := by
  refine unionOf_congr ?_
  rw [List.flatMap_append, List.flatMap_cons, members_unionOf h, List.eraseDups_append_eraseDups,
    List.append_assoc, List.flatMap_append, List.flatMap_append]

/-- What is joined again changes nothing. -/
theorem unionOf_again {xs : List Descriptor} {d : Descriptor} (h : d ∈ xs) (zs : List Descriptor) :
    unionOf (xs ++ d :: zs) = unionOf (xs ++ zs) := by
  refine unionOf_congr ?_
  rw [List.flatMap_append, List.flatMap_cons, List.flatMap_append]
  exact List.eraseDups_append_of_subset (fun m hm => List.mem_flatMap.2 ⟨d, h, hm⟩) _

end Descriptor

namespace TypeExpr

/-! ## Arguments in order -/

theorem classifyAll_eq_mapM (join : List Descriptor → Descriptor) (s : Scope)
    (var : String → Option TypeExpr → Except ResolveError Descriptor)
    (unread : String → Except ResolveError Descriptor) (es : List TypeExpr) :
    classifyAll join s var unread es = es.mapM (classify join s var unread) := by
  induction es with
  | nil => rfl
  | cons e es ih => rw [classifyAll, List.mapM_cons, ih]

section Resolve

variable {s : Scope}

theorem resolve_union {args : List TypeExpr} (h : args ≠ []) :
    (applied "Union" args).resolve s = (do return .unionOf (← args.mapM (resolve s))) := by
  obtain ⟨e, es, rfl⟩ := List.exists_cons_of_ne_nil h
  have hes : es.mapM (resolve s) = classifyAll .unionOf s _ _ es := (classifyAll_eq_mapM ..).symm
  rw [List.mapM_cons, hes]
  simp only [bind_assoc, pure_bind]
  rfl

theorem normal_of_mapM {es : List TypeExpr} {ds : List Descriptor}
    (h : es.mapM (resolve s) = .ok ds) : ∀ d ∈ ds, d.Normal := by
  intro d hd
  obtain ⟨e, -, he⟩ := (List.mem_of_mapM h).2 d hd
  exact normal_of_resolve he

/-- A union among the arguments of another may be taken apart. -/
theorem resolve_union_group (xs zs : List TypeExpr) {ys : List TypeExpr} (hys : ys ≠ []) :
    (applied "Union" (xs ++ applied "Union" ys :: zs)).resolve s =
      (applied "Union" (xs ++ ys ++ zs)).resolve s := by
  rw [resolve_union (by simp), resolve_union (by simp [hys]), List.mapM_append, List.mapM_append,
    List.mapM_append, List.mapM_cons, resolve_union hys]
  rcases xs.mapM (resolve s) with err | as
  · rfl
  rcases hbs : ys.mapM (resolve s) with err | bs
  · rfl
  rcases zs.mapM (resolve s) with err | cs
  · rfl
  exact congrArg Except.ok (Descriptor.unionOf_group (normal_of_mapM hbs) as cs)

/-- An argument that was there before may be left out. -/
theorem resolve_union_again {xs : List TypeExpr} {x : TypeExpr} (hx : x ∈ xs)
    (zs : List TypeExpr) :
    (applied "Union" (xs ++ x :: zs)).resolve s = (applied "Union" (xs ++ zs)).resolve s := by
  have hne : xs ≠ [] := List.ne_nil_of_mem hx
  rw [resolve_union (by simp), resolve_union (by simp [hne]), List.mapM_append, List.mapM_append,
    List.mapM_cons]
  rcases has : xs.mapM (resolve s) with err | as
  · rfl
  obtain ⟨d, hd, hxd⟩ := (List.mem_of_mapM has).1 x hx
  rw [hxd]
  rcases zs.mapM (resolve s) with err | cs
  · rfl
  exact congrArg Except.ok (Descriptor.unionOf_again hd cs)

/-- The second list is the first with further elements in any places, each of which came before: it
is among those `seen` or earlier in the list. -/
inductive Repeats {α : Type} : (seen : List α) → List α → List α → Prop
  | done {seen : List α} : Repeats seen [] []
  | keep {seen l l' : List α} (a : α) (h : Repeats (a :: seen) l l') :
    Repeats seen (a :: l) (a :: l')
  | again {seen l l' : List α} {a : α} (ha : a ∈ seen) (h : Repeats seen l l') :
    Repeats seen l (a :: l')

theorem resolve_union_repeats {seen zs zs' : List TypeExpr} (h : Repeats seen zs zs') :
    ∀ xs, seen ⊆ xs →
      (applied "Union" (xs ++ zs')).resolve s = (applied "Union" (xs ++ zs)).resolve s := by
  induction h with
  | done => exact fun _ _ => rfl
  | @keep seen l l' a _ ih =>
    intro xs hseen
    rw [List.append_cons, List.append_cons xs a l]
    refine ih (xs ++ [a]) (List.cons_subset.2 ⟨by simp, ?_⟩)
    exact List.subset_append_of_subset_left [a] hseen
  | again ha _ ih =>
    intro xs hseen
    rw [resolve_union_again (hseen ha)]
    exact ih xs hseen

theorem resolve_optional (x : TypeExpr) :
    (applied "Optional" [x]).resolve s = (applied "Union" [x, name "None"]).resolve s := by
  rw [resolve_union (by simp), List.mapM_cons, List.mapM_cons, List.mapM_nil]
  have hoptional : (applied "Optional" [x]).resolve s =
    (do return .unionOf [← x.resolve s, .none]) := rfl
  rw [hoptional]
  rcases x.resolve s with err | d <;> rfl

theorem resolve_optional_optional (x : TypeExpr) :
    (applied "Optional" [applied "Optional" [x]]).resolve s = (applied "Optional" [x]).resolve s :=
  calc (applied "Optional" [applied "Optional" [x]]).resolve s
      = (applied "Union" [applied "Optional" [x], name "None"]).resolve s := resolve_optional _
    _ = (applied "Union" [applied "Union" [x, name "None"], name "None"]).resolve s := by
      rw [resolve_union (by simp), resolve_union (by simp), List.mapM_cons, resolve_optional,
        List.mapM_cons (a := applied "Union" [x, name "None"])]
    _ = (applied "Union" [x, name "None", name "None"]).resolve s :=
      resolve_union_group [] [name "None"] (by simp)
    _ = (applied "Union" [x, name "None"]).resolve s :=
      resolve_union_again (show name "None" ∈ [x, name "None"] by simp) []
    _ = (applied "Optional" [x]).resolve s := (resolve_optional x).symm

end Resolve

/-- It does not matter how the arguments of a union are grouped, nor whether one comes again: the
result is the same descriptor with its members in the same order, or the same error. An `Optional`
is the union with `None`, and an `Optional` of it is the same again. -/
theorem union_grouping_and_repetition (s : Scope) :
    (∀ xs ys zs : List TypeExpr, ys ≠ [] →
      (applied "Union" (xs ++ applied "Union" ys :: zs)).resolve s =
        (applied "Union" (xs ++ ys ++ zs)).resolve s) ∧
    (∀ xs ys zs zs' : List TypeExpr, Repeats (xs ++ ys) zs zs' →
      (applied "Union" (xs ++ ys ++ zs')).resolve s =
        (applied "Union" (xs ++ ys ++ zs)).resolve s ∧
      (ys ≠ [] → (applied "Union" (xs ++ applied "Union" ys :: zs')).resolve s =
        (applied "Union" (xs ++ applied "Union" ys :: zs)).resolve s)) ∧
    (∀ x : TypeExpr,
      (applied "Optional" [x]).resolve s = (applied "Union" [x, name "None"]).resolve s) ∧
    ∀ x : TypeExpr,
      (applied "Optional" [applied "Optional" [x]]).resolve s =
        (applied "Optional" [x]).resolve s := by
  refine ⟨fun xs ys zs hys => resolve_union_group xs zs hys, fun xs ys zs zs' h => ?_,
    resolve_optional, resolve_optional_optional⟩
  have hrepeats := resolve_union_repeats (s := s) h (xs ++ ys) (List.Subset.refl _)
  refine ⟨hrepeats, fun hys => ?_⟩
  rw [resolve_union_group xs zs' hys, resolve_union_group xs zs hys, hrepeats]

/-- `Union[Int, Union[None, Int], Int, N, None]` and `Union[Int, None, Int, N]` resolve alike. -/
theorem groupedInts_resolve_as_listed :
    let written := applied "Union"
      [name "Int", applied "Union" [name "None", name "Int"], name "Int", name "N", name "None"]
    let listed := applied "Union" [name "Int", name "None", name "Int", name "N"]
    let int := Descriptor.nominal (.builtin .int)
    written.resolve textBoundScope = listed.resolve textBoundScope ∧
      listed.resolve textBoundScope =
        .ok (.union [int, .none, .boundedVar "N" (.union [int, .none])]) := by
  intro written listed int
  obtain ⟨hgroup, hrepeat, -⟩ := union_grouping_and_repetition textBoundScope
  have hrepeats : Repeats [name "Int", name "None", name "Int"] [name "N"]
      [name "Int", name "N", name "None"] :=
    .again (by simp) (.keep _ (.again (by simp) .done))
  refine ⟨?_, rfl⟩
  exact ((hrepeat [name "Int"] [name "None", name "Int"] _ _ hrepeats).2 (by simp)).trans
    (hgroup [name "Int"] [name "None", name "Int"] [name "N"] (by simp))

end TypeExpr

end CallGuard
