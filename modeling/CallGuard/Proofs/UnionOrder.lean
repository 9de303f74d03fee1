import CallGuard.Proofs.Extent
import CallGuard.Proofs.Matching

/-!
# The order of a union's members

The members of a union are tried in order, and `NoReturn` is met or not depending on what comes
before it, so the order of members decides whether a match answers. It never decides what it
answers: descriptors that differ only in the order of members have the same extent
(`Reordered.sameExtent`), and a match that answers is right about the extent.
-/

namespace CallGuard.Descriptor

/-- The second descriptor is the first with the members of any of its unions put in another order,
at any depth. -/
inductive Reordered : Descriptor → Descriptor → Prop
  | refl (d : Descriptor) : Reordered d d
  | union {ds es fs : List Descriptor} (h : List.Forall₂ Reordered ds es) (hperm : es.Perm fs) :
    Reordered (union ds) (union fs)
  | listOf {d e : Descriptor} (h : Reordered d e) : Reordered (listOf d) (listOf e)
  | tuple {ds es : List Descriptor} (h : List.Forall₂ Reordered ds es) :
    Reordered (tuple ds) (tuple es)
  | dictOf {k l d e : Descriptor} (hk : Reordered k l) (h : Reordered d e) :
    Reordered (dictOf k d) (dictOf l e)
  | boundedVar {d e : Descriptor} (n : String) (h : Reordered d e) :
    Reordered (boundedVar n d) (boundedVar n e)
  | typeRefTo {d e : Descriptor} (h : Reordered d e) : Reordered (typeRefTo d) (typeRefTo e)
  | callable {ds es : List Descriptor} {d e : Descriptor} (hs : List.Forall₂ Reordered ds es)
    (h : Reordered d e) : Reordered (callable ds d) (callable es e)

/-! ## Descriptors of the same extent -/

theorem typeExtents_eq_map (ds : List Descriptor) : typeExtents ds = ds.map typeExtent := by
  induction ds with
  | nil => rfl
  | cons d ds ih => rw [typeExtents, ih, List.map_cons]

theorem extents_eq_map (rule : TypeRefRule) (ds : List Descriptor) :
    extents rule ds = ds.map (extent rule) := by
  induction ds with
  | nil => rfl
  | cons d ds ih => rw [extents, ih, List.map_cons]

theorem allNoReturnFree_iff (ds : List Descriptor) :
    AllNoReturnFree ds ↔ ∀ d ∈ ds, d.NoReturnFree := by
  induction ds with
  | nil => simp [AllNoReturnFree]
  | cons d ds ih => rw [AllNoReturnFree, ih, List.forall_mem_cons]

/-- The same types and the same values belong to both, and `NoReturn` is to be reached in both or
in neither. -/
structure SameExtent (d e : Descriptor) : Prop where
  free : d.NoReturnFree ↔ e.NoReturnFree
  types : d.typeExtent = e.typeExtent
  values : ∀ rule, d.extent rule = e.extent rule

namespace SameExtent

variable {k l d e : Descriptor} {ds es fs : List Descriptor}

theorem refl (d : Descriptor) : SameExtent d d := ⟨.rfl, rfl, fun _ => rfl⟩

theorem listOf (h : SameExtent d e) : SameExtent (listOf d) (listOf e) where
  free := by rw [NoReturnFree, NoReturnFree, h.free]
  types := by rw [typeExtent, typeExtent]
  values rule := by rw [extent, extent, h.values]

theorem dictOf (hk : SameExtent k l) (h : SameExtent d e) :
    SameExtent (dictOf k d) (dictOf l e) where
  free := by rw [NoReturnFree, NoReturnFree, hk.free, h.free]
  types := by rw [typeExtent, typeExtent]
  values rule := by rw [extent, extent, hk.values, h.values]

theorem boundedVar (n : String) (h : SameExtent d e) :
    SameExtent (boundedVar n d) (boundedVar n e) where
  free := by rw [NoReturnFree, NoReturnFree, h.free]
  types := by rw [typeExtent, typeExtent, h.types]
  values rule := by rw [extent, extent, h.values]

theorem typeRefTo (h : SameExtent d e) : SameExtent (typeRefTo d) (typeRefTo e) where
  free := by rw [NoReturnFree, NoReturnFree, h.free]
  types := by rw [typeExtent, typeExtent]
  values rule := by rw [extent, extent, h.types, h.values]

theorem callable (ds es : List Descriptor) (d e : Descriptor) :
    SameExtent (callable ds d) (callable es e) where
  free := by rw [NoReturnFree, NoReturnFree]
  types := by rw [typeExtent, typeExtent]
  values rule := by rw [extent, extent]

theorem map_eq {α : Type} {f : Descriptor → α} (hf : ∀ d e, SameExtent d e → f d = f e)
    (h : List.Forall₂ SameExtent ds es) : ds.map f = es.map f := by
  induction h with
  | nil => rfl
  | cons h _ ih => rw [List.map_cons, List.map_cons, hf _ _ h, ih]

theorem allNoReturnFree (h : List.Forall₂ SameExtent ds es) :
    AllNoReturnFree ds ↔ AllNoReturnFree es := by
  induction h with
  | nil => exact .rfl
  | cons h _ ih => rw [AllNoReturnFree, AllNoReturnFree, h.free, ih]

theorem tuple (h : List.Forall₂ SameExtent ds es) : SameExtent (tuple ds) (tuple es) where
  free := by rw [NoReturnFree, NoReturnFree, allNoReturnFree h]
  types := by rw [typeExtent, typeExtent]
  values rule := by
    cases h with
    | nil => rfl
    | cons h hs =>
      rw [extent, extent, h.values, extents_eq_map, extents_eq_map,
        map_eq (fun _ _ h => h.values rule) hs]

/-- A union asks whether one of its members does, in no matter which order. -/
theorem union (h : List.Forall₂ SameExtent ds es) (hperm : es.Perm fs) :
    SameExtent (union ds) (union fs) where
  free := by
    rw [NoReturnFree, NoReturnFree, allNoReturnFree h, allNoReturnFree_iff, allNoReturnFree_iff]
    exact forall_congr' fun d => imp_congr_left hperm.mem_iff
  types := by
    rw [typeExtent, typeExtent, typeExtents_eq_map, typeExtents_eq_map,
      map_eq (fun _ _ h => h.types) h]
    simp only [(hperm.map typeExtent).mem_iff]
  values rule := by
    rw [extent, extent, extents_eq_map, extents_eq_map, map_eq (fun _ _ h => h.values rule) h]
    simp only [(hperm.map (extent rule)).mem_iff]

end SameExtent

mutual
theorem Reordered.sameExtent : ∀ {d e : Descriptor}, Reordered d e → SameExtent d e
  | _, _, .refl d => .refl d
  | _, _, .union h hperm => .union (forall₂_sameExtent h) hperm
  | _, _, .listOf h => h.sameExtent.listOf
  | _, _, .tuple h => .tuple (forall₂_sameExtent h)
  | _, _, .dictOf hk h => hk.sameExtent.dictOf h.sameExtent
  | _, _, .boundedVar n h => h.sameExtent.boundedVar n
  | _, _, .typeRefTo h => h.sameExtent.typeRefTo
  | _, _, .callable _ _ => .callable _ _ _ _

theorem forall₂_sameExtent : ∀ {ds es : List Descriptor}, List.Forall₂ Reordered ds es →
    List.Forall₂ SameExtent ds es
  | _, _, .nil => .nil
  | _, _, .cons h hs => .cons h.sameExtent (forall₂_sameExtent hs)
end

theorem SameExtent.eq_of_ok {d e : Descriptor} {rule : TypeRefRule} {v : Value} {b c : Bool}
    (h : SameExtent d e) (hb : d.accepts rule v = .ok b) (hc : e.accepts rule v = .ok c) :
    b = c := by
  have hd := (accepts_answers rule d v).right b hb
  have he := (accepts_answers rule e v).right c hc
  rw [h.values] at hd
  exact Bool.eq_iff_iff.2 (hd.trans he.symm)

/-- The order of the members of unions never turns a yes into a no. If `NoReturn` is nowhere to be
reached it changes nothing, and otherwise it can only make the difference between an answer and
having reached `NoReturn`. -/
theorem union_order_keeps_verdict (rule : TypeRefRule) (d e : Descriptor) (v : Value)
    (h : Reordered d e) :
    (∀ b c, d.accepts rule v = .ok b → e.accepts rule v = .ok c → b = c) ∧
    (d.NoReturnFree → d.accepts rule v = e.accepts rule v) ∧
    (d.accepts rule v = e.accepts rule v ∨
      (∃ b, d.accepts rule v = .ok b ∧ e.accepts rule v = .error .noReturnMatched) ∨
      (∃ c, d.accepts rule v = .error .noReturnMatched ∧ e.accepts rule v = .ok c)) := by
  have hsame := h.sameExtent
  refine ⟨fun b c => hsame.eq_of_ok, fun hfree => ?_, ?_⟩
  · obtain ⟨b, hb⟩ := (accepts_answers rule d v).answered hfree
    obtain ⟨c, hc⟩ := (accepts_answers rule e v).answered (hsame.free.1 hfree)
    rw [hb, hc, hsame.eq_of_ok hb hc]
  · rcases hd : d.accepts rule v with m | b <;> rcases he : e.accepts rule v with m' | c
    · rw [accepts_error hd, accepts_error he]
      exact .inl rfl
    · rw [accepts_error hd]
      exact .inr (.inr ⟨c, rfl, rfl⟩)
    · rw [accepts_error he]
      exact .inr (.inl ⟨b, rfl, rfl⟩)
    · rw [hsame.eq_of_ok hd he]
      exact .inl rfl

/-- `Tuple[Type[Union[None, Int]], Union[Callable[[], NoReturn], List[Union[Int, NoReturn]]]]` -/
def orderedPair : Descriptor :=
  .tuple [.typeRefTo (.union [.none, .nominal (.builtin .int)]),
    .union [.callable [] .noReturn, .listOf (.union [.nominal (.builtin .int), .noReturn])]]

/-- The same with the members of every union in reverse. -/
def reversedPair : Descriptor :=
  .tuple [.typeRefTo (.union [.nominal (.builtin .int), .none]),
    .union [.listOf (.union [.noReturn, .nominal (.builtin .int)]), .callable [] .noReturn]]

theorem reversedPair_keeps_verdict :
    (orderedPair.accepts .subtype (.tuple [.type (.builtin .bool), .list [.int 1]]) = .ok true ∧
      reversedPair.accepts .subtype (.tuple [.type (.builtin .bool), .list [.int 1]]) ≠
        .ok false) ∧
    ∀ v, (union [.none, .nominal (.builtin .int)]).accepts .legacy v =
      (union [.nominal (.builtin .int), .none]).accepts .legacy v := by
  have hpair : ∀ {a b c d : Descriptor}, Reordered a b → Reordered c d →
      Reordered (union [a, c]) (union [d, b]) :=
    fun hab hcd => .union (.cons hab (.cons hcd .nil)) (.swap _ _ _)
  have hreordered : Reordered orderedPair reversedPair :=
    .tuple (.cons (.typeRefTo (hpair (.refl _) (.refl _)))
      (.cons (hpair (.refl _) (.listOf (hpair (.refl _) (.refl _)))) .nil))
  have hyes : orderedPair.accepts .subtype
      (.tuple [.type (.builtin .bool), .list [.int 1]]) = .ok true := rfl
  refine ⟨⟨hyes, fun hno => ?_⟩, fun v => ?_⟩
  · cases (union_order_keeps_verdict .subtype _ _ _ hreordered).1 true false hyes hno
  · exact (union_order_keeps_verdict .legacy _ _ v (hpair (.refl _) (.refl _))).2.1
      (by simp [NoReturnFree, AllNoReturnFree])

end CallGuard.Descriptor
