import Mathlib.Data.List.Forall2

/-!
# Lists

What the other modules use of lists and what the library does not have: removing repetitions, trying
alternatives in order, computing element by element with the first error as the result, and runs of
elements of a class.
-/

namespace List

/-! ## Repetitions -/

section Repetitions

variable {α : Type} [DecidableEq α]

/-- The induction that removing repetitions follows: after the first element, only those that differ
from it are left. -/
theorem eraseDups_induction {motive : List α → Prop} (nil : motive [])
    (cons : ∀ a l, motive (l.filter fun b => !b == a) → motive (a :: l)) (l : List α) :
    motive l := by
  induction hn : l.length using Nat.strongRecOn generalizing l with
  | _ n ih =>
    cases l with
    | nil => exact nil
    | cons a l =>
      have hlt : (l.filter fun b => !b == a).length < n := by
        have := length_filter_le (fun b => !b == a) l
        simp only [length_cons] at hn
        omega
      exact cons a l (ih _ hlt _ rfl)

theorem nodup_eraseDups (l : List α) : l.eraseDups.Nodup := by
  induction l using eraseDups_induction with
  | nil => simp
  | cons a l ih =>
    rw [eraseDups_cons, nodup_cons, mem_eraseDups]
    exact ⟨by simp, ih⟩

/-- After `before`, only what does not occur there counts. -/
theorem eraseDups_append_congr {before l l' : List α}
    (h : l.removeAll before = l'.removeAll before) :
    (before ++ l).eraseDups = (before ++ l').eraseDups := by
  rw [eraseDups_append, eraseDups_append, h]

theorem eraseDups_append_of_subset {before again : List α} (h : again ⊆ before) (after : List α) :
    (before ++ (again ++ after)).eraseDups = (before ++ after).eraseDups := by
  refine eraseDups_append_congr ?_
  have hagain : again.removeAll before = [] := by
    rw [removeAll, filter_eq_nil_iff]
    intro a ha
    simp [h ha]
  rw [removeAll, filter_append]
  exact (congrArg (· ++ _) hagain).trans (nil_append _)

theorem eraseDups_append_filter {before : List α} {a : α} (ha : a ∈ before) (l after : List α) :
    (before ++ ((l.filter fun b => !b == a) ++ after)).eraseDups =
      (before ++ (l ++ after)).eraseDups := by
  refine eraseDups_append_congr ?_
  have hfilter : ∀ b ∈ l, (!before.elem b && !b == a) = !before.elem b := by
    intro b _
    by_cases hb : b = a
    · simp [hb, ha]
    · simp [hb]
  rw [removeAll, removeAll, filter_append, filter_append, filter_filter, filter_congr hfilter]

theorem eraseDups_append_eraseDups (group after before : List α) :
    (before ++ (group.eraseDups ++ after)).eraseDups = (before ++ (group ++ after)).eraseDups := by
  induction group using eraseDups_induction generalizing before with
  | nil => rw [eraseDups_nil]
  | cons a l ih =>
    -- The first of the group is in front of the rest, where it need not come again.
    rw [eraseDups_cons, cons_append, append_cons, ih, eraseDups_append_filter (by simp),
      ← append_cons, cons_append]

end Repetitions

/-! ## Alternatives in order -/

section Alternatives

variable {ε α : Type} {f : α → Except ε Bool}

theorem anyM_append (as bs : List α) :
    (as ++ bs).anyM f = (do if ← as.anyM f then return true else bs.anyM f) := by
  induction as with
  | nil => rfl
  | cons a as ih =>
    rw [cons_append, anyM_cons, anyM_cons, ih]
    rcases f a with m | b
    · rfl
    · cases b <;> rfl

theorem anyM_singleton (a : α) : [a].anyM f = f a := by
  rw [anyM_cons, anyM_nil]
  rcases f a with m | b
  · rfl
  · cases b <;> rfl

theorem anyM_flatMap {g : α → List α} (hg : ∀ a, (g a).anyM f = f a) (l : List α) :
    (l.flatMap g).anyM f = l.anyM f := by
  induction l with
  | nil => rfl
  | cons a l ih => rw [flatMap_cons, anyM_append, hg, ih, anyM_cons]

variable [DecidableEq α]

theorem anyM_filter_ne {a : α} (ha : f a = .ok false) (l : List α) :
    (l.filter fun b => !b == a).anyM f = l.anyM f := by
  induction l with
  | nil => rfl
  | cons b l ih =>
    by_cases hb : b = a
    · have hskip : (b :: l).anyM f = l.anyM f := by
        rw [anyM_cons, hb, ha]
        rfl
      rw [filter_cons_of_neg (by simp [hb]), ih, hskip]
    · rw [filter_cons_of_pos (by simp [hb]), anyM_cons, anyM_cons, ih]

/-- An alternative that comes again is asked only if it said no before. -/
theorem anyM_eraseDups (l : List α) : l.eraseDups.anyM f = l.anyM f := by
  induction l using eraseDups_induction with
  | nil => rw [eraseDups_nil]
  | cons a l ih =>
    rw [eraseDups_cons, anyM_cons, anyM_cons, ih]
    rcases ha : f a with m | b
    · rfl
    · cases b
      · exact anyM_filter_ne ha l
      · rfl

end Alternatives

/-! ## One result for each element -/

section Results

variable {ε α β : Type} {f : α → Except ε β}

theorem mapM_eq_ok_iff {as : List α} {bs : List β} :
    as.mapM f = .ok bs ↔ Forall₂ (fun a b => f a = .ok b) as bs := by
  induction as generalizing bs with
  | nil =>
    rw [mapM_nil, forall₂_nil_left_iff]
    exact ⟨fun h => (Except.ok.inj h).symm, fun h => congrArg Except.ok h.symm⟩
  | cons a as ih =>
    rw [mapM_cons, forall₂_cons_left_iff]
    constructor
    · intro h
      rcases ha : f a with e | b <;> rw [ha] at h
      · cases h
      rcases has : as.mapM f with e | bs' <;> rw [has] at h
      · cases h
      cases h
      exact ⟨b, bs', rfl, ih.1 has, rfl⟩
    · rintro ⟨b, bs', hb, hrest, rfl⟩
      rw [hb, ih.2 hrest]
      rfl

/-- The first error is the result. -/
theorem mapM_eq_error_iff {as : List α} {e : ε} :
    as.mapM f = .error e ↔ ∃ before a after, as = before ++ a :: after ∧ f a = .error e ∧
      ∀ x ∈ before, ∃ b, f x = .ok b := by
  induction as with
  | nil => simp [pure, Except.pure]
  | cons a as ih =>
    rw [mapM_cons]
    constructor
    · intro h
      rcases ha : f a with e' | b <;> rw [ha] at h
      · cases h
        exact ⟨[], a, as, rfl, ha, by simp⟩
      rcases has : as.mapM f with e' | bs <;> rw [has] at h
      · cases h
        obtain ⟨before, x, after, rfl, hx, hbefore⟩ := ih.1 has
        exact ⟨a :: before, x, after, rfl, hx, forall_mem_cons.2 ⟨⟨b, ha⟩, hbefore⟩⟩
      · cases h
    · rintro ⟨before, x, after, heq, hx, hbefore⟩
      rcases before with _ | ⟨y, before⟩ <;> cases heq
      · rw [hx]
        rfl
      · obtain ⟨⟨b, hb⟩, hbefore⟩ := forall_mem_cons.1 hbefore
        rw [hb, ih.2 ⟨before, x, after, rfl, hx, hbefore⟩]
        rfl

theorem mem_of_mapM {as : List α} {bs : List β} (h : as.mapM f = .ok bs) :
    (∀ a ∈ as, ∃ b ∈ bs, f a = .ok b) ∧ ∀ b ∈ bs, ∃ a ∈ as, f a = .ok b := by
  rw [mapM_eq_ok_iff] at h
  induction h with
  | nil => simp
  | @cons a b as bs hab _ ih =>
    constructor
    · rintro x (_ | ⟨_, hx⟩)
      · exact ⟨b, mem_cons_self, hab⟩
      · obtain ⟨y, hy, hxy⟩ := ih.1 x hx
        exact ⟨y, mem_cons_of_mem _ hy, hxy⟩
    · rintro y (_ | ⟨_, hy⟩)
      · exact ⟨a, mem_cons_self, hab⟩
      · obtain ⟨x, hx, hxy⟩ := ih.2 y hy
        exact ⟨x, mem_cons_of_mem _ hx, hxy⟩

end Results

/-! ## Elements of a class -/

section Class

variable {α : Type}

theorem filter_eraseP_eq_tail (p : α → Bool) (l : List α) :
    (l.eraseP p).filter p = (l.filter p).tail := by
  induction l with
  | nil => rfl
  | cons a l ih =>
    rcases h : p a with _ | _
    · simp [h, ih]
    · simp [h]

theorem any_eraseP_not (p : α → Bool) (l : List α) :
    ((l.eraseP fun a => !p a).any p) = l.any p := by
  induction l with
  | nil => rfl
  | cons a l ih =>
    rcases h : p a with _ | _
    · simp [h]
    · simp [h]

theorem dropWhile_eq_self_of_head? {p : α → Bool} {l : List α} (h : ∀ a ∈ l.head?, p a = false) :
    l.dropWhile p = l := by
  rcases l with _ | ⟨a, l⟩
  · rfl
  · exact dropWhile_cons_of_neg (by simp [h a rfl])

theorem eq_false_of_mem_head?_dropWhile {p : α → Bool} {l : List α} {a : α}
    (h : a ∈ (l.dropWhile p).head?) : p a = false := by
  have hhead := head?_dropWhile_not p l
  rw [Option.mem_def.1 h] at hhead
  exact hhead

/-- Two lists that agree, each a run of elements of a class and then a rest that does not go on with
the class, agree run by run. -/
theorem append_inj_of_class {P : α → Prop} {x y : List α} (hx : ∀ a ∈ x.head?, ¬ P a)
    (hy : ∀ a ∈ y.head?, ¬ P a) {as bs : List α} (has : ∀ a ∈ as, P a) (hbs : ∀ b ∈ bs, P b)
    (h : as ++ x = bs ++ y) : as = bs ∧ x = y := by
  induction as generalizing bs with
  | nil =>
    rcases bs with _ | ⟨b, bs⟩
    · exact ⟨rfl, h⟩
    · have hb : b ∈ x.head? := by simp [show x = b :: (bs ++ y) from h]
      exact absurd (hbs b mem_cons_self) (hx b hb)
  | cons a as ih =>
    rcases bs with _ | ⟨b, bs⟩
    · have ha : a ∈ y.head? := by simp [show y = a :: (as ++ x) from h.symm]
      exact absurd (has a mem_cons_self) (hy a ha)
    · simp only [cons_append, cons.injEq] at h
      obtain ⟨rfl, h⟩ := h
      obtain ⟨rfl, rfl⟩ := ih (forall_mem_cons.1 has).2 (forall_mem_cons.1 hbs).2 h
      exact ⟨rfl, rfl⟩

end Class

theorem getD_map_map {α : Type} (f : α → α) (ls : List (List α)) (i : Nat) :
    (ls.map (map f)).getD i [] = (ls.getD i []).map f := by
  rw [getD_eq_getElem?_getD, getD_eq_getElem?_getD, getElem?_map]
  cases ls[i]? <;> rfl

end List
