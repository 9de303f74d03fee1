/-!
# Finite maps

An `OrderedMap` keeps its entries in the order of their keys, so listing it is listing its entries,
every key has at most one of them, and maps that hold the same are equal.
-/

namespace CallGuard

/-- An order in which one of two different keys comes before the other. -/
class KeyOrder {κ : Type} (before : κ → κ → Prop) : Prop extends
    Std.Irrefl before, Std.Trichotomous before where
  trans {i j k : κ} : before i j → before j k → before i k

/-- A finite map, held as its entries with every key before the keys of later entries. -/
structure OrderedMap {κ : Type} (before : κ → κ → Prop) (α : Type) where
  entries : List (κ × α)
  sorted : entries.Pairwise (fun a b => before a.1 b.1)

namespace OrderedMap

variable {κ α β : Type} {before : κ → κ → Prop}

/-- The map without entries. -/
def empty : OrderedMap before α := ⟨[], .nil⟩

instance : Inhabited (OrderedMap before α) := ⟨empty⟩

/-- How many keys the map holds. -/
def size (m : OrderedMap before α) : Nat := m.entries.length

/-- The map with every value replaced by a function of its key and itself. -/
def map (f : κ → α → β) (m : OrderedMap before α) : OrderedMap before β :=
  ⟨m.entries.map fun e => (e.1, f e.1 e.2), List.pairwise_map.2 m.sorted⟩

variable [DecidableEq κ]

/-- What the map holds under `k`. -/
def get? (m : OrderedMap before α) (k : κ) : Option α :=
  m.entries.lookup k

theorem lookup_cons (j : κ) (w : α) (rest : List (κ × α)) (x : κ) :
    ((j, w) :: rest).lookup x = if x = j then some w else rest.lookup x := by
  rw [List.lookup_cons]
  by_cases h : x = j
  · simp [h]
  · have hx : (x == j) = false := by simpa using h
    simp [h, hx]

theorem lookup_map (f : κ → α → β) (x : κ) (l : List (κ × α)) :
    (l.map fun e => (e.1, f e.1 e.2)).lookup x = (l.lookup x).map (f x) := by
  induction l with
  | nil => rfl
  | cons e rest ih =>
    obtain ⟨j, w⟩ := e
    rw [List.map_cons, lookup_cons, lookup_cons]
    split
    · rename_i h
      rw [h, Option.map_some]
    · exact ih

@[simp] theorem get?_map (f : κ → α → β) (m : OrderedMap before α) (x : κ) :
    (m.map f).get? x = (m.get? x).map (f x) :=
  lookup_map f x m.entries

/-! ## Insertion -/

/-- Puts `v` under `k`, in the place that the order gives it. -/
def insertEntry (before : κ → κ → Prop) [DecidableRel before] (k : κ) (v : α) :
    List (κ × α) → List (κ × α)
  | [] => [(k, v)]
  | e :: rest =>
    if before k e.1 then (k, v) :: e :: rest
    else if k = e.1 then (k, v) :: rest
    else e :: insertEntry before k v rest

section Insertion

variable [DecidableRel before]

theorem mem_insertEntry {k : κ} {v : α} {x : κ × α} :
    ∀ {l : List (κ × α)}, x ∈ insertEntry before k v l → x = (k, v) ∨ x ∈ l
  | [], h => by simpa [insertEntry] using h
  | e :: rest, h => by
    rw [insertEntry] at h
    split at h
    · simpa using h
    · split at h
      · rcases List.mem_cons.1 h with h | h
        · exact .inl h
        · exact .inr (List.mem_cons_of_mem _ h)
      · rcases List.mem_cons.1 h with h | h
        · exact .inr (h ▸ List.mem_cons_self)
        · exact (mem_insertEntry h).imp id (List.mem_cons_of_mem _)

theorem lookup_insertEntry (k : κ) (v : α) (x : κ) :
    ∀ l : List (κ × α),
      (insertEntry before k v l).lookup x = if x = k then some v else l.lookup x
  | [] => by rw [insertEntry, lookup_cons]
  | (j, w) :: rest => by
    have ih := lookup_insertEntry k v x rest
    rw [insertEntry]
    split
    · rw [lookup_cons]
    · split
      · rename_i hk
        rw [lookup_cons, lookup_cons]
        by_cases h : x = k
        · simp [h]
        · have hj : x ≠ j := fun hx => h (hx.trans hk.symm)
          simp [h, hj]
      · rename_i hne
        rw [lookup_cons, lookup_cons, ih]
        by_cases hj : x = j
        · have hx : x ≠ k := fun h => hne (h.symm.trans hj)
          rw [if_pos hj, if_neg hx, if_pos hj]
        · simp [hj]

theorem map_insertEntry (f : κ → α → β) (k : κ) (v : α) (l : List (κ × α)) :
    (insertEntry before k v l).map (fun e => (e.1, f e.1 e.2)) =
      insertEntry before k (f k v) (l.map fun e => (e.1, f e.1 e.2)) := by
  induction l with
  | nil => rfl
  | cons e rest ih =>
    rw [insertEntry, List.map_cons, insertEntry]
    split
    · rfl
    · split
      · rfl
      · rw [List.map_cons, ih]

variable [KeyOrder before]

theorem pairwise_insertEntry (k : κ) (v : α) :
    ∀ {l : List (κ × α)}, l.Pairwise (fun a b => before a.1 b.1) →
      (insertEntry before k v l).Pairwise (fun a b => before a.1 b.1)
  | [], _ => by simp [insertEntry]
  | e :: rest, h => by
    obtain ⟨he, hrest⟩ := List.pairwise_cons.1 h
    rw [insertEntry]
    split
    · rename_i hk
      refine List.pairwise_cons.2 ⟨fun x hx => ?_, h⟩
      rcases List.mem_cons.1 hx with rfl | hx
      · exact hk
      · exact KeyOrder.trans hk (he x hx)
    · split
      · rename_i hk
        exact List.pairwise_cons.2 ⟨fun x hx => hk ▸ he x hx, hrest⟩
      · rename_i hlt hne
        refine List.pairwise_cons.2 ⟨fun x hx => ?_, pairwise_insertEntry k v hrest⟩
        rcases mem_insertEntry hx with rfl | hx
        · exact Decidable.byContradiction fun hnot =>
            hne (Std.Trichotomous.trichotomous _ _ hlt hnot)
        · exact he x hx

/-- The map with `v` under `k`, in place of what stood there before. -/
def insert (m : OrderedMap before α) (k : κ) (v : α) : OrderedMap before α :=
  ⟨insertEntry before k v m.entries, pairwise_insertEntry k v m.sorted⟩

/-- After an insertion, the key that was inserted holds the new value and every other key what it
held before. -/
@[simp] theorem get?_insert (m : OrderedMap before α) (k : κ) (v : α) (x : κ) :
    (m.insert k v).get? x = if x = k then some v else m.get? x :=
  lookup_insertEntry k v x m.entries

theorem map_insert (f : κ → α → β) (m : OrderedMap before α) (k : κ) (v : α) :
    (m.insert k v).map f = (m.map f).insert k (f k v) :=
  OrderedMap.mk.injEq .. ▸ map_insertEntry f k v m.entries

end Insertion

/-! ## A map is what it holds -/

variable [KeyOrder before]

/-- What a map holds under a key is the entry of that key, since there is at most one. -/
theorem get?_eq_some_iff {m : OrderedMap before α} {x : κ} {v : α} :
    m.get? x = some v ↔ (x, v) ∈ m.entries := by
  obtain ⟨l, hl⟩ := m
  show l.lookup x = some v ↔ (x, v) ∈ l
  induction l with
  | nil => simp
  | cons e rest ih =>
    obtain ⟨j, u⟩ := e
    obtain ⟨hj, hrest⟩ := List.pairwise_cons.1 hl
    rw [lookup_cons]
    by_cases hx : x = j
    · subst hx
      have hne : (x, v) ∉ rest := fun h => Std.Irrefl.irrefl x (hj _ h)
      simp [hne, eq_comm]
    · simp [hx, ih hrest]

theorem map_eq_self_iff {f : κ → α → α} {m : OrderedMap before α} :
    m.map f = m ↔ ∀ x v, m.get? x = some v → f x v = v := by
  constructor
  · intro h x v hv
    have hx := get?_map f m x
    rw [h, hv, Option.map_some] at hx
    exact (Option.some.inj hx).symm
  · intro h
    have hentries : m.entries.map (fun e => (e.1, f e.1 e.2)) = m.entries := by
      refine (List.map_congr_left fun e he => ?_).trans (List.map_id' m.entries)
      rw [h e.1 e.2 (get?_eq_some_iff.2 he)]
    exact OrderedMap.mk.injEq .. ▸ hentries

variable (before) in
theorem lookup_eq_none {k : κ} {l : List (κ × α)} (h : ∀ e ∈ l, before k e.1) :
    l.lookup k = none := by
  induction l with
  | nil => rfl
  | cons e rest ih =>
    obtain ⟨j, u⟩ := e
    have hne : k ≠ j := by
      rintro rfl
      exact Std.Irrefl.irrefl k (h _ List.mem_cons_self)
    rw [lookup_cons, if_neg hne, ih fun e he => h e (List.mem_cons_of_mem _ he)]

/-- Of two lists of entries that hold the same under the first key of one, the other one does not
begin with a later key. -/
theorem not_before_of_lookup_eq {j j' : κ} {u u' : α} {rest rest' : List (κ × α)}
    (hrest' : ∀ e ∈ rest', before j' e.1)
    (h : ((j, u) :: rest).lookup j = ((j', u') :: rest').lookup j) : ¬ before j j' := by
  intro hj
  have hnone : ((j', u') :: rest').lookup j = none := by
    refine lookup_eq_none before fun e he => ?_
    rcases List.mem_cons.1 he with rfl | he
    · exact hj
    · exact KeyOrder.trans hj (hrest' e he)
  rw [hnone, lookup_cons, if_pos rfl] at h
  cases h

/-- Maps that hold the same under every key are equal. -/
theorem ext_get? {m m' : OrderedMap before α} (h : ∀ k, m.get? k = m'.get? k) : m = m' := by
  obtain ⟨l, hl⟩ := m
  obtain ⟨l', hl'⟩ := m'
  replace h : ∀ k, l.lookup k = l'.lookup k := h
  suffices l = l' by subst this; rfl
  induction l generalizing l' with
  | nil =>
    rcases l' with _ | ⟨⟨j', u'⟩, rest'⟩
    · rfl
    · simpa [lookup_cons] using h j'
  | cons e rest ih =>
    obtain ⟨j, u⟩ := e
    rcases l' with _ | ⟨⟨j', u'⟩, rest'⟩
    · simpa [lookup_cons] using h j
    · obtain ⟨hrest, hsorted⟩ := List.pairwise_cons.1 hl
      obtain ⟨hrest', hsorted'⟩ := List.pairwise_cons.1 hl'
      obtain rfl : j = j' := Std.Trichotomous.trichotomous j j'
        (not_before_of_lookup_eq hrest' (h j)) (not_before_of_lookup_eq hrest (h j').symm)
      obtain rfl : u = u' := by simpa [lookup_cons] using h j
      refine congrArg _ (ih hsorted rest' hsorted' fun k => ?_)
      by_cases hk : k = j
      · rw [hk, lookup_eq_none before hrest, lookup_eq_none before hrest']
      · simpa [lookup_cons, hk] using h k

end OrderedMap

/-- A finite map from names, listed in increasing name order. -/
abbrev NameMap (α : Type) := OrderedMap (fun a b : String => a < b) α

instance NameMap.keyOrder : KeyOrder fun a b : String => a < b where
  irrefl := String.lt_irrefl
  trans := String.lt_trans
  trichotomous _ _ h h' := String.le_antisymm (String.not_lt.1 h') (String.not_lt.1 h)

/-- The map that holds the given pairs, the last one of each name. -/
def NameMap.ofList {α : Type} (pairs : List (String × α)) : NameMap α :=
  pairs.foldl (fun m p => m.insert p.1 p.2) .empty

/-- A finite map from identities, listed with the latest identity first. -/
abbrev IdMap (α : Type) := OrderedMap (fun i j : Nat => j < i) α

instance IdMap.keyOrder : KeyOrder fun i j : Nat => j < i where
  irrefl := Nat.lt_irrefl
  trans h h' := Nat.lt_trans h' h
  trichotomous _ _ h h' := Nat.le_antisymm (Nat.not_lt.1 h) (Nat.not_lt.1 h')

end CallGuard
