import CallGuard.Proofs.Classification
import CallGuard.Proofs.Lists

/-!
# Unions in normal form

Joining flattens one level only: it takes the members of a union into the one around it and does not
look inside them. That is enough, because the descriptors it joins come from resolution, and there
every union already has two members or more, none of them a union and no two of them equal
(`unionOf_normal`). Bounds and texts are resolved in the same way, so no union anywhere in what a
written type resolves to is of another form (`normal_of_resolve`).
-/

namespace CallGuard

namespace Descriptor

/-! ## Normal descriptors -/

/-- The descriptors that one is made of: members, elements, keys and values, parameters and results,
bounds and the arguments of `Type[...]`. -/
def parts : Descriptor → List Descriptor
  | union ds | tuple ds => ds
  | listOf d | boundedVar _ d | typeRefTo d => [d]
  | dictOf k v => [k, v]
  | callable ds d => ds ++ [d]
  | _ => []

/-- The descriptor `p` occurs in another one, at any depth. -/
inductive Occurs (p : Descriptor) : Descriptor → Prop
  | here : Occurs p p
  | part {q d : Descriptor} (hq : q ∈ d.parts) (h : Occurs p q) : Occurs p d

/-- The members of a union in normal form. -/
structure NormalMembers (ds : List Descriptor) : Prop where
  two : 2 ≤ ds.length
  flat : ∀ d ∈ ds, ∀ es, d ≠ union es
  nodup : ds.Nodup

/-- Every union that occurs in the descriptor is in normal form. -/
def Normal (d : Descriptor) : Prop :=
  ∀ ds, Occurs (union ds) d → NormalMembers ds

theorem Normal.part {p d : Descriptor} (h : d.Normal) (hp : p ∈ d.parts) : p.Normal :=
  fun ds hds => h ds (.part hp hds)

theorem normal_of_parts {d : Descriptor} (hd : ∀ ds, d = union ds → NormalMembers ds)
    (hparts : ∀ p ∈ d.parts, p.Normal) : d.Normal := by
  intro ds hocc
  cases hocc with
  | here => exact hd ds rfl
  | part hq h => exact hparts _ hq ds h

theorem normal_of_isAtom {d : Descriptor} (h : d.isAtom = true) : d.Normal := by
  have hparts : d.parts = [] := by
    cases d with
    | union | listOf | tuple | dictOf | boundedVar | typeRefTo | callable => cases h
    | _ => rfl
  refine normal_of_parts (fun ds hd => ?_) (by simp [hparts])
  subst hd
  cases h

theorem Normal.members_ne_nil {d : Descriptor} (h : d.Normal) : d.members ≠ [] := by
  cases d with
  | union ds =>
    intro hnil
    have htwo := (h ds .here).two
    rw [show ds = [] from hnil] at htwo
    simp at htwo
  | _ => simp [members]

/-- What a normal descriptor brings to a union is normal and no union. -/
theorem Normal.of_mem_members {d m : Descriptor} (h : d.Normal) (hm : m ∈ d.members) :
    m.Normal ∧ ∀ es, m ≠ union es := by
  cases d with
  | union ds => exact ⟨h.part hm, (h ds .here).flat m hm⟩
  | _ =>
    rw [members, List.mem_singleton] at hm
    · subst hm
      exact ⟨h, by simp⟩
    · simp

section Join

variable {ds : List Descriptor}

theorem of_mem_eraseDups_members (h : ∀ d ∈ ds, d.Normal) {m : Descriptor}
    (hm : m ∈ (ds.flatMap members).eraseDups) : m.Normal ∧ ∀ es, m ≠ union es := by
  rw [List.mem_eraseDups] at hm
  obtain ⟨d, hd, hm⟩ := List.mem_flatMap.1 hm
  exact (h d hd).of_mem_members hm

/-- A join of normal descriptors has the members that they bring, each once. -/
theorem members_unionOf (h : ∀ d ∈ ds, d.Normal) :
    (unionOf ds).members = (ds.flatMap members).eraseDups := by
  unfold unionOf
  split
  · rename_i d hd
    have hflat := (of_mem_eraseDups_members h (m := d) (by simp [hd])).2
    rw [hd]
    cases d with
    | union es => exact absurd rfl (hflat es)
    | _ => rfl
  · rfl

theorem unionOf_normal (hne : ds ≠ []) (h : ∀ d ∈ ds, d.Normal) : (unionOf ds).Normal := by
  have hnormal := fun m (hm : m ∈ (ds.flatMap members).eraseDups) => of_mem_eraseDups_members h hm
  have hsome : (ds.flatMap members).eraseDups ≠ [] := by
    obtain ⟨d, ds, rfl⟩ := List.exists_cons_of_ne_nil hne
    obtain ⟨m, ms, hm⟩ := List.exists_cons_of_ne_nil (h d List.mem_cons_self).members_ne_nil
    simp [hm, List.eraseDups_cons]
  have hnodup := List.nodup_eraseDups (ds.flatMap members)
  unfold unionOf
  split
  · rename_i d hd
    exact (hnormal d (by simp [hd])).1
  · rename_i hone
    refine normal_of_parts (fun es hes => ?_) fun m hm => (hnormal m hm).1
    cases hes
    refine ⟨?_, fun m hm => (hnormal m hm).2, hnodup⟩
    -- Neither no member nor one: the first is excluded by `hsome`, the second by the match.
    rcases hms : (ds.flatMap members).eraseDups with _ | ⟨m, _ | ⟨m', ms⟩⟩
    · exact absurd hms hsome
    · exact absurd hms (hone m)
    · simp

end Join

theorem congruence_normal : Congruence (fun d _ => d.Normal) unionOf unionOf := by
  have lists : ∀ {ds ps : List Descriptor}, List.Forall₂ (fun d _ => d.Normal) ds ps →
      ∀ d ∈ ds, d.Normal := by
    intro ds ps h
    induction h with
    | nil => simp
    | cons hd _ ih => exact List.forall_mem_cons.2 ⟨hd, ih⟩
  constructor
  case atom => exact fun _ h => normal_of_isAtom h
  case boundedVar =>
    exact fun n _ _ h => normal_of_parts (by simp) (List.forall_mem_singleton.2 h)
  case typeRefTo | listOf =>
    exact fun h => normal_of_parts (by simp) (List.forall_mem_singleton.2 h)
  case dictOf =>
    exact fun hk hv => normal_of_parts (by simp)
      (List.forall_mem_cons.2 ⟨hk, List.forall_mem_singleton.2 hv⟩)
  case tuple => exact fun h => normal_of_parts (by simp) (lists h)
  case callable =>
    exact fun hs h => normal_of_parts (by simp)
      (List.forall_mem_append.2 ⟨lists hs, List.forall_mem_singleton.2 h⟩)
  case join =>
    exact fun h hs => unionOf_normal (by simp) (List.forall_mem_cons.2 ⟨h, lists hs⟩)

end Descriptor

namespace TypeExpr

theorem normal_of_resolve {s : Scope} {e : TypeExpr} {d : Descriptor} (h : e.resolve s = .ok d) :
    d.Normal := by
  have hrelated := resolveJoining_related Descriptor.congruence_normal s e
  rw [show e.resolveJoining .unionOf s = .ok d from h] at hrelated
  cases hrelated with
  | ok hd => exact hd

/-- Every union in what a written type resolves to, at whatever depth it stands, has at least two
members, none of which is a union, and no two of which are equal. -/
theorem resolved_unions_are_normal (s : Scope) (e : TypeExpr) (d : Descriptor)
    (h : e.resolve s = .ok d) (ds : List Descriptor) (hds : Descriptor.Occurs (.union ds) d) :
    2 ≤ ds.length ∧ (∀ m ∈ ds, ∀ es, m ≠ .union es) ∧ ds.Nodup := by
  have hnormal := normal_of_resolve h ds hds
  exact ⟨hnormal.two, hnormal.flat, hnormal.nodup⟩

/-- A scope with a type, and with a variable whose bound is text that repeats itself. -/
def textBoundScope : Scope :=
  (Scope.empty.register "Int" (.builtin .int)).declareVar "N"
    (some (source "Union[Int, Optional[Int]]"))

/-- `Dict[Int, Union[N, Optional[Union[Int]], None]]` -/
def crowdedDict : TypeExpr :=
  applied "Dict" [name "Int", applied "Union"
    [name "N", applied "Optional" [applied "Union" [name "Int"]], name "None"]]

theorem crowdedDict_unions_are_normal :
    let int := Descriptor.nominal (.builtin .int)
    let outer := [.boundedVar "N" (.union [int, .none]), int, .none]
    crowdedDict.resolve textBoundScope = .ok (.dictOf int (.union outer)) ∧
      (2 ≤ outer.length ∧ (∀ m ∈ outer, ∀ es, m ≠ .union es) ∧ outer.Nodup) ∧
      2 ≤ [int, .none].length ∧ (∀ m ∈ [int, .none], ∀ es, m ≠ .union es) ∧ [int, .none].Nodup := by
  intro int outer
  have h : crowdedDict.resolve textBoundScope = .ok (.dictOf int (.union outer)) := rfl
  have houter : Descriptor.Occurs (.union outer) (.dictOf int (.union outer)) :=
    .part (by simp [Descriptor.parts]) .here
  have hbound : Descriptor.Occurs (.union [int, .none]) (.dictOf int (.union outer)) :=
    .part (q := .union outer) (by simp [Descriptor.parts])
      (.part (q := .boundedVar "N" (.union [int, .none])) (by simp [Descriptor.parts, outer])
        (.part (by simp [Descriptor.parts]) .here))
  exact ⟨h, resolved_unions_are_normal _ _ _ h _ houter,
    resolved_unions_are_normal _ _ _ h _ hbound⟩

end TypeExpr

end CallGuard
