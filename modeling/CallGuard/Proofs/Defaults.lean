import CallGuard.Proofs.Execution

/-!
# What a body sees of its parameters

A function runs its body on the arguments it was given, followed by the defaults of the parameters
past them (`Signature.seen`). The two rules behind this are separate: the count of arguments only says
how many parameters have no default, while defaults are filled in by place and up to the first
parameter that has none. They fit together exactly if no parameter without a default comes after one
with a default (`Signature.DefaultsLast`). In any other signature some admitted call leaves the body
without a value for a parameter, and without the defaults behind it.
-/

namespace CallGuard

namespace Signature

variable {α : Type}

/-- The values that a body sees of a call with `args`. -/
def seen (s : Signature α) (args : List α) : List α := args ++ s.defaultsAfter args.length

/-- No positional parameter without a default comes after one with a default. -/
def DefaultsLast (s : Signature α) : Prop :=
  s.positional.Pairwise fun p q => p.default.isSome = true → q.default.isSome = true

/-- The defaults of parameters up to the first that has none. -/
def leadingDefaults (ps : List (Param α)) : List α :=
  (ps.takeWhile fun p => p.default.isSome).filterMap fun p => p.default

section Leading

variable {p : Param α} {ps : List (Param α)}

theorem leadingDefaults_cons_some {v : α} (h : p.default = some v) :
    leadingDefaults (p :: ps) = v :: leadingDefaults ps := by
  simp [leadingDefaults, h]

theorem leadingDefaults_cons_none (h : p.default = none) : leadingDefaults (p :: ps) = [] := by
  simp [leadingDefaults, h]

/-- A place past the given arguments holds the default of its parameter, if no parameter before it
lacks one. -/
theorem leadingDefaults_getElem? {v : α} (i : Nat) :
    (leadingDefaults ps)[i]? = some v ↔
      (∀ j < i, ∀ q, ps[j]? = some q → q.default.isSome = true) ∧
        ∃ p, ps[i]? = some p ∧ p.default = some v := by
  induction ps generalizing i with
  | nil => simp [leadingDefaults]
  | cons p ps ih =>
    rcases hp : p.default with _ | u
    · rw [leadingDefaults_cons_none hp]
      rcases i with _ | i
      · simp [hp]
      · rw [Nat.forall_lt_succ_left]
        simp [hp]
    · rw [leadingDefaults_cons_some hp]
      rcases i with _ | i
      · simp [hp]
      · rw [Nat.forall_lt_succ_left]
        simp [hp, ih]

theorem length_leadingDefaults_le (ps : List (Param α)) :
    (leadingDefaults ps).length ≤ ps.length := by
  induction ps with
  | nil => simp [leadingDefaults]
  | cons p ps ih =>
    rcases hp : p.default with _ | u
    · simp [leadingDefaults_cons_none hp]
    · simp [leadingDefaults_cons_some hp, ih]

theorem length_leadingDefaults_eq_iff :
    (leadingDefaults ps).length = ps.length ↔ ∀ p ∈ ps, p.default.isSome = true := by
  induction ps with
  | nil => simp [leadingDefaults]
  | cons p ps ih =>
    rcases hp : p.default with _ | u
    · simp [leadingDefaults_cons_none hp, hp]
    · simp [leadingDefaults_cons_some hp, hp, ih]

/-- Where defaults come last, as many parameters as have no default stand before all that have one. -/
theorem isSome_of_mem_drop {n : Nat}
    (hlast : ps.Pairwise fun p q => p.default.isSome = true → q.default.isSome = true)
    (hn : ps.countP (fun p => p.default.isNone) ≤ n) :
    ∀ p ∈ ps.drop n, p.default.isSome = true := by
  induction ps generalizing n with
  | nil => simp
  | cons q ps ih =>
    obtain ⟨hq, hps⟩ := List.pairwise_cons.1 hlast
    rcases hd : q.default with _ | u
    · rw [List.countP_cons_of_pos (by simp [hd])] at hn
      obtain ⟨m, rfl⟩ : ∃ m, n = m + 1 := ⟨n - 1, by omega⟩
      exact ih hps (by omega)
    · intro p hp
      rcases List.mem_cons.1 (List.mem_of_mem_drop hp) with rfl | hp
      · simp [hd]
      · exact hq p hp (by simp [hd])

/-- If all parameters past the first `n` have a default, where `n` have none, the first `n` are those
that have none. -/
theorem pairwise_of_isSome_drop
    (h : ∀ p ∈ ps.drop (ps.countP fun p => p.default.isNone), p.default.isSome = true) :
    ps.Pairwise fun p q => p.default.isSome = true → q.default.isSome = true := by
  generalize hn : ps.countP (fun p => p.default.isNone) = n at h
  have hdrop : (ps.drop n).countP (fun p => p.default.isNone) = 0 := by
    rw [List.countP_eq_zero]
    intro p hp
    simpa [Option.isSome_iff_ne_none] using h p hp
  have hsplit : (ps.take n).countP (fun p => p.default.isNone) +
      (ps.drop n).countP (fun p => p.default.isNone) = n := by
    rw [← List.countP_append, List.take_append_drop, hn]
  have htake : ∀ p ∈ ps.take n, p.default.isNone = true := by
    have hle : (ps.take n).length ≤ n := List.length_take_le n ps
    have hge : (ps.take n).countP (fun p => p.default.isNone) ≤ (ps.take n).length :=
      List.countP_le_length
    exact List.countP_eq_length.1 (by omega)
  rw [List.pairwise_iff_getElem]
  intro i j hi hj hij hsome
  by_cases hjn : j < n
  · have hnone := htake ps[i] (List.mem_take_iff_getElem.2 ⟨i, by omega, rfl⟩)
    rw [Option.isNone_iff_eq_none.1 hnone] at hsome
    cases hsome
  · exact h ps[j] (List.mem_drop_iff_getElem.2 ⟨j - n, by omega, by congr 1; omega⟩)

end Leading

variable {s : Signature α}

theorem seen_getElem? {args : List α} {i : Nat} {v : α} (hi : args.length ≤ i) :
    (s.seen args)[i]? = some v ↔
      (∀ j, args.length ≤ j → j < i → ∀ q, s.positional[j]? = some q → q.default.isSome = true) ∧
        ∃ p, s.positional[i]? = some p ∧ p.default = some v := by
  have hseen : (s.seen args)[i]? =
      (leadingDefaults (s.positional.drop args.length))[i - args.length]? :=
    List.getElem?_append_right hi
  rw [hseen, leadingDefaults_getElem?]
  simp only [List.getElem?_drop]
  rw [Nat.add_sub_cancel' hi]
  refine and_congr_left fun _ => ⟨fun h j hj hji q hq => ?_, fun h j hj q hq => ?_⟩
  · exact h (j - args.length) (by omega) q (by rwa [Nat.add_sub_cancel' hj])
  · exact h (args.length + j) (by omega) (by omega) q hq

theorem length_seen_eq_max_iff {args : List α} :
    (s.seen args).length = max args.length s.positional.length ↔
      ∀ p ∈ s.positional.drop args.length, p.default.isSome = true := by
  have hle := length_leadingDefaults_le (s.positional.drop args.length)
  have hseen : (s.seen args).length =
      args.length + (leadingDefaults (s.positional.drop args.length)).length :=
    List.length_append
  rw [← length_leadingDefaults_eq_iff, hseen]
  rw [List.length_drop] at hle ⊢
  omega

theorem admits_required (s : Signature α) : s.arity.admits s.required = true :=
  Count.admits_ofPositions.2 ⟨Nat.le_refl _, .inr List.countP_le_length⟩

theorem seen_complete_iff (s : Signature Value) :
    (∀ args : List Value, s.arity.admits args.length = true →
      (s.seen args).length = max args.length s.positional.length) ↔ s.DefaultsLast := by
  simp only [length_seen_eq_max_iff]
  refine ⟨fun h => ?_, fun h args hargs => ?_⟩
  · -- Arguments for as many parameters as have no default are admitted, whichever these are.
    have hadmits := s.admits_required
    have hreplicate := h (List.replicate s.required .none)
    rw [List.length_replicate] at hreplicate
    exact pairwise_of_isSome_drop (hreplicate hadmits)
  · exact isSome_of_mem_drop h (Count.admits_ofPositions.1 hargs).1

end Signature

theorem Callable.callWith_function_of_admits {run : Behaviour} {id : Nat} {name : String}
    {s : Signature Value} {frames : List (List Value)} {body : Body} {args : List Value}
    (h : s.arity.admits args.length = true) :
    (Callable.function id name s frames body).callWith run args =
      run (s.seen args :: frames) body := by
  rw [Callable.callWith, Count.check, if_pos h]
  rfl

/-- When a body sees all of its parameters. A function that admits the count of its arguments runs its
body on them as they came, followed by the defaults of the parameters past them, each in its place and
up to the first parameter without one. So the body sees as many values as there are arguments or
positional parameters, whichever are more, exactly if every parameter past the arguments has a
default. This is so for all admitted calls of a signature exactly if its defaults come last. -/
theorem body_sees_every_parameter_iff_defaults_last (s : Signature Value) :
    (∀ run id name frames body args, s.arity.admits args.length = true →
      (Callable.function id name s frames body).callWith run args =
        run (s.seen args :: frames) body) ∧
    (∀ args i, i < args.length → (s.seen args)[i]? = args[i]?) ∧
    (∀ args i v, args.length ≤ i → ((s.seen args)[i]? = some v ↔
      (∀ j, args.length ≤ j → j < i → ∀ q, s.positional[j]? = some q → q.default.isSome = true) ∧
        ∃ p, s.positional[i]? = some p ∧ p.default = some v)) ∧
    (∀ args, (s.seen args).length = max args.length s.positional.length ↔
      ∀ p ∈ s.positional.drop args.length, p.default.isSome = true) ∧
    ((∀ args, s.arity.admits args.length = true →
      (s.seen args).length = max args.length s.positional.length) ↔ s.DefaultsLast) := by
  refine ⟨fun run id name frames body args h => Callable.callWith_function_of_admits h,
    fun args i hi => ?_, fun args i v hi => Signature.seen_getElem? hi,
    fun args => Signature.length_seen_eq_max_iff, s.seen_complete_iff⟩
  exact List.getElem?_append_left hi

/-- A signature with a parameter without a default between two that have one. -/
def gapped : Signature Value :=
  ⟨[⟨"a", false, some (.int 1), none⟩, ⟨"b", false, none, none⟩, ⟨"c", false, some (.int 3), none⟩],
    none⟩

/-- One argument is admitted for `gapped`, but a body that asks for the third value is given none,
though the third parameter has the default 3: all that it sees is the argument. -/
theorem gapped_default_is_lost :
    gapped.arity.admits 1 = true ∧ gapped.seen [.int 7] = [.int 7] ∧ gapped.positional.length = 3 ∧
      (gapped.positional[2]?.bind fun p => p.default) = some (.int 3) ∧
      ((Callable.function 0 "f" gapped [] (.arg 0 2)).callWith (behaviour 1) [.int 7]).exec
        (World.start false) = (.ok .none, World.start false) :=
  ⟨rfl, rfl, rfl, rfl, rfl⟩

end CallGuard
