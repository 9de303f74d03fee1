/-!
# How many arguments are taken

A `Count` says which numbers of arguments something takes: a callable, a contract or a type
constructor. The same description decides acceptance (`Count.admits`) and is what an error reports
(`Count.text`).
-/

namespace CallGuard

/-- A set of argument counts. -/
inductive Count where
  | exactly (n : Nat)
  | atLeast (n : Nat)
  | between (lo hi : Nat)
  deriving DecidableEq

namespace Count

/-- Whether `given` arguments are a count of this kind. -/
def admits : Count → Nat → Bool
  | exactly n, given => given == n
  | atLeast n, given => decide (n ≤ given)
  | between lo hi, given => decide (lo ≤ given) && decide (given ≤ hi)

/-- The wording of a count in messages. -/
def text : Count → String
  | exactly n => toString n
  | atLeast n => "at least " ++ toString n
  | between lo hi => toString lo ++ " to " ++ toString hi

/-- The counts taken by `declared` positions of which `required` have no default, where an
unbounded tail of further arguments is taken when `variadic` is set. -/
def ofPositions (required declared : Nat) (variadic : Bool) : Count :=
  if variadic then atLeast required
  else if required = declared then exactly required
  else between required declared

theorem admits_ofPositions {required declared given : Nat} {variadic : Bool} :
    (ofPositions required declared variadic).admits given = true ↔
      required ≤ given ∧ (variadic = true ∨ given ≤ declared) := by
  unfold ofPositions
  rcases variadic with _ | _
  · by_cases h : required = declared
    · simp only [h, admits, Bool.false_eq_true, if_false, if_true, beq_iff_eq, false_or]
      omega
    · simp [h, admits]
  · simp [admits]

end Count

end CallGuard
