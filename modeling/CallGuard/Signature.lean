import CallGuard.Count
import CallGuard.TypeExpr.Basic

/-!
# Signatures

A signature lists the parameters of a callable with their declared types and defaults. It is generic
in what a default is: a value, or a body that is still to be evaluated.
-/

namespace CallGuard

/-- A parameter. A variadic one takes every argument that is left over. -/
structure Param (α : Type) where
  name : String
  variadic : Bool
  default : Option α
  declared : Option TypeExpr

/-- The parameters of a callable in order, and its declared result. -/
structure Signature (α : Type) where
  params : List (Param α)
  result : Option TypeExpr

namespace Signature

variable {α : Type}

/-- The parameters that take one argument each. -/
def positional (s : Signature α) : List (Param α) :=
  s.params.filter fun p => !p.variadic

/-- Whether left-over arguments are taken. -/
def hasVariadic (s : Signature α) : Bool :=
  s.params.any fun p => p.variadic

/-- How many positional parameters have no default. -/
def required (s : Signature α) : Nat :=
  s.positional.countP fun p => p.default.isNone

/-- How many arguments a callable with this signature takes. -/
def arity (s : Signature α) : Count :=
  .ofPositions s.required s.positional.length s.hasVariadic

/-- The signature that is left when the first positional parameter has been supplied. -/
def withoutReceiver (s : Signature α) : Signature α :=
  { s with params := s.params.eraseP fun p => !p.variadic }

/-- The defaults of the positional parameters past the first `given`, up to the first parameter
without one. -/
def defaultsAfter (s : Signature α) (given : Nat) : List α :=
  ((s.positional.drop given).takeWhile fun p => p.default.isSome).filterMap fun p => p.default

end Signature

end CallGuard
