import CallGuard.Ty

/-!
# Written types

A `TypeExpr` is a type as someone declared it: names, applications, quoted names and text that has
not been read yet. Nothing in it has been looked up.
-/

namespace CallGuard

/-- A declared type, before its names are looked up. -/
inductive TypeExpr where
  /-- A bare name. -/
  | name (n : String)
  /-- A name applied to bracketed arguments, as in `Dict[String, Int]`. -/
  | applied (head : String) (args : List TypeExpr)
  /-- A bracketed list of its own, as in the first argument of `Callable[[Int], Int]`. -/
  | params (items : List TypeExpr)
  /-- Three dots. -/
  | ellipsis
  /-- A quoted name, which refers to something declared later. -/
  | forward (n : String)
  /-- A type variable given in place, without a bound. -/
  | freeVar (n : String)
  /-- A type variable given in place, with its bound. -/
  | boundedVar (n : String) (bound : TypeExpr)
  /-- A type itself. -/
  | ty (t : Ty)
  /-- Text that is read only when the expression is resolved. -/
  | source (text : String)

namespace TypeExpr

instance : Inhabited TypeExpr := ⟨ellipsis⟩

/-- The expression `Callable[[items], result]`. -/
def callable (items : List TypeExpr) (result : TypeExpr) : TypeExpr :=
  applied "Callable" [params items, result]

mutual
/-- Whether two expressions are the same tree. -/
def same : TypeExpr → TypeExpr → Bool
  | name a, name b => a == b
  | applied f as, applied g bs => f == g && sameAll as bs
  | params as, params bs => sameAll as bs
  | ellipsis, ellipsis => true
  | forward a, forward b => a == b
  | freeVar a, freeVar b => a == b
  | boundedVar a x, boundedVar b y => a == b && same x y
  | ty t, ty u => t == u
  | source a, source b => a == b
  | _, _ => false

/-- Whether two lists hold the same trees in the same places. -/
def sameAll : List TypeExpr → List TypeExpr → Bool
  | [], [] => true
  | a :: as, b :: bs => same a b && sameAll as bs
  | _, _ => false
end

instance : BEq TypeExpr := ⟨same⟩

end TypeExpr

end CallGuard
