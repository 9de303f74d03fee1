import CallGuard.OrderedMap
import CallGuard.TypeExpr.Basic

/-!
# Scopes

A scope holds the names that a written type may use: types, and type variables with their bounds.
-/

namespace CallGuard

/-- The types and type variables that can be named. A variable is held with its bound, if any. -/
structure Scope where
  types : NameMap Ty
  vars : NameMap (Option TypeExpr)

namespace Scope

/-- The scope without names. -/
def empty : Scope := ⟨.empty, .empty⟩

/-- The names of the built-in types and their short forms. -/
def builtinNames : List (String × Builtin) :=
  [("Int", .int), ("Float", .float), ("Bool", .bool), ("String", .string), ("Object", .object),
   ("Function", .function), ("int", .int), ("float", .float), ("bool", .bool), ("str", .string),
   ("object", .object), ("list", .list), ("tuple", .tuple), ("dict", .dict)]

/-- The scope with `t` under `name`, in place of any type that stood there. -/
def register (s : Scope) (name : String) (t : Ty) : Scope :=
  { s with types := s.types.insert name t }

/-- The scope with the variable `name`, in place of any variable of that name. -/
def declareVar (s : Scope) (name : String) (bound : Option TypeExpr) : Scope :=
  { s with vars := s.vars.insert name bound }

/-- The scope of the built-in types. -/
def builtins : Scope :=
  builtinNames.foldl (fun s p => s.register p.1 (.builtin p.2)) empty

/-- The type of this name. -/
def type? (s : Scope) (name : String) : Option Ty := s.types.get? name

/-- The variable of this name: the bound it was declared with, if it was declared. -/
def var? (s : Scope) (name : String) : Option (Option TypeExpr) := s.vars.get? name

end Scope

end CallGuard
