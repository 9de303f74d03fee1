/-!
# Types of values

Every value has one type: a built-in one, or a class that was declared with a base. A class carries
its base with it, so the chain from a type up to `Object` is read off the type itself
(`Ty.ancestors`), and a type is a subtype of exactly the members of that chain.
-/

namespace CallGuard

/-- The types that exist before any class is declared. -/
inductive Builtin where
  | none | bool | int | float | string | list | tuple | dict | type | function | object
  deriving DecidableEq

namespace Builtin

/-- The name under which a built-in type is reported. -/
def name : Builtin → String
  | none => "None"
  | bool => "Bool"
  | int => "Int"
  | float => "Float"
  | string => "String"
  | list => "List"
  | tuple => "Tuple"
  | dict => "Dict"
  | type => "Type"
  | function => "Function"
  | object => "Object"

/-- The built-in types in the order in which they are listed. -/
def all : List Builtin :=
  [none, bool, int, float, string, list, tuple, dict, type, function, object]

/-- A built-in type, its base, and so on up to `object`. Truth values count as integers. -/
def ancestors : Builtin → List Builtin
  | object => [object]
  | bool => [bool, int, object]
  | b => [b, object]

end Builtin

/-- A type. Two classes are the same type only if they were declared as one, which their number
tells; the name alone decides nothing. -/
inductive Ty where
  | builtin (b : Builtin)
  | declared (id : Nat) (name : String) (base : Ty)
  deriving DecidableEq

namespace Ty

instance : Coe Builtin Ty := ⟨builtin⟩

/-- The name under which a type is reported. -/
def name : Ty → String
  | builtin b => b.name
  | declared _ n _ => n

/-- The type itself, its base, and so on up to `Object`. -/
def ancestors : Ty → List Ty
  | builtin b => b.ancestors.map builtin
  | t@(declared _ _ base) => t :: base.ancestors

/-- Whether values of type `t` may stand where values of type `u` are asked for. -/
def isSubtype (t u : Ty) : Bool :=
  t.ancestors.contains u

end Ty

/-- A class that was declared. Objects are always of such a class, never of a built-in type. -/
structure Class where
  id : Nat
  name : String
  base : Ty

/-- The type of the objects of a class. -/
def Class.ty (c : Class) : Ty := .declared c.id c.name c.base

end CallGuard
