import CallGuard.Contract

/-!
# Values, callables and bodies

Values are dynamically typed. A callable is a function with a body, a method with its receiver
supplied, or a callable under a contract. Callables and objects have an identity, a number that no
other one shares; the fields of an object live in the world, not in the value.
-/

namespace CallGuard

/-- How a contract decides whether a type value satisfies `Type[X]`. -/
inductive TypeRefRule where
  /-- The denoted type must satisfy `X`. -/
  | subtype
  /-- The type value itself is matched against `X`. -/
  | legacy
  deriving DecidableEq

mutual
/-- A value. -/
inductive Value where
  | none
  | bool (b : Bool)
  | int (n : Int64)
  | float (x : Float)
  | str (s : String)
  | list (items : List Value)
  | tuple (items : List Value)
  /-- The entries in the order of insertion; any value may be a key, and keys may repeat. -/
  | dict (entries : List (Value × Value))
  | type (t : Ty)
  | object (id : Nat) (cls : Class)
  | callable (c : Callable)

/-- Something that can be called. -/
inductive Callable where
  /-- A function. Its body sees the argument lists of the functions it was made inside. -/
  | function (id : Nat) (name : String) (signature : Signature Value) (frames : List (List Value))
      (body : Body)
  /-- A method whose receiver is put before the arguments of every call. -/
  | bound (id : Nat) (receiver : Value) (method : Callable)
  /-- A callable whose calls are held against a contract. -/
  | guarded (id : Nat) (target : Callable) (contract : Contract) (rule : TypeRefRule)

/-- What a function does when it is called. -/
inductive Body where
  | const (v : Value)
  /-- A new function that sees the current argument lists. -/
  | function (name : String) (signature : Signature Body) (body : Body)
  /-- An argument of the function itself, or of the one `depth` levels outside; absent ones are the
  absent value. -/
  | arg (depth index : Nat)
  /-- All arguments as a list. -/
  | args
  | list (items : List Body)
  | tuple (items : List Body)
  | dict (entries : List (Body × Body))
  /-- The value of the last part. -/
  | seq (parts : List Body)
  /-- The sum of two integers; what is not an integer counts as zero. -/
  | add (a b : Body)
  | mul (a b : Body)
  /-- The texts among the values, joined. -/
  | concat (parts : List Body)
  | eq (a b : Body)
  | ite (cond yes no : Body)
  | typeName (a : Body)
  | raise (text : String)
  | get (target : Body) (field : String)
  | set (target : Body) (field : String) (value : Body)
  /-- A member of an object or a type. -/
  | member (target : Body) (name : String)
  | call (target : Body) (args : List Body)
  | new (target : Body) (args : List Body)
end

instance : Inhabited Value := ⟨.none⟩

instance : Inhabited Body := ⟨.args⟩

namespace Callable

/-- The number that tells a callable from every other. -/
def id : Callable → Nat
  | function i _ _ _ _ => i
  | bound i _ _ => i
  | guarded i _ _ _ => i

/-- The name under which a callable is reported: that of the function inside it. -/
def name : Callable → String
  | function _ n _ _ _ => n
  | bound _ _ m => m.name
  | guarded _ t _ _ => t.name

/-- The parameters as a caller sees them. -/
def signature : Callable → Signature Value
  | function _ _ s _ _ => s
  | bound _ _ m => m.signature.withoutReceiver
  | guarded _ t _ _ => t.signature

/-- The contract that calls are held against, if any. -/
def contract? : Callable → Option Contract
  | function _ _ _ _ _ => none
  | bound _ _ m => m.contract?
  | guarded _ _ k _ => some k

end Callable

namespace Value

/-- The type that a value has. -/
def ty : Value → Ty
  | none => .builtin .none
  | bool _ => .builtin .bool
  | int _ => .builtin .int
  | float _ => .builtin .float
  | str _ => .builtin .string
  | list _ => .builtin .list
  | tuple _ => .builtin .tuple
  | dict _ => .builtin .dict
  | type _ => .builtin .type
  | object _ cls => cls.ty
  | callable _ => .builtin .function

/-- The name of the type that a value has. -/
def typeName (v : Value) : String := v.ty.name

/-- Whether the value has the type `t` or one below it. -/
def isInstance (v : Value) (t : Ty) : Bool := v.ty.isSubtype t

/-- The integer that a value stands for: truth values count as one and zero. -/
def int? : Value → Option Int64
  | int n => some n
  | bool b => some (if b then 1 else 0)
  | _ => Option.none

/-- The number of a floating-point value. -/
def float? : Value → Option Float
  | float x => some x
  | _ => Option.none

/-- The text of a text value. -/
def str? : Value → Option String
  | str s => some s
  | _ => Option.none

mutual
/-- Whether two values are equal: numbers by IEEE comparison, containers by their parts, objects,
callables and classes by identity. -/
def same : Value → Value → Bool
  | none, none => true
  | bool a, bool b => a == b
  | int a, int b => a == b
  | float a, float b => a == b
  | str a, str b => a == b
  | list as, list bs => sameAll as bs
  | tuple as, tuple bs => sameAll as bs
  | dict as, dict bs => sameEntries as bs
  | type t, type u => t == u
  | object i _, object j _ => i == j
  | callable f, callable g => f.id == g.id
  | _, _ => false

/-- Whether two lists hold equal values in the same places. -/
def sameAll : List Value → List Value → Bool
  | [], [] => true
  | a :: as, b :: bs => same a b && sameAll as bs
  | _, _ => false

/-- Whether two lists hold equal entries in the same places. -/
def sameEntries : List (Value × Value) → List (Value × Value) → Bool
  | [], [] => true
  | (j, a) :: as, (k, b) :: bs => same j k && same a b && sameEntries as bs
  | _, _ => false
end

instance : BEq Value := ⟨same⟩

end Value

end CallGuard
