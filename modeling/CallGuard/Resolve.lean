import CallGuard.Count
import CallGuard.Descriptor.Basic
import CallGuard.Scope
import CallGuard.TypeExpr.Printer
import CallGuard.TypeExpr.Reader

/-!
# Resolving written types

`TypeExpr.resolve` looks up the names of a written type in a scope and yields its descriptor. The
work is done in layers: `TypeExpr.classify` recurses on the expression and asks two functions for
what lies outside it, declared variables and unread text; `Scope.resolveVar` and
`TypeExpr.classifyText` answer. Each bound that is entered uses up one declared variable, so the
number of variables bounds the depth, and a variable met inside its own bound is an error. What
becomes of the members of a union is left to a third function, `join`; `TypeExpr.resolve` takes
`Descriptor.unionOf`.
-/

namespace CallGuard

/-- Something that may only be the first argument of `Callable`. -/
inductive CallableOnly where
  | paramList | ellipsis
  deriving DecidableEq

/-- The wording of a misplaced form in messages. -/
def CallableOnly.text : CallableOnly → String
  | paramList => "a parameter list"
  | ellipsis => "'...'"

/-- Why a written type has no descriptor. -/
inductive ResolveError where
  | malformed (e : SyntaxError)
  | unknownName (name : String)
  | notGeneric (name : String)
  | arity (head : String) (expected : Count) (found : Nat)
  | callableParams (found : String)
  | cyclicVar (name : String)
  | misplaced (what : CallableOnly) (context : String)
  deriving DecidableEq

/-- The message of a resolution error. -/
def ResolveError.message : ResolveError → String
  | malformed e => "malformed type expression: " ++ e.message
  | unknownName name => "unknown type name '" ++ name ++ "'"
  | notGeneric name => "'" ++ name ++ "' is not a generic type and cannot be subscripted"
  | arity head expected found =>
    "'" ++ head ++ "' takes " ++ expected.text ++ " type argument(s), found " ++ toString found
  | callableParams found =>
    "Callable parameters must be a bracketed list or '...', found '" ++ found ++ "'"
  | cyclicVar name => "type variable '" ++ name ++ "' is bounded by itself"
  | misplaced what context =>
    what.text ++ " is only allowed as the first argument of Callable (found in '" ++ context
      ++ "')"

/-- The descriptor of a name that no declaration can change. -/
def markerDescriptor? : String → Option Descriptor
  | "Any" => some .any
  | "NoReturn" => some .noReturn
  | "None" => some .none
  | "NoneType" => some .none
  | "Type" => some .typeRef
  | _ => none

/-- The type constructors: what may stand before a bracket. -/
inductive Former where
  | type | union | optional | list | tuple | dict | callable
  deriving DecidableEq

namespace Former

/-- The type constructor of this name. -/
def ofName? : String → Option Former
  | "Type" => some .type
  | "Union" => some .union
  | "Optional" => some .optional
  | "List" => some .list
  | "Tuple" => some .tuple
  | "Dict" => some .dict
  | "Callable" => some .callable
  | _ => none

/-- How many arguments a type constructor takes in brackets. -/
def count : Former → Count
  | type | optional | list => .exactly 1
  | union | tuple => .atLeast 1
  | dict | callable => .exactly 2

/-- The descriptor of a type constructor without brackets, for those that have one. -/
def bare? : Former → Option Descriptor
  | type => some .typeRef
  | union | optional => none
  | list => some .list
  | tuple => some (.tuple [])
  | dict => some .dict
  | callable => some (.callable [] .any)

end Former

/-- The descriptor of a type that is given directly. -/
def Ty.descriptor : Ty → Descriptor
  | .builtin .none => .none
  | .builtin .type => .wildcard
  | t => .nominal t

namespace Scope

/-- The descriptor of a bare name. Markers come first, then declared variables, which `var`
resolves from their name and bound, then the type constructors, then the types of the scope. -/
def classifyName (s : Scope) (var : String → Option TypeExpr → Except ResolveError Descriptor)
    (n : String) : Except ResolveError Descriptor :=
  match markerDescriptor? n with
  | some d => .ok d
  | none =>
    match s.var? n with
    | some bound => var n bound
    | none =>
      if n = "type" then .ok .wildcard
      else match Former.ofName? n with
        | some f =>
          match f.bare? with
          | some d => .ok d
          | none => .error (.arity n f.count 0)
        | none =>
          match s.type? n with
          | some t => .ok (.nominal t)
          | none => .error (.unknownName n)

/-- The error of a bracket after a name that is not a type constructor. -/
def notApplicable (s : Scope) (head : String) : ResolveError :=
  if (markerDescriptor? head).isSome || head == "type" || (s.var? head).isSome
      || (s.type? head).isSome
  then .notGeneric head
  else .unknownName head

end Scope

namespace TypeExpr

variable (join : List Descriptor → Descriptor) (s : Scope)
  (var : String → Option TypeExpr → Except ResolveError Descriptor)
  (unread : String → Except ResolveError Descriptor)

mutual
/-- The descriptor of an expression, where `var` resolves declared variables, `unread` resolves text
and `join` makes a union of its members. Parts are classified from left to right, and the first
error is the result. -/
def classify : TypeExpr → Except ResolveError Descriptor
  | source text => unread text
  | name n => s.classifyName var n
  | freeVar n => .ok (.freeVar n)
  | boundedVar n bound => do return .boundedVar n (← classify bound)
  | ty t => .ok t.descriptor
  | forward n => .ok (.forward n)
  | e@(params _) => .error (.misplaced .paramList e.text)
  | ellipsis => .error (.misplaced .ellipsis ellipsis.text)
  | applied head args =>
    match Former.ofName? head, args with
    | some .type, [inner] => do return .typeRefTo (← classify inner)
    | some .optional, [inner] => do return join [← classify inner, .none]
    | some .list, [element] => do return .listOf (← classify element)
    | some .dict, [key, value] => do return .dictOf (← classify key) (← classify value)
    | some .callable, [params items, result] => do
      return .callable (← classifyAll items) (← classify result)
    | some .callable, [ellipsis, result] => do return .callable [] (← classify result)
    | some .callable, [first, _] => .error (.callableParams first.text)
    | some .union, first :: rest => do
      return join ((← classify first) :: (← classifyAll rest))
    | some .tuple, first :: rest => do
      return .tuple ((← classify first) :: (← classifyAll rest))
    | some f, found => .error (.arity head f.count found.length)
    | none, _ => .error (s.notApplicable head)

/-- The descriptors of several expressions. -/
def classifyAll : List TypeExpr → Except ResolveError (List Descriptor)
  | [] => .ok []
  | e :: es => do return (← classify e) :: (← classifyAll es)
end

/-- Reads a text and classifies what it says. Text holds no further text, so nothing is asked of
it inside. -/
def classifyText (text : String) : Except ResolveError Descriptor :=
  match parse text with
  | .ok e => classify join s var (fun _ => .error (.malformed .empty)) e
  | .error e => .error (.malformed e)

/-- The descriptor of an expression, where `var` resolves declared variables and text is read. -/
def resolveWith (e : TypeExpr) : Except ResolveError Descriptor :=
  e.classify join s var (classifyText join s var)

end TypeExpr

/-- Resolves the variable `n` with its bound while the bounds of the variables `resolving` are being
entered. At most `budget` further bounds are entered, which is no restriction if that many variables
are left: a variable that is met inside its own bound is refused before. -/
def Scope.resolveVar (join : List Descriptor → Descriptor) (s : Scope) :
    (budget : Nat) → (resolving : List String) → (n : String) → (bound : Option TypeExpr) →
      Except ResolveError Descriptor
  | _, _, n, none => .ok (.freeVar n)
  | 0, _, n, some _ => .error (.cyclicVar n)
  | left + 1, resolving, n, some bound =>
    if n ∈ resolving then .error (.cyclicVar n)
    else do
      return .boundedVar n (← bound.resolveWith join s (s.resolveVar join left (n :: resolving)))

/-- The descriptor of a written type in a scope, where `join` makes a union of its members. -/
def TypeExpr.resolveJoining (join : List Descriptor → Descriptor) (s : Scope) (e : TypeExpr) :
    Except ResolveError Descriptor :=
  e.resolveWith join s (s.resolveVar join s.vars.size [])

/-- The descriptor of a written type in a scope. -/
def TypeExpr.resolve (s : Scope) (e : TypeExpr) : Except ResolveError Descriptor :=
  e.resolveJoining .unionOf s

/-- The descriptor of a text in a scope. -/
def Scope.resolveText (s : Scope) (text : String) : Except ResolveError Descriptor :=
  match TypeExpr.parse text with
  | .ok e => e.resolve s
  | .error e => .error (.malformed e)

end CallGuard
