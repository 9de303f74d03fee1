import CallGuard.Text.Alphabetic
import CallGuard.Text.Numeric
import CallGuard.TypeExpr.Basic

/-!
# Reading written types

`TypeExpr.parse` reads a text one character at a time with a `Reader`, which holds the brackets that
are open and what has been read inside the innermost one. Reading is a fold over the characters, so
a text that is refused in the middle is refused however it goes on, and a text that only ends too
early can be completed.
-/

namespace CallGuard

/-- What would have been accepted where reading stopped. -/
inductive Expectation where
  | type | ellipsis | separator | endOfExpression
  deriving DecidableEq

/-- The wording of an expectation in messages. -/
def Expectation.text : Expectation → String
  | type => "a type"
  | ellipsis => "'...'"
  | separator => "',' or ']'"
  | endOfExpression => "end of expression"

/-- Why a text is not a written type. Offsets count bytes of the text in UTF-8. -/
inductive SyntaxError where
  | empty
  | unexpectedEnd (offset : Nat) (expected : Expectation)
  | unexpected (found : Char) (offset : Nat) (expected : Expectation)
  | unterminated (offset : Nat)
  | tooDeep (offset : Nat)
  deriving DecidableEq

/-- How many brackets may be open around an item. -/
def depthLimit : Nat := 128

/-- The message of a syntax error. -/
def SyntaxError.message : SyntaxError → String
  | empty => "empty type expression"
  | unexpectedEnd offset expected =>
    "unexpected end of type expression at offset " ++ toString offset ++ ", expected "
      ++ expected.text
  | unexpected found offset expected =>
    "unexpected '" ++ found.toString ++ "' at offset " ++ toString offset ++ ", expected "
      ++ expected.text
  | unterminated offset => "unterminated quoted name starting at offset " ++ toString offset
  | tooDeep offset =>
    "type expression nested deeper than " ++ toString depthLimit ++ " levels at offset "
      ++ toString offset

/-- An open bracket: the name it is applied to, if any, the members of the union around it that
were read before it, and the items that are finished inside it. Lists hold the latest first. -/
structure Bracket where
  head : Option String
  outer : List TypeExpr
  items : List TypeExpr

/-- The expression that a bracket with these items, latest first, closes to. -/
def Bracket.close (b : Bracket) (items : List TypeExpr) : TypeExpr :=
  match b.head with
  | some head => .applied head items.reverse
  | none => .params items.reverse

/-- Where a reader stands. -/
inductive Phase where
  /-- A type must come next. -/
  | operand
  /-- A bracket has just been opened. -/
  | opened
  /-- Some of the three dots have been read. -/
  | dots (seen : Nat)
  /-- Inside a quoted name, which began at `start`; the latest character comes first. -/
  | quoted (mark : Char) (start : Nat) (body : List Char)
  /-- Inside a name; the latest character comes first. -/
  | word (letters : List Char)
  /-- A name has been read, and a bracket may follow. -/
  | named (n : String)
  /-- A type that takes no bracket has been read. -/
  | finished (e : TypeExpr)

/-- The state of reading: how many bytes were read, the open brackets from the inside out, the
finished members of the innermost union with the latest first, and the phase. -/
structure Reader where
  offset : Nat
  brackets : List Bracket
  members : List TypeExpr
  phase : Phase

namespace Reader

/-- The reader before the first character. -/
def start : Reader := ⟨0, [], [], .operand⟩

/-- Whether a name may begin with `c`. -/
def isWordStart (c : Char) : Bool :=
  c == '_' || Text.isAlphabetic c

/-- Whether a name may go on with `c`. -/
def isWordChar (c : Char) : Bool :=
  isWordStart c || Text.isNumeric c

/-- The type that members written between bars stand for, given latest first: one member is
itself, several are a union. -/
def joined : List TypeExpr → TypeExpr
  | [e] => e
  | es => .applied "Union" es.reverse

/-- The reader inside a new bracket. -/
def openBracket (r : Reader) (head : Option String) : Reader :=
  { r with brackets := ⟨head, r.members, []⟩ :: r.brackets, members := [], phase := .opened }

/-- Reads the first character of a type. -/
def readOperand (r : Reader) (c : Char) : Except SyntaxError Reader :=
  if c = '[' then .ok (r.openBracket none)
  else if c = '.' then .ok { r with phase := .dots 1 }
  else if c = '"' ∨ c = '\'' then .ok { r with phase := .quoted c r.offset [] }
  else if isWordStart c then .ok { r with phase := .word [c] }
  else .error (.unexpected c r.offset .type)

/-- Reads a character that is not blank after the type `e`. -/
def readAfter (r : Reader) (e : TypeExpr) (c : Char) : Except SyntaxError Reader :=
  if c = '|' then .ok { r with members := e :: r.members, phase := .operand }
  else match r.brackets with
    | [] => .error (.unexpected c r.offset .endOfExpression)
    | b :: rest =>
      let items := joined (e :: r.members) :: b.items
      if c = ',' then
        .ok { r with brackets := { b with items } :: rest, members := [], phase := .operand }
      else if c = ']' then
        .ok { r with brackets := rest, members := b.outer, phase := .finished (b.close items) }
      else .error (.unexpected c r.offset .separator)

/-- Reads a character after the name `n`. -/
def readAfterName (r : Reader) (n : String) (c : Char) : Except SyntaxError Reader :=
  if Text.isBlank c then .ok { r with phase := .named n }
  else if c = '[' then .ok (r.openBracket (some n))
  else r.readAfter (.name n) c

/-- Reads the first character that is not blank inside a new bracket. Only a bracket that is
applied to nothing may be empty, and the limit on open brackets is checked before an item begins. -/
def readFirstItem (r : Reader) (c : Char) : Except SyntaxError Reader :=
  match c, r.brackets with
  | ']', ⟨none, outer, _⟩ :: rest =>
    .ok { r with brackets := rest, members := outer, phase := .finished (.params []) }
  | _, _ =>
    if depthLimit ≤ r.brackets.length then .error (.tooDeep r.offset) else r.readOperand c

/-- Reads one character without counting its bytes. -/
def read (r : Reader) (c : Char) : Except SyntaxError Reader :=
  match r.phase with
  | .operand => if Text.isBlank c then .ok r else r.readOperand c
  | .opened => if Text.isBlank c then .ok r else r.readFirstItem c
  | .dots seen =>
    if c = '.' then
      .ok { r with phase := if seen = 1 then .dots 2 else .finished .ellipsis }
    else .error (.unexpected c r.offset .ellipsis)
  | .quoted mark start body =>
    if c = mark then
      let name := String.ofList (Text.trimBlanks body.reverse)
      .ok { r with phase := .finished (.forward name) }
    else .ok { r with phase := .quoted mark start (c :: body) }
  | .word letters =>
    if isWordChar c then .ok { r with phase := .word (c :: letters) }
    else r.readAfterName (String.ofList letters.reverse) c
  | .named n => r.readAfterName n c
  | .finished e => if Text.isBlank c then .ok r else r.readAfter e c

/-- Reads one character. -/
def step (r : Reader) (c : Char) : Except SyntaxError Reader :=
  (r.read c).map fun next => { next with offset := r.offset + c.utf8Size }

/-- The end of the text where a type must come. -/
def endOperand (r : Reader) : SyntaxError :=
  match r.brackets, r.members with
  | [], [] => .empty
  | _, _ => .unexpectedEnd r.offset .type

/-- The end of the text after the type `e`. -/
def endAfter (r : Reader) (e : TypeExpr) : Except SyntaxError TypeExpr :=
  match r.brackets with
  | [] => .ok (joined (e :: r.members))
  | _ :: _ => .error (.unexpectedEnd r.offset .separator)

/-- The end of the text. -/
def finish (r : Reader) : Except SyntaxError TypeExpr :=
  match r.phase with
  | .operand => .error r.endOperand
  | .opened =>
    if depthLimit ≤ r.brackets.length then .error (.tooDeep r.offset)
    else .error (.unexpectedEnd r.offset .type)
  | .dots _ => .error (.unexpectedEnd r.offset .ellipsis)
  | .quoted _ start _ => .error (.unterminated start)
  | .word letters => r.endAfter (.name (String.ofList letters.reverse))
  | .named n => r.endAfter (.name n)
  | .finished e => r.endAfter e

end Reader

/-- Reads a written type. -/
def TypeExpr.parse (text : String) : Except SyntaxError TypeExpr :=
  text.toList.foldlM Reader.step Reader.start >>= Reader.finish

end CallGuard
