import CallGuard.Value.Basic

/-!
# The structure of a value as text

Each value is shown with the name of its kind; objects and callables only by their names.
-/

namespace CallGuard

/-- A type as text, with the kind of type that it is. -/
def Ty.description : Ty → String
  | .builtin b => "Builtin(" ++ b.name ++ ")"
  | .declared _ n _ => "Class(" ++ n ++ ")"

namespace Value

/-- A character inside a quoted text. -/
def quotedChar : Char → String
  | '"' => "\\\""
  | '\\' => "\\\\"
  | '\n' => "\\n"
  | '\r' => "\\r"
  | '\t' => "\\t"
  | c => c.toString

/-- A text in quotes. -/
def quoted (s : String) : String :=
  "\"" ++ String.join (s.toList.map quotedChar) ++ "\""

mutual
/-- The structure of a value. -/
def description : Value → String
  | none => "None"
  | bool b => "Bool(" ++ toString b ++ ")"
  | int n => "Int(" ++ toString n.toInt ++ ")"
  | float x => "Float(" ++ toString x ++ ")"
  | str s => "Str(" ++ quoted s ++ ")"
  | list items => "List([" ++ descriptions items ++ "])"
  | tuple items => "Tuple([" ++ descriptions items ++ "])"
  | dict entries => "Dict([" ++ entryDescriptions entries ++ "])"
  | type t => "Type(" ++ t.description ++ ")"
  | object _ cls => "Object(Instance(" ++ cls.name ++ "))"
  | callable c => "Callable(Callable(" ++ c.name ++ "))"

/-- The structures of values, with a comma and a space between two of them. -/
def descriptions : List Value → String
  | [] => ""
  | [v] => v.description
  | v :: vs => v.description ++ ", " ++ descriptions vs

/-- The structures of entries, with a comma and a space between two of them. -/
def entryDescriptions : List (Value × Value) → String
  | [] => ""
  | [(k, v)] => "(" ++ k.description ++ ", " ++ v.description ++ ")"
  | (k, v) :: rest =>
    "(" ++ k.description ++ ", " ++ v.description ++ "), " ++ entryDescriptions rest
end

end Value

end CallGuard
