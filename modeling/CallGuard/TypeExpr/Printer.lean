import CallGuard.TypeExpr.Basic

/-!
# The text of a written type

Applications print with their arguments in brackets, a quoted name in double quotes, and text that
has not been read as it stands.
-/

namespace CallGuard.TypeExpr

mutual
/-- The expression as text. -/
def text : TypeExpr → String
  | name n => n
  | applied head args => head ++ "[" ++ texts args ++ "]"
  | params items => "[" ++ texts items ++ "]"
  | ellipsis => "..."
  | forward n => "\"" ++ n ++ "\""
  | freeVar n => n
  | boundedVar n _ => n
  | ty t => t.name
  | source s => s

/-- The expressions as text, with a comma and a space between two of them. -/
def texts : List TypeExpr → String
  | [] => ""
  | [e] => text e
  | e :: es => text e ++ ", " ++ texts es
end

end CallGuard.TypeExpr
