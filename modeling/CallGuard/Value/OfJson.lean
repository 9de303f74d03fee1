import CallGuard.Json.Basic
import CallGuard.OrderedMap
import CallGuard.Value.Basic

/-!
# Values of JSON documents

Objects become dictionaries with their keys in order, where the last field of a name counts.
-/

namespace CallGuard.Value

/-- The value of a number: an integer if it fits 64 signed bits. -/
def ofNumber : Json.Number → Value
  | .int n =>
    if -0x8000000000000000 ≤ n && n < 0x8000000000000000 then int (Int64.ofInt n)
    else float (Float.ofInt n)
  | .float x => float x

mutual
/-- The value of a document. -/
def ofJson : Json → Value
  | .null => none
  | .bool b => bool b
  | .number n => ofNumber n
  | .string s => str s
  | .array items => list (ofItems items)
  | .object fields =>
    dict ((NameMap.ofList (ofFields fields)).entries.map fun (k, v) => (str k, v))

/-- The values of several documents. -/
def ofItems : List Json → List Value
  | [] => []
  | j :: js => ofJson j :: ofItems js

/-- The values of the fields of an object, under their names. -/
def ofFields : List (String × Json) → List (String × Value)
  | [] => []
  | (k, j) :: rest => (k, ofJson j) :: ofFields rest
end

end CallGuard.Value
