import CallGuard.Json.Number
import CallGuard.Text.Basic

/-!
# JSON text

A reader for JSON documents. Texts hold no raw control characters, escapes in pairs must form a
character, and arrays and objects may nest less deeply than a given bound.
-/

namespace CallGuard

/-- A JSON document. The fields of an object stand as they were written. -/
inductive Json where
  | null
  | bool (b : Bool)
  | number (n : Json.Number)
  | string (s : String)
  | array (items : List Json)
  | object (fields : List (String × Json))

namespace Json

instance : Inhabited Json := ⟨null⟩

/-- Whether a character may stand between the parts of a document. -/
def isSpace (c : Char) : Bool :=
  c == ' ' || c == '\n' || c == '\t' || c == '\r'

/-- The character that a one-letter escape stands for. -/
def escape? : Char → Option Char
  | '"' => some '"'
  | '\\' => some '\\'
  | '/' => some '/'
  | 'b' => some (Char.ofNat 8)
  | 'f' => some (Char.ofNat 12)
  | 'n' => some '\n'
  | 'r' => some '\r'
  | 't' => some '\t'
  | _ => none

/-- Reads the rest of a text after its opening quote; `acc` holds what was read, latest first. -/
def readText (acc : List Char) : List Char → Option (String × List Char)
  | '"' :: rest => some (String.ofList acc.reverse, rest)
  | '\\' :: 'u' :: a :: b :: c :: d :: rest => do
    let n ← Text.hex? [a, b, c, d]
    if 0xD800 ≤ n && n ≤ 0xDBFF then
      match rest with
      | '\\' :: 'u' :: e :: f :: g :: h :: rest =>
        let m ← Text.hex? [e, f, g, h]
        if 0xDC00 ≤ m && m ≤ 0xDFFF then
          let c ← Text.char? (0x10000 + (n - 0xD800) * 0x400 + (m - 0xDC00))
          readText (c :: acc) rest
        else none
      | _ => none
    else
      let c ← Text.char? n
      readText (c :: acc) rest
  | '\\' :: e :: rest => do
    let c ← escape? e
    readText (c :: acc) rest
  | c :: rest => if c.toNat < 0x20 then none else readText (c :: acc) rest
  | [] => none

/-- The digits that a text begins with, and the rest. -/
def readDigits (cs : List Char) : List Nat × List Char :=
  ((cs.takeWhile Char.isDigit).map fun c => c.toNat - '0'.toNat, cs.dropWhile Char.isDigit)

/-- Reads the digits after a point, if there is one. There must be some. -/
def readFraction : List Char → Option (List Nat × List Char)
  | '.' :: rest =>
    match readDigits rest with
    | ([], _) => none
    | found => some found
  | rest => some ([], rest)

/-- Reads an exponent, if there is one. -/
def readExponent : List Char → Option (Option Int × List Char)
  | e :: rest =>
    if e == 'e' || e == 'E' then
      let (negative, digits) :=
        match rest with
        | '+' :: digits => (false, digits)
        | '-' :: digits => (true, digits)
        | digits => (false, digits)
      match readDigits digits with
      | ([], _) => none
      | (ds, rest) =>
        let n : Nat := ds.foldl (fun n d => 10 * n + d) 0
        some (some (if negative then -(n : Int) else n), rest)
    else some (none, e :: rest)
  | [] => some (none, [])

/-- Reads a number after its sign. Zero is the only number that begins with zero. -/
def readNumber (negative : Bool) (cs : List Char) : Option (Json × List Char) := do
  let (whole, rest) := readDigits cs
  if whole.isEmpty || (1 < whole.length && whole.head? == some 0) then none
  let (fraction, rest) ← readFraction rest
  let (exponent, rest) ← readExponent rest
  let value ← Numeral.value { negative, whole, fraction, exponent }
  return (number value, rest)

mutual
/-- Reads a value that may hold `depth - 1` levels of arrays and objects; `fuel` bounds the number
of steps and is enough if it is the length of the text. -/
def readValue (fuel depth : Nat) (cs : List Char) : Option (Json × List Char) :=
  match fuel with
  | 0 => none
  | fuel + 1 =>
    match cs.dropWhile isSpace with
    | 'n' :: 'u' :: 'l' :: 'l' :: rest => some (null, rest)
    | 't' :: 'r' :: 'u' :: 'e' :: rest => some (bool true, rest)
    | 'f' :: 'a' :: 'l' :: 's' :: 'e' :: rest => some (bool false, rest)
    | '"' :: rest => (readText [] rest).map fun (s, rest) => (string s, rest)
    | '-' :: rest => readNumber true rest
    | '[' :: rest =>
      if depth ≤ 1 then none
      else match rest.dropWhile isSpace with
        | ']' :: rest => some (array [], rest)
        | rest => (readItems fuel (depth - 1) rest).map fun (items, rest) => (array items, rest)
    | '{' :: rest =>
      if depth ≤ 1 then none
      else match rest.dropWhile isSpace with
        | '}' :: rest => some (object [], rest)
        | rest => (readFields fuel (depth - 1) rest).map fun (fields, rest) => (object fields, rest)
    | rest => readNumber false rest

/-- Reads the items of an array up to its bracket. -/
def readItems (fuel depth : Nat) (cs : List Char) : Option (List Json × List Char) :=
  match fuel with
  | 0 => none
  | fuel + 1 => do
    let (item, rest) ← readValue fuel depth cs
    match rest.dropWhile isSpace with
    | ',' :: rest =>
      let (items, rest) ← readItems fuel depth rest
      return (item :: items, rest)
    | ']' :: rest => return ([item], rest)
    | _ => none

/-- Reads the fields of an object up to its brace. -/
def readFields (fuel depth : Nat) (cs : List Char) : Option (List (String × Json) × List Char) :=
  match fuel with
  | 0 => none
  | fuel + 1 =>
    match cs.dropWhile isSpace with
    | '"' :: rest => do
      let (key, rest) ← readText [] rest
      match rest.dropWhile isSpace with
      | ':' :: rest =>
        let (value, rest) ← readValue fuel depth rest
        match rest.dropWhile isSpace with
        | ',' :: rest =>
          let (fields, rest) ← readFields fuel depth rest
          return ((key, value) :: fields, rest)
        | '}' :: rest => return ([(key, value)], rest)
        | _ => none
      | _ => none
    | _ => none
end

/-- The depth that the arrays and objects of a document usually stay below. -/
def usualDepth : Nat := 128

/-- Reads a document whose arrays and objects nest less than `depth` levels deep. -/
def parse? (depth : Nat) (text : String) : Option Json :=
  let cs := text.toList
  match readValue (2 * cs.length + 1) depth cs with
  | some (j, rest) => if rest.all isSpace then some j else none
  | none => none

end Json

end CallGuard
