import CallGuard.Toml.Basic
import CallGuard.Toml.Number
import CallGuard.Toml.Text

/-!
# Documents in TOML

`parse?` reads a document into its entries. How many parts a key has and how deeply arrays and
inline tables nest is bounded by `maxDepth`.
-/

namespace CallGuard.Toml

/-- How many parts a key may have, and how many arrays and inline tables may stand in each other. -/
def maxDepth : Nat := 79

/-- Whether a character may stand in a value without quotes. -/
def isWordChar (c : Char) : Bool := isKeyChar c || c == '.' || c == '+' || c == ':'

/-- The item that a word without quotes stands for. -/
def wordItem? (word : List Char) : Option Item :=
  if word == ['t', 'r', 'u', 'e'] then some (.bool true)
  else if word == ['f', 'a', 'l', 's', 'e'] then some (.bool false)
  else if isFloat word || isDateTime word then some .other
  else (integer? word).map .integer

/-- Reads an item that is a word. A date and a time may have one blank between them. -/
def readWord (cs : List Char) : Option (Item × List Char) := do
  let word := cs.takeWhile isWordChar
  let item ← wordItem? word
  match isDate word, cs.dropWhile isWordChar with
  | true, ' ' :: c :: rest =>
    if c.isDigit then
      if isMoment ((c :: rest).takeWhile isWordChar) then
        return (item, (c :: rest).dropWhile isWordChar)
      else none
    else return (item, ' ' :: c :: rest)
  | _, rest => return (item, rest)

/-- Reads an item that holds no others. -/
def readScalar : List Char → Option (Item × List Char)
  | '"' :: rest => (readText ('"' :: rest)).map fun (s, rest) => (.text s, rest)
  | '\'' :: rest => (readText ('\'' :: rest)).map fun (s, rest) => (.text s, rest)
  | cs => readWord cs

/-- Reads the items of an array up to its bracket. A comma may follow the last. -/
def readElements (readItem : List Char → Option (Item × List Char)) :
    (fuel : Nat) → List Char → Option (List Item × List Char)
  | 0, _ => none
  | fuel + 1, cs =>
    match skipLines cs.length cs with
    | ']' :: rest => some ([], rest)
    | cs => do
      let (item, rest) ← readItem cs
      match skipLines rest.length rest with
      | ',' :: rest =>
        let (items, rest) ← readElements readItem fuel rest
        return (item :: items, rest)
      | ']' :: rest => return ([item], rest)
      | _ => none

/-- Reads a key, the sign after it, and its item. -/
def readSetting (readItem : List Char → Option (Item × List Char)) (cs : List Char) :
    Option ((List String × Item) × List Char) := do
  let (key, rest) ← readKey maxDepth cs
  match rest with
  | '=' :: rest =>
    let (item, rest) ← readItem (skipGap rest)
    return ((key, item), rest)
  | _ => none

/-- Reads the settings of an inline table up to its brace. No comma follows the last. -/
def readSettings (readItem : List Char → Option (Item × List Char)) :
    (fuel : Nat) → List Char → Option (Settings × List Char)
  | 0, _ => none
  | fuel + 1, cs => do
    let (setting, rest) ← readSetting readItem cs
    match skipGap rest with
    | ',' :: rest =>
      let (settings, rest) ← readSettings readItem fuel rest
      return (setting :: settings, rest)
    | '}' :: rest => return ([setting], rest)
    | _ => none

/-- Reads an item in which arrays and inline tables nest at most `depth` deep. -/
def readItem : (depth : Nat) → List Char → Option (Item × List Char)
  | 0, cs => readScalar cs
  | depth + 1, '[' :: rest => do
    let (items, rest) ← readElements (readItem depth) (rest.length + 1) rest
    return (.array items, rest)
  | depth + 1, '{' :: rest =>
    match skipGap rest with
    | '}' :: rest => some (.table .inline [], rest)
    | rest => do
      let (settings, rest) ← readSettings (readItem depth) (rest.length + 1) rest
      return (.table .inline (← Entries.setAll [] settings), rest)
  | _ + 1, cs => readScalar cs

/-- Reads the header of a section. -/
def readHeader : List Char → Option (Header × List Char)
  | '[' :: '[' :: rest => do
    let (path, rest) ← readKey maxDepth rest
    match rest with
    | ']' :: ']' :: rest => return (⟨true, path⟩, rest)
    | _ => none
  | '[' :: rest => do
    let (path, rest) ← readKey maxDepth rest
    match rest with
    | ']' :: rest => return (⟨false, path⟩, rest)
    | _ => none
  | _ => none

/-- Reads one line with its end. -/
def readLine (cs : List Char) : Option (Line × List Char) :=
  match skipLineEnd cs with
  | some rest => some (.blank, rest)
  | none =>
    match skipGap cs with
    | '[' :: rest => do
      let (h, rest) ← readHeader ('[' :: rest)
      return (.header h, ← skipLineEnd rest)
    | cs => do
      let ((key, item), rest) ← readSetting (readItem maxDepth) cs
      return (.setting key item, ← skipLineEnd rest)

/-- Reads the lines of a document. -/
def readLines : (fuel : Nat) → List Char → Option (List Line)
  | _, [] => some []
  | 0, _ => none
  | fuel + 1, cs => do
    let (line, rest) ← readLine cs
    return line :: (← readLines fuel rest)

/-- Reads a document. A byte order mark may stand before it. -/
def parse? (text : String) : Option Entries := do
  let cs :=
    match text.toList with
    | '\ufeff' :: rest => rest
    | cs => cs
  Entries.ofLines? (← readLines cs.length cs)

end CallGuard.Toml
