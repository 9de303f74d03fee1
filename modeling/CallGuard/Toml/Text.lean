import CallGuard.Text.Basic

/-!
# Gaps, keys and texts

The characters of a document outside numbers: what separates the parts of a line, keys, and the four
kinds of quoted text. A reader takes the characters ahead and gives what it read with the rest.
-/

namespace CallGuard.Toml

/-- Whether a character may stand between the parts of a line. -/
def isGap (c : Char) : Bool := c == ' ' || c == '\t'

/-- Whether a character may not stand in texts and comments. -/
def isControl (c : Char) : Bool :=
  (c.toNat < 0x20 && c != '\t') || c.toNat == 0x7F

/-- Whether a character may stand in a bare key. -/
def isKeyChar (c : Char) : Bool :=
  ('a' ≤ c && c ≤ 'z') || ('A' ≤ c && c ≤ 'Z') || c.isDigit || c == '_' || c == '-'

/-- Skips the gap between two parts of a line. -/
def skipGap (cs : List Char) : List Char := cs.dropWhile isGap

/-- The characters after a line break, if they begin with one. -/
def afterBreak? : List Char → Option (List Char)
  | '\n' :: rest => some rest
  | '\r' :: '\n' :: rest => some rest
  | _ => none

/-- Skips a comment, if there is one. -/
def skipComment : List Char → List Char
  | '#' :: rest => rest.dropWhile fun c => !isControl c
  | cs => cs

/-- Skips the end of a line: a gap, a comment and a line break, or the end of the document. -/
def skipLineEnd (cs : List Char) : Option (List Char) :=
  match skipComment (skipGap cs) with
  | [] => some []
  | rest => afterBreak? rest

/-- Skips gaps, comments and line breaks. -/
def skipLines : (fuel : Nat) → List Char → List Char
  | 0, cs => cs
  | fuel + 1, cs =>
    let rest := skipComment (skipGap cs)
    match afterBreak? rest with
    | some rest => skipLines fuel rest
    | none => rest

/-- The character that a one-letter escape stands for. -/
def escape? : Char → Option Char
  | 'b' => some (Char.ofNat 8)
  | 't' => some '\t'
  | 'n' => some '\n'
  | 'f' => some (Char.ofNat 12)
  | 'r' => some '\r'
  | '"' => some '"'
  | '\\' => some '\\'
  | _ => none

/-- Reads the rest of a text after its double quote; `acc` holds what was read, latest first. -/
def readBasic (acc : List Char) : List Char → Option (String × List Char)
  | '"' :: rest => some (String.ofList acc.reverse, rest)
  | '\\' :: 'u' :: a :: b :: c :: d :: rest => do
    let ch ← Text.char? (← Text.hex? [a, b, c, d])
    readBasic (ch :: acc) rest
  | '\\' :: 'U' :: a :: b :: c :: d :: e :: f :: g :: h :: rest => do
    let ch ← Text.char? (← Text.hex? [a, b, c, d, e, f, g, h])
    readBasic (ch :: acc) rest
  | '\\' :: e :: rest => do
    let ch ← escape? e
    readBasic (ch :: acc) rest
  | c :: rest => if isControl c then none else readBasic (c :: acc) rest
  | [] => none

/-- Reads the rest of a text after its single quote. Nothing is escaped in it. -/
def readLiteral (acc : List Char) : List Char → Option (String × List Char)
  | '\'' :: rest => some (String.ofList acc.reverse, rest)
  | c :: rest => if isControl c then none else readLiteral (c :: acc) rest
  | [] => none

/-- Ends a text of several lines after the three quotes that close it. One or two more quotes that
follow belong to the text: of a run of quotes the last three close it. -/
def closeLines (quote : Char) (acc : List Char) (cs : List Char) : String × List Char :=
  let extra := (cs.take 2).takeWhile (· == quote)
  (String.ofList (acc.reverse ++ extra), cs.drop extra.length)

/-- Whether only a gap is left of the line. -/
def endsLine (cs : List Char) : Bool := (afterBreak? (skipGap cs)).isSome

/-- Reads the rest of a text after three double quotes. A line break counts as one character. A
backslash at the end of a line joins it to the next: gaps and line breaks are skipped up to the next
other character, which is what `joining` stands for. -/
def readBasicLines (acc : List Char) (joining : Bool) : List Char → Option (String × List Char)
  | '"' :: '"' :: '"' :: rest => some (closeLines '"' acc rest)
  | '\\' :: 'u' :: a :: b :: c :: d :: rest => do
    let ch ← Text.char? (← Text.hex? [a, b, c, d])
    readBasicLines (ch :: acc) false rest
  | '\\' :: 'U' :: a :: b :: c :: d :: e :: f :: g :: h :: rest => do
    let ch ← Text.char? (← Text.hex? [a, b, c, d, e, f, g, h])
    readBasicLines (ch :: acc) false rest
  | '\\' :: e :: rest =>
    if endsLine (e :: rest) then readBasicLines acc true (e :: rest)
    else do
      let ch ← escape? e
      readBasicLines (ch :: acc) false rest
  | '\r' :: '\n' :: rest => readBasicLines (if joining then acc else '\n' :: acc) joining rest
  | '\n' :: rest => readBasicLines (if joining then acc else '\n' :: acc) joining rest
  | c :: rest =>
    if isControl c then none
    else if joining && isGap c then readBasicLines acc true rest
    else readBasicLines (c :: acc) false rest
  | [] => none

/-- Reads the rest of a text after three single quotes. Nothing is escaped in it, and a line break
counts as one character. -/
def readLiteralLines (acc : List Char) : List Char → Option (String × List Char)
  | '\'' :: '\'' :: '\'' :: rest => some (closeLines '\'' acc rest)
  | '\r' :: '\n' :: rest => readLiteralLines ('\n' :: acc) rest
  | '\n' :: rest => readLiteralLines ('\n' :: acc) rest
  | c :: rest => if isControl c then none else readLiteralLines (c :: acc) rest
  | [] => none

/-- Skips a line break right after the quotes that open a text of several lines. -/
def skipFirstBreak (cs : List Char) : List Char := (afterBreak? cs).getD cs

/-- Reads a quoted text. -/
def readText : List Char → Option (String × List Char)
  | '"' :: '"' :: '"' :: rest => readBasicLines [] false (skipFirstBreak rest)
  | '"' :: rest => readBasic [] rest
  | '\'' :: '\'' :: '\'' :: rest => readLiteralLines [] (skipFirstBreak rest)
  | '\'' :: rest => readLiteral [] rest
  | _ => none

/-- Reads one part of a key. -/
def readKeyPart : List Char → Option (String × List Char)
  | '"' :: rest => readBasic [] rest
  | '\'' :: rest => readLiteral [] rest
  | cs =>
    match cs.takeWhile isKeyChar with
    | [] => none
    | key => some (String.ofList key, cs.dropWhile isKeyChar)

/-- Reads a key of at most `most` parts, with dots between them and gaps around the dots. -/
def readKey : (most : Nat) → List Char → Option (List String × List Char)
  | 0, _ => none
  | most + 1, cs => do
    let (part, rest) ← readKeyPart (skipGap cs)
    match skipGap rest with
    | '.' :: rest =>
      let (parts, rest) ← readKey most rest
      return (part :: parts, rest)
    | rest => return ([part], rest)

end CallGuard.Toml
