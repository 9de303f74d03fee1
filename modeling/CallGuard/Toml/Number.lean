import CallGuard.Text.Basic

/-!
# Numbers, dates and times

Integers fit signed 64 bits and are written in base ten, with a sign if wanted, or in base sixteen,
eight or two. Of floating-point numbers, dates and times only the form is decided.
-/

namespace CallGuard.Toml

/-- Whether a digit belongs to numbers in this base, which is at most sixteen. -/
def isDigitIn (base : Nat) (c : Char) : Bool :=
  match Text.hexDigit? c with
  | some d => decide (d < base)
  | none => false

/-- Whether characters are digits with single underscores between them. -/
def isDigitRun (base : Nat) : List Char → Bool
  | [] => false
  | [c] => isDigitIn base c
  | c :: '_' :: rest => isDigitIn base c && isDigitRun base rest
  | c :: rest => isDigitIn base c && isDigitRun base rest

/-- The number that digits make, where underscores do not count. -/
def digitsValue (base : Nat) (digits : List Char) : Nat :=
  (digits.filterMap Text.hexDigit?).foldl (fun n d => base * n + d) 0

/-- The number that is written in this base. -/
def natural? (base : Nat) (cs : List Char) : Option Nat :=
  if isDigitRun base cs then some (digitsValue base cs) else none

/-- A sign, if there is one, and the rest: whether the sign is a minus. -/
def splitSign : List Char → Bool × List Char
  | '+' :: rest => (false, rest)
  | '-' :: rest => (true, rest)
  | cs => (false, cs)

/-- Whether characters are a number in base ten that only begins with zero if it is zero. -/
def isPlain (cs : List Char) : Bool :=
  isDigitRun 10 cs && (cs.length == 1 || cs.head? != some '0')

/-- The integer that characters write, if it fits signed 64 bits. -/
def integer? (cs : List Char) : Option Int := do
  let n : Int ←
    match cs with
    | '0' :: 'x' :: digits => natural? 16 digits
    | '0' :: 'o' :: digits => natural? 8 digits
    | '0' :: 'b' :: digits => natural? 2 digits
    | cs =>
      let (negative, digits) := splitSign cs
      if isPlain digits then
        let n : Int := digitsValue 10 digits
        some (if negative then -n else n)
      else none
  if -0x8000000000000000 ≤ n ∧ n < 0x8000000000000000 then some n else none

/-- The parts of a floating-point number: its digits before and after the point, and the power of
ten that it is multiplied by. -/
structure Decimal where
  negative : Bool
  whole : List Char
  fraction : List Char
  exponent : Int

/-- Whether a character stands in a run of digits in base ten. -/
def isRunChar (c : Char) : Bool := isDigitIn 10 c || c == '_'

/-- The exponent that characters write. -/
def exponent? : List Char → Option Int
  | 'e' :: rest => signed rest
  | 'E' :: rest => signed rest
  | _ => none
where
  signed (cs : List Char) : Option Int := do
    let (negative, digits) := splitSign cs
    let n ← natural? 10 digits
    return if negative then -n else n

/-- The floating-point number that characters write: with a point, an exponent or both. -/
def decimal? (cs : List Char) : Option Decimal := do
  let (negative, body) := splitSign cs
  let whole := body.takeWhile isRunChar
  if !isPlain whole then none
  match body.dropWhile isRunChar with
  | '.' :: rest =>
    let fraction := rest.takeWhile isRunChar
    if !isDigitRun 10 fraction then none
    match rest.dropWhile isRunChar with
    | [] => return ⟨negative, whole, fraction, 0⟩
    | rest => return ⟨negative, whole, fraction, ← exponent? rest⟩
  | rest => return ⟨negative, whole, [], ← exponent? rest⟩

/-- The least number that is nearer to two to the power 1024 than to any double. -/
def doubleBound : Nat := (Nat.pow 2 54 - 1) * Nat.pow 2 970

/-- Whether the number has no finite double near it, its sign apart. It is decided by the place of
the leading digit, and by the digits only where that place is the one of `doubleBound`. -/
def Decimal.isHuge (x : Decimal) : Bool :=
  let fraction := x.fraction.filterMap Text.hexDigit?
  let digits := (x.whole.filterMap Text.hexDigit? ++ fraction).dropWhile (· == 0)
  let n := digits.foldl (fun n d => 10 * n + d) 0
  let scale : Int := x.exponent - fraction.length
  let places : Int := digits.length + scale
  if digits.isEmpty || places < 309 then false
  else if 309 < places then true
  else
    match scale with
    | .ofNat e => decide (doubleBound ≤ n * Nat.pow 10 e)
    | .negSucc e => decide (doubleBound * Nat.pow 10 (e + 1) ≤ n)

/-- Whether characters write a floating-point number. A positive one that is too large for a double
is refused; a negative one counts as negative infinity. -/
def isFloat (cs : List Char) : Bool :=
  let body := (splitSign cs).2
  body == ['i', 'n', 'f'] || body == ['n', 'a', 'n']
    || match decimal? cs with
      | some x => x.negative || !x.isHuge
      | none => false

/-- The number that plain digits make. -/
def digits? (cs : List Char) : Option Nat :=
  if cs.all (isDigitIn 10) then some (digitsValue 10 cs) else none

/-- Whether two characters make a number of at most `most`. -/
def isUpTo (most : Nat) (a b : Char) : Bool := (digits? [a, b]).any (· ≤ most)

/-- The number of days in a month of a year. -/
def daysIn (year month : Nat) : Nat :=
  if month = 2 then
    if year % 4 = 0 ∧ (year % 100 ≠ 0 ∨ year % 400 = 0) then 29 else 28
  else if month ∈ [4, 6, 9, 11] then 30
  else 31

/-- Whether characters write a date. -/
def isDate : List Char → Bool
  | [a, b, c, d, '-', e, f, '-', g, h] =>
    match digits? [a, b, c, d], digits? [e, f], digits? [g, h] with
    | some year, some month, some day =>
      decide (1 ≤ month ∧ month ≤ 12 ∧ 1 ≤ day ∧ day ≤ daysIn year month)
    | _, _, _ => false
  | _ => false

/-- Whether characters write a time of day. The second may be a leap second. -/
def isTime : List Char → Bool
  | a :: b :: ':' :: c :: d :: ':' :: e :: f :: rest =>
    isUpTo 23 a b && isUpTo 59 c d && isUpTo 60 e f
      && match rest with
        | [] => true
        | '.' :: digits => !digits.isEmpty && digits.all (isDigitIn 10)
        | _ => false
  | _ => false

/-- Whether characters write a distance from universal time. -/
def isOffset : List Char → Bool
  | ['Z'] => true
  | ['z'] => true
  | ['+', a, b, ':', c, d] => isUpTo 23 a b && isUpTo 59 c d
  | ['-', a, b, ':', c, d] => isUpTo 23 a b && isUpTo 59 c d
  | _ => false

/-- Whether characters write a time of day, perhaps with a distance from universal time. -/
def isMoment (cs : List Char) : Bool :=
  let isTimeChar : Char → Bool := fun c => isDigitIn 10 c || c == ':' || c == '.'
  let offset := cs.dropWhile isTimeChar
  isTime (cs.takeWhile isTimeChar) && (offset.isEmpty || isOffset offset)

/-- Whether characters without a blank write a date, a time or both. -/
def isDateTime (cs : List Char) : Bool :=
  isDate cs || isTime cs
    || (isDate (cs.take 10)
      && match cs.drop 10 with
        | 'T' :: rest => isMoment rest
        | 't' :: rest => isMoment rest
        | _ => false)

end CallGuard.Toml
