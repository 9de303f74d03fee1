/-!
# Numbers in JSON

An integer that fits 64 bits, signed or unsigned, is kept exactly. Every other number becomes a
double: as many leading digits as fit an unsigned 64-bit word are taken, and that word is multiplied
or divided by one power of ten. The sign of a negative zero is kept, which makes it a double too.
-/

namespace CallGuard.Json

/-- The value of a number. -/
inductive Number where
  | int (n : Int)
  | float (x : Float)

/-- The parts of a written number: sign, digits before and after the point, and exponent. -/
structure Numeral where
  negative : Bool
  whole : List Nat
  fraction : List Nat
  exponent : Option Int

/-- The largest unsigned 64-bit word. -/
def maxWord : Nat := UInt64.size - 1

/-- Appends digits to a number as long as it fits 64 bits, and gives the digits that are left. -/
def appendDigits (n : Nat) : List Nat → Nat × List Nat
  | [] => (n, [])
  | d :: ds => if 10 * n + d ≤ maxWord then appendDigits (10 * n + d) ds else (n, d :: ds)

/-- Ten to the power `n` as a double. -/
def powerOfTen (n : Nat) : Float := Float.ofScientific 1 false n

/-- Divides a double by ten to the power `e`, by at most 308 places at a time. -/
def divideByTens (x : Float) (e : Nat) : Float :=
  if e ≤ 308 then x / powerOfTen e
  else if x == 0 then x
  else divideByTens (x / powerOfTen 308) (e - 308)
termination_by e

/-- A word times a power of ten as a double, if it is finite. -/
def scaled (word : Nat) (exponent : Int) : Option Float :=
  let x := (UInt64.ofNat word).toFloat
  match exponent with
  | .ofNat e =>
    if e ≤ 308 then
      let y := x * powerOfTen e
      if y.isInf then none else some y
    else if x == 0 then some x
    else none
  | .negSucc e => some (divideByTens x (e + 1))

/-- The value of a written number. One that is too large for a double has none. -/
def Numeral.value (n : Numeral) : Option Number :=
  let (word, dropped) := appendDigits 0 n.whole
  if n.fraction.isEmpty && n.exponent.isNone && dropped.isEmpty then
    if !n.negative then some (.int word)
    else if word == 0 || 0x8000000000000000 < word then
      some (.float (-(UInt64.ofNat word).toFloat))
    else some (.int (-(word : Int)))
  else
    let (word, unread) := appendDigits word n.fraction
    let places : Int := dropped.length - (n.fraction.length - unread.length : Nat)
    (scaled word (places + n.exponent.getD 0)).map fun x => .float (if n.negative then -x else x)

end CallGuard.Json
