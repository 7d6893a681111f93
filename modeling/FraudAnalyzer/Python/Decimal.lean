import FraudAnalyzer.Python.Text
import Mathlib.Algebra.Group.Int.Defs

/-!
# Decimals

Finite `decimal.Decimal` values: a sign, a coefficient and an exponent, as `as_tuple` gives them.
Two of them can be one number, so comparison goes by `compareTo` and never by equality. `parse` is
the constructor on a text, which is exact: no context rounds it, and an exponent out of the type's
range is an error.
-/

namespace FraudAnalyzer.Python

structure Decimal where
  neg : Bool
  coeff : Nat
  exp : Int
  deriving DecidableEq

namespace Decimal

/-- `MAX_EMAX` -/
def maxEmax : Int := 999999999999999999

/-- `MIN_ETINY` -/
def minEtiny : Int := -1999999999999999997

/-- `as_tuple().digits` -/
def digits (d : Decimal) : List Char := d.coeff.repr.toList

/-- The constructor's range check. -/
def inRange (d : Decimal) : Bool :=
  decide (d.exp + d.digits.length - 1 ≤ maxEmax) && decide (minEtiny ≤ d.exp)

def ofInt (n : Int) : Decimal := ⟨decide (n < 0), n.natAbs, 0⟩

/-- The coefficient with its sign, over the power of ten `e`. -/
def scaled (d : Decimal) (e : Int) : Int :=
  (if d.neg then -1 else 1) * d.coeff * 10 ^ (d.exp - e).toNat

/-- Exact comparison. -/
def compareTo (a b : Decimal) : Ordering :=
  compare (a.scaled (min a.exp b.exp)) (b.scaled (min a.exp b.exp))

/-! ## The constructor on a text -/

/-- One character of the text: a decimal digit of any script counts as its value, an underscore is
left out (`none`); anything that is not ASCII else is an error. -/
def asciiOf (u : Unicode) (c : Char) : Option (Option Char) :=
  if c = '_' then some none
  else if 0 < c.toNat ∧ c.toNat ≤ 127 then some (some c)
  else (u.digit c).map fun d => some (Char.ofNat ('0'.toNat + d))

/-- The text without underscores, in ASCII. -/
def asciiText (u : Unicode) : List Char → Option (List Char)
  | [] => some []
  | c :: cs =>
    match asciiOf u c, asciiText u cs with
    | some none, some rest => some rest
    | some (some c), some rest => some (c :: rest)
    | _, _ => none

/-- The value of ASCII digits. -/
def digitsValue (cs : List Char) : Nat :=
  cs.foldl (fun n c => 10 * n + (c.toNat - '0'.toNat)) 0

/-- `[sign]`: whether it is a minus, and what follows. -/
def readSign : List Char → Bool × List Char
  | '-' :: cs => (true, cs)
  | '+' :: cs => (false, cs)
  | cs => (false, cs)

/-- The exponent part, up to the end of the text. -/
def readExponent : List Char → Option Int
  | [] => some 0
  | c :: cs =>
    if c = 'e' ∨ c = 'E' then
      let (neg, ds) := readSign cs
      if ds ≠ [] ∧ ds.all Char.isDigit then
        some (if neg then -(digitsValue ds : Int) else digitsValue ds)
      else none
    else none

/-- The fraction: the digits after a point, and what follows them. -/
def readFraction : List Char → List Char × List Char
  | '.' :: cs => (cs.takeWhile Char.isDigit, cs.dropWhile Char.isDigit)
  | cs => ([], cs)

/-- `Decimal(text)` for a text that is stripped; `none` also for NaN and the infinities, which no
caller lets through. -/
def parse (u : Unicode) (text : String) : Option Decimal := do
  let cs ← asciiText u text.toList
  let (neg, body) := readSign cs
  let whole := body.takeWhile Char.isDigit
  let (fraction, rest) := readFraction (body.dropWhile Char.isDigit)
  if whole = [] ∧ fraction = [] then none
  else
    let exponent ← readExponent rest
    let d : Decimal := ⟨neg, digitsValue (whole ++ fraction), exponent - fraction.length⟩
    if d.inRange then return d else none

end Decimal

end FraudAnalyzer.Python
