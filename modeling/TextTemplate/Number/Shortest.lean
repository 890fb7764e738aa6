import TextTemplate.Text
import TextTemplate.Number.Binary64

namespace TextTemplate.Number

structure Decimal where
  digits : Nat
  exponent : Int
  deriving DecidableEq, Repr

namespace Decimal

/--
The point of the grid of ten to the `exponent` nearest to the magnitude at a place, if one of its two neighbours
there reads back as that magnitude; of two equally near points the `tie` chooses. The ends of the interval are
halfway to the neighbouring places and belong to the even place.
-/
def onGrid (tie : Binary64.Tie) (place : Nat) (exponent : Int) : Option Decimal :=
  let twice := 2 * Binary64.quanta place
  let low := Binary64.quanta (place - 1) + Binary64.quanta place
  let high := Binary64.quanta place + Binary64.quanta (place + 1)
  let num := twoTo 1075 * tenTo exponent.toNat
  let den := tenTo (-exponent).toNat
  let reads (k : Nat) : Bool :=
    if place % 2 = 0 then low * den ≤ k * num ∧ k * num ≤ high * den
    else low * den < k * num ∧ k * num < high * den
  let below := twice * den / num
  let nearer := Binary64.roundDiv tie (twice * den) num
  if reads nearer then some ⟨nearer, exponent⟩
  else if reads below then some ⟨below, exponent⟩
  else if reads (below + 1) then some ⟨below + 1, exponent⟩
  else none

def above (place : Nat) : Int :=
  let bits : Int := (Binary64.quanta place).log2 - 1073
  Int.fdiv (bits * 30103) 100000 + 1

def shortest (tie : Binary64.Tie) (place : Nat) : Decimal :=
  ((List.range 20).findSome? fun (step : Nat) => onGrid tie place (above place - step)).getD ⟨0, 0⟩

def layout (d : Decimal) : Text × Int :=
  let digits := Text.ofNat d.digits
  (digits, digits.length + d.exponent)

def positional (whole : Text) (d : Decimal) : Text :=
  let (digits, point) := d.layout
  if point ≤ 0 then '0' :: '.' :: List.replicate (-point).toNat '0' ++ digits
  else if point < digits.length then digits.take point.toNat ++ '.' :: digits.drop point.toNat
  else digits ++ List.replicate (point.toNat - digits.length) '0' ++ whole

def scientific (d : Decimal) : Text :=
  let (digits, point) := d.layout
  let fraction := digits.drop 1
  let sign := if point < 1 then '-' else '+'
  digits.take 1 ++ (if fraction = [] then [] else '.' :: fraction) ++
    'e' :: sign :: Text.ofNat (point - 1).natAbs

end Decimal

namespace Binary64

def signed (x : Binary64) (magnitude : Text) : Text := if x.negative then '-' :: magnitude else magnitude

def plainText (x : Binary64) : Text :=
  x.signed <|
    if x.magnitude = 0 then ['0']
    else if x.isInfinite then "inf".toList
    else (Decimal.shortest .up x.magnitude).positional []

def documentText (x : Binary64) : Text :=
  x.signed <|
    if x.magnitude = 0 then "0.0".toList
    else
      let d := Decimal.shortest .toEven x.magnitude
      let point := d.layout.2
      if -5 < point ∧ point ≤ 16 then d.positional ".0".toList else d.scientific

end Binary64

end TextTemplate.Number
