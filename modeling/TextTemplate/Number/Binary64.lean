/-!
# Binary floating-point numbers

A number of 64 bits is a sign and the place of its magnitude among all magnitudes in ascending order: zero is 0,
the smallest magnitude above it is 1, and infinity comes last. Every finite magnitude is a whole number of quanta
of 2 to the -1074, so sums, products and comparisons of magnitudes are exact in the natural numbers, and an
operation rounds once, to the nearest magnitude and to the even place on a tie.
-/

namespace TextTemplate

def twoTo (exponent : Nat) : Nat := Nat.pow 2 exponent

def tenTo (exponent : Nat) : Nat := Nat.pow 10 exponent

def isInt64 (i : Int) : Bool := -(twoTo 63 : Int) ≤ i && i < twoTo 63

namespace Number

def infinity : Nat := 0x7FF * twoTo 52

structure Binary64 where
  negative : Bool
  magnitude : Nat
  magnitude_le : magnitude ≤ infinity
  deriving DecidableEq, Repr

namespace Binary64

/-- Quanta of the magnitude at a place: 52 bits of fraction under the exponent bits. -/
def quanta (place : Nat) : Nat :=
  if place / twoTo 52 = 0 then place
  else (twoTo 52 + place % twoTo 52) * twoTo (place / twoTo 52 - 1)

inductive Tie where
  | toEven
  | up
  deriving DecidableEq, Repr

def Tie.leaves (tie : Tie) (below : Nat) : Bool :=
  match tie with
  | .toEven => below % 2 = 1
  | .up => true

def roundDiv (tie : Tie) (num den : Nat) : Nat :=
  let quotient := num / den
  let twice := 2 * (num % den)
  if den < twice ∨ (twice = den ∧ tie.leaves quotient) then quotient + 1 else quotient

def nearestPlace (num den : Nat) : Nat :=
  let scaled := num * twoTo 1074
  let shift := (scaled / den).log2 - 52
  shift * twoTo 52 + roundDiv .toEven scaled (den * twoTo shift)

def ofQuotient (negative : Bool) (num den : Nat) : Binary64 :=
  ⟨negative, min (nearestPlace num den) infinity, Nat.min_le_right _ _⟩

def ofInt (i : Int) : Binary64 := ofQuotient (i < 0) i.natAbs 1

def zero : Binary64 := ⟨false, 0, Nat.zero_le _⟩

def one : Binary64 := ofInt 1

def ofDecimal (negative : Bool) (digits : Nat) (exponent : Int) : Binary64 :=
  match exponent with
  | .ofNat e => ofQuotient negative (digits * tenTo e) 1
  | .negSucc e => ofQuotient negative digits (tenTo (e + 1))

def mul (x y : Binary64) : Binary64 :=
  ofQuotient (x.negative != y.negative) (quanta x.magnitude * quanta y.magnitude) (twoTo 2148)

def div (x y : Binary64) : Binary64 :=
  ofQuotient (x.negative != y.negative) (quanta x.magnitude) (quanta y.magnitude)

def neg (x : Binary64) : Binary64 := { x with negative := !x.negative }

def isInfinite (x : Binary64) : Bool := x.magnitude = infinity

def key (x : Binary64) : Int := if x.negative then -x.magnitude else x.magnitude

def same (x y : Binary64) : Bool := x.key = y.key

def order (x y : Binary64) : Ordering := compare x.key y.key

end Binary64

end Number

end TextTemplate
