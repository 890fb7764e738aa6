import TextTemplate.Text
import TextTemplate.Number.Binary64
import TextTemplate.Number.Shortest

namespace TextTemplate

namespace Number

structure Numeral where
  negative : Bool
  whole : Text
  fraction : Option Text
  exponent : Option (Bool × Text)
  deriving DecidableEq

namespace Numeral

def takeSign : Text → Bool × Text
  | '-' :: rest => (true, rest)
  | '+' :: rest => (false, rest)
  | rest => (false, rest)

def takeExponent : Text → Option (Option (Bool × Text))
  | [] => some none
  | c :: rest =>
      if c = 'e' ∨ c = 'E' then
        let (negative, digits) := takeSign rest
        if digits ≠ [] ∧ digits.all Char.isDigit then some (some (negative, digits)) else none
      else none

def ofText? (t : Text) : Option Numeral :=
  let (negative, rest) := takeSign t
  let (whole, rest) := Text.takeDigits rest
  let (fraction, rest) := match rest with
    | '.' :: rest => (some (Text.takeDigits rest).1, (Text.takeDigits rest).2)
    | rest => (none, rest)
  if whole = [] ∧ fraction.getD [] = [] then none
  else (takeExponent rest).map (Numeral.mk negative whole fraction ·)

def power (n : Numeral) : Int :=
  match n.exponent with
  | none => 0
  | some (true, digits) => -(Text.toNat digits : Int)
  | some (false, digits) => Text.toNat digits

/--
The number nearest to the decimal. Far outside the range of magnitudes the answer is known from the number of
digits alone: infinite above it, zero below it.
-/
def value (n : Numeral) : Binary64 :=
  let fraction := n.fraction.getD []
  let digits := Text.toNat (n.whole ++ fraction)
  let exponent := n.power - fraction.length
  let top := (Text.ofNat digits).length + exponent
  if digits = 0 ∨ top < -400 then { Binary64.zero with negative := n.negative }
  else if 400 < top then ⟨n.negative, infinity, Nat.le_refl _⟩
  else Binary64.ofDecimal n.negative digits exponent

end Numeral

def Binary64.ofText? (t : Text) : Option Binary64 := (Numeral.ofText? t).map Numeral.value

end Number

inductive Number where
  | int (i : Int)
  | float (x : Number.Binary64)
  deriving DecidableEq, Repr

namespace Number

def toBinary64 : Number → Binary64
  | int i => .ofInt i
  | float x => x

def plainText : Number → Text
  | int i => Text.ofInt i
  | float x => x.plainText

def documentText : Number → Text
  | int i => Text.ofInt i
  | float x => x.documentText

end Number

end TextTemplate
