import TextTemplate.Number

namespace TextTemplate.Json.Numeral
open Number (Binary64)

def significandMax : Nat := twoTo 64 - 1

def extend? (significand : Nat) (digit : Char) : Option Nat :=
  let longer := 10 * significand + Text.toNat [digit]
  if longer ≤ significandMax then some longer else none

def gather (significand : Nat) : Text → Nat × Nat
  | [] => (significand, 0)
  | digit :: rest =>
      match extend? significand digit with
      | some longer => gather longer rest
      | none => (significand, rest.length + 1)

def powerMax : Int := 308

def powerOfTen (exponent : Nat) : Binary64 := Binary64.ofDecimal false 1 exponent

def scale (x : Binary64) (exponent : Int) : Nat → Option Binary64
  | 0 => some x
  | steps + 1 =>
      if 0 ≤ exponent ∧ exponent ≤ powerMax then
        let scaled := x.mul (powerOfTen exponent.toNat)
        if scaled.isInfinite then none else some scaled
      else if -powerMax ≤ exponent ∧ exponent < 0 then some (x.div (powerOfTen (-exponent).toNat))
      else if x.magnitude = 0 then some x
      else if 0 ≤ exponent then none
      else scale (x.div (powerOfTen powerMax.toNat)) (exponent + powerMax) steps

def scaled? (negative : Bool) (significand : Nat) (exponent : Int) : Option Number :=
  (scale (Binary64.ofInt significand) exponent 4).map fun x => .float (if negative then x.neg else x)

structure Parts where
  negative : Bool
  significand : Nat
  exponent : Int
  integral : Bool

def Parts.plain? (p : Parts) : Option Number :=
  if p.integral then
    if !p.negative then some (.int p.significand)
    else if 0 < p.significand ∧ p.significand ≤ twoTo 63 then some (.int (-p.significand))
    else some (.float (Binary64.ofInt p.significand).neg)
  else scaled? p.negative p.significand p.exponent

def Parts.withExponent? (p : Parts) (negative : Bool) (digits : Text) : Option Number :=
  let power : Int := Text.toNat digits
  if power < twoTo 31 then scaled? p.negative p.significand (p.exponent + if negative then -power else power)
  else if p.significand ≠ 0 ∧ !negative then none
  else some (.float { Binary64.zero with negative := p.negative })

def whole? : Text → Option (Text × Text)
  | '0' :: rest => if (rest.head?.map Char.isDigit) = some true then none else some (['0'], rest)
  | rest => Text.digits? rest

def parts (negative : Bool) (whole : Text) (fraction : Option Text) : Parts :=
  let (significand, overflow) := gather 0 whole
  match fraction with
  | none => ⟨negative, significand, overflow, overflow = 0⟩
  | some digits =>
      let (longer, dropped) := gather significand digits
      ⟨negative, longer, overflow - (digits.length - dropped : Nat), false⟩

def fraction? : Text → Option (Option Text × Text)
  | '.' :: rest => (Text.digits? rest).map fun (digits, rest) => (some digits, rest)
  | rest => some (none, rest)

def exponent? : Text → Option (Option (Bool × Text) × Text)
  | c :: rest =>
      if c = 'e' ∨ c = 'E' then do
        let (negative, rest) := Number.Numeral.takeSign rest
        let (digits, rest) ← Text.digits? rest
        return (some (negative, digits), rest)
      else some (none, c :: rest)
  | [] => some (none, [])

def pieces? (t : Text) : Option (Number.Numeral × Text) := do
  let (negative, rest) := match t with
    | '-' :: rest => (true, rest)
    | rest => (false, rest)
  let (whole, rest) ← whole? rest
  let (fraction, rest) ← fraction? rest
  let (exponent, rest) ← exponent? rest
  return (⟨negative, whole, fraction, exponent⟩, rest)

def value? (n : Number.Numeral) : Option Number :=
  let parts := parts n.negative n.whole n.fraction
  match n.exponent with
  | none => parts.plain?
  | some (negative, digits) => parts.withExponent? negative digits

def read? (t : Text) : Option (Number × Text) := do
  let (pieces, rest) ← pieces? t
  return (← value? pieces, rest)

end TextTemplate.Json.Numeral
