import TextTemplate.Value
import TextTemplate.Text

namespace TextTemplate

namespace Value
open Number (Binary64)

def truthy : Option Value → Bool
  | none | some null => false
  | some (bool b) => b
  | some (number n) => n.toBinary64.magnitude ≠ 0
  | some (text t) => t ≠ []
  | some (array _) | some (object _) => true

def isNumeric (c : Char) : Bool := c.isDigit || c ∈ ['.', '-', '+', 'e', 'E']

def textNumber? (t : Text) : Option Binary64 :=
  if t.trim = [] then some .zero
  else if t.trim.all isNumeric then Binary64.ofText? t.trim
  else none

def toNumber? : Option Value → Option Binary64
  | none | some (array _) | some (object _) => none
  | some null => some .zero
  | some (bool b) => some (if b then .one else .zero)
  | some (number n) => some n.toBinary64
  | some (text t) => textNumber? t

def strictEq : Option Value → Option Value → Bool
  | none, none => true
  | some (number m), some (number n) => m.toBinary64.same n.toBinary64
  | some v, some w => same v w
  | _, _ => false

def isNullish : Option Value → Bool
  | none | some null => true
  | _ => false

def isContainer : Option Value → Bool
  | some (array _) | some (object _) => true
  | _ => false

def numericEq (v w : Option Value) : Bool :=
  match toNumber? v, toNumber? w with
  | some x, some y => x.same y
  | _, _ => false

def looseEq (v w : Option Value) : Bool :=
  if isNullish v || isNullish w then isNullish v && isNullish w
  else
    match v, w with
    | some (text t), some (text u) => t = u
    | _, _ => if isContainer v || isContainer w then strictEq v w else numericEq v w

/-- The order of two texts, else of the numbers both values convert to. -/
def order? : Option Value → Option Value → Option Ordering
  | some (text t), some (text u) => some (t.order u)
  | v, w =>
      match toNumber? v, toNumber? w with
      | some x, some y => some (x.order y)
      | _, _ => none

end Value

inductive Comparison where
  | strictEq | strictNe | looseEq | looseNe | le | ge | lt | gt
  deriving DecidableEq, Repr

namespace Comparison

def symbol : Comparison → Text
  | strictEq => "===".toList
  | strictNe => "!==".toList
  | looseEq => "==".toList
  | looseNe => "!=".toList
  | le => "<=".toList
  | ge => ">=".toList
  | lt => "<".toList
  | gt => ">".toList

def all : List Comparison := [strictEq, strictNe, looseEq, looseNe, le, ge, lt, gt]

def holds : Comparison → Option Value → Option Value → Bool
  | strictEq, v, w => Value.strictEq v w
  | strictNe, v, w => !Value.strictEq v w
  | looseEq, v, w => Value.looseEq v w
  | looseNe, v, w => !Value.looseEq v w
  | lt, v, w => Value.order? v w = some .lt
  | gt, v, w => Value.order? v w = some .gt
  | le, v, w => Value.order? v w = some .lt || Value.order? v w = some .eq
  | ge, v, w => Value.order? v w = some .gt || Value.order? v w = some .eq

end Comparison

end TextTemplate
