import TextTemplate.Value.Compare
import TextTemplate.Error
import TextTemplate.Text

namespace TextTemplate

structure Path where
  segments : List Text
  deriving DecidableEq, Repr

def Path.shown (p : Path) : Text := Text.join ['.'] p.segments

inductive Operand where
  | literal (v : Value)
  | path (p : Path)

inductive Condition where
  | compare (left : Path) (op : Comparison) (right : Operand)
  | truthy (path : Path) (negated : Bool)

inductive Expr where
  | operand (o : Operand)
  | condition (c : Condition)
  | ternary (c : Condition) (whenTrue whenFalse : Operand)

open Text.CharClass

def Path.opensIndex (t : Text) : Bool :=
  t.takeWhile isDigit ≠ [] && (t.dropWhile isDigit).head? = some ']'

/-- Turn every bracketed index into a segment behind a dot; `inside` tells of an open bracket. -/
def Path.dotIndices (inside : Bool) : Text → Text
  | [] => []
  | c :: rest =>
      if inside ∧ c = ']' then dotIndices false rest
      else if c = '[' ∧ opensIndex rest then '.' :: dotIndices true rest
      else c :: dotIndices inside rest

def Path.normalize (t : Text) : Text := dotIndices false t

def Path.isSegmentChar (c : Char) : Bool := isAlphanumeric c || c ∈ ['_', '$', '-']

def Path.isSegment (t : Text) : Bool := t ≠ [] && t.all isSegmentChar

def Path.read (source : Text) : Except ExprFault Path :=
  let source := source.trim
  if source = [] then .error .emptyPath
  else
    let segments := (normalize source).splitOn '.'
    if segments.all isSegment then .ok ⟨segments⟩ else .error (.malformedPath source)

def Operand.number? (t : Text) : Option Number := do
  let numeral ← Number.Numeral.ofText? t
  if numeral.whole = [] ∨ numeral.fraction = some [] ∨ numeral.exponent ≠ none then none
  else
    let size : Int := Text.toNat numeral.whole
    let i := if numeral.negative then -size else size
    if numeral.fraction = none ∧ isInt64 i then return .int i
    else if numeral.value.isInfinite then none
    else return .float numeral.value

def Operand.literal? (source : Text) : Option Value :=
  match Text.cleanQuotes source with
  | (t, true) => some (.text t)
  | (t, false) =>
      if t = "true".toList then some (.bool true)
      else if t = "false".toList then some (.bool false)
      else if t = "null".toList then some .null
      else (number? t).map .number

def Operand.read (source : Text) : Except ExprFault Operand :=
  match literal? source with
  | some v => .ok (.literal v)
  | none => return .path (← Path.read source)

def Comparison.at? (t : Text) : Option (Comparison × Text) :=
  all.findSome? fun op => (op.symbol.isPrefixOf? t).map fun rest => (op, rest)

/-- Cut at the leftmost operator outside quotes, with the quote `opened` open before the text. -/
def Condition.cut (opened : Option Char) : Text → Option (Text × Comparison × Text)
  | [] => none
  | c :: rest =>
      match (if opened = none ∧ ¬ Text.isQuote c then Comparison.at? (c :: rest) else none) with
      | some (op, right) => some ([], op, right)
      | none => (cut (Text.quoteAfter c opened) rest).map fun (left, found) => (c :: left, found)

def Condition.split? : Text → Option (Text × Comparison × Text)
  | [] => none
  | c :: rest => do
      let (left, op, right) ← cut (Text.quoteAfter c none) rest
      let left := Text.trim (c :: left)
      let right := right.trim
      if left = [] ∨ right = [] then none else return (left, op, right)

def Condition.read (source : Text) : Except ExprFault Condition :=
  let source := source.trim
  match split? source with
  | some (left, op, right) => return .compare (← Path.read left) op (← Operand.read right)
  | none =>
      match source with
      | '!' :: rest => return .truthy (← Path.read rest) true
      | source => return .truthy (← Path.read source) false

def Expr.split? (source : Text) : Option (Text × Text × Text) := do
  let (test, rest) ← Text.cutOutside ['?'] 1 0 none source
  let (whenTrue, rest) ← Text.cutOutside [':'] 0 0 none (rest.drop 1)
  let parts := (test.trim, whenTrue.trim, Text.trim (rest.drop 1))
  if parts.1 = [] ∨ parts.2.1 = [] ∨ parts.2.2 = [] then none else return parts

def Expr.isNegation : Text → Bool
  | '!' :: rest => rest.head? ≠ some '='
  | _ => false

def Expr.read (source : Text) : Except ExprFault Expr :=
  let source := source.trim
  if source = [] then .error .emptyExpression
  else
    match split? source with
    | some (test, whenTrue, whenFalse) =>
        return .ternary (← Condition.read test) (← Operand.read whenTrue) (← Operand.read whenFalse)
    | none =>
        if (Condition.split? source).isSome ∨ isNegation source then return .condition (← Condition.read source)
        else return .operand (← Operand.read source)

end TextTemplate
