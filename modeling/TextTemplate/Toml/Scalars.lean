import TextTemplate.Toml.Table
import TextTemplate.Toml.Strings

namespace TextTemplate.Toml
open Number (Binary64)

def digitRun (isDigit : Char → Bool) : Text → Option (Text × Text)
  | [] => some ([], [])
  | '_' :: c :: rest =>
      if isDigit c then (digitRun isDigit rest).map fun (t, rest) => (c :: t, rest) else none
  | c :: rest =>
      if c = '_' then none
      else if isDigit c then (digitRun isDigit rest).map fun (t, rest) => (c :: t, rest)
      else some ([], c :: rest)

def digits? (isDigit : Char → Bool) : Text → Option (Text × Text)
  | c :: rest => if isDigit c then digitRun isDigit (c :: rest) else none
  | [] => none

def takeSign : Text → Option Char × Text
  | '+' :: rest => (some '+', rest)
  | '-' :: rest => (some '-', rest)
  | rest => (none, rest)

def decimal? (t : Text) : Option (Text × Text) := do
  let (sign, rest) := takeSign t
  let (digits, rest) ← match rest with
    | '0' :: rest => some (['0'], rest)
    | rest => digits? Char.isDigit rest
  return (sign.toList ++ digits, rest)

def inBase (base : Nat) (isDigit : Char → Bool) (t : Text) : Option (Item × Text) := do
  let (digits, rest) ← digits? isDigit t
  let number := (digits.filterMap Text.hexDigit?).foldl (fun n digit => base * n + digit) 0
  if number < twoTo 63 then return (.integer number, rest) else none

def integer? (t : Text) : Option (Item × Text) :=
  match t with
  | '0' :: 'x' :: rest => inBase 16 Text.isHexDigit rest
  | '0' :: 'o' :: rest => inBase 8 (fun c => '0' ≤ c && c ≤ '7') rest
  | '0' :: 'b' :: rest => inBase 2 (fun c => c = '0' || c = '1') rest
  | t => do
      let (decimal, rest) ← decimal? t
      let (sign, digits) := takeSign decimal
      let size : Int := Text.toNat digits
      let i := if sign = some '-' then -size else size
      if isInt64 i then return (.integer i, rest) else none

def fraction? : Text → Option (Option (Text × Text))
  | '.' :: rest => some ((digits? Char.isDigit rest).map fun (digits, rest) => ('.' :: digits, rest))
  | _ => none

def exponent? : Text → Option (Option (Text × Text))
  | c :: rest =>
      if c = 'e' ∨ c = 'E' then
        let (sign, rest) := takeSign rest
        some ((digits? Char.isDigit rest).map fun (digits, rest) => ('e' :: sign.toList ++ digits, rest))
      else none
  | [] => none

def floatItem? (spelled : Text) : Option Item := do
  let x ← Binary64.ofText? spelled
  if x.isInfinite ∧ !x.negative then none else return .float (some x)

def decimalFloat? (t : Text) : Option (Option (Item × Text)) := do
  let (whole, rest) ← decimal? t
  match fraction? rest, exponent? rest with
  | some none, _ => some none
  | some (some (fraction, rest)), _ =>
      match exponent? rest with
      | none => some ((floatItem? (whole ++ fraction)).map fun item => (item, rest))
      | some none => some none
      | some (some (exponent, rest)) => some ((floatItem? (whole ++ fraction ++ exponent)).map fun item => (item, rest))
  | none, some none => some none
  | none, some (some (exponent, rest)) => some ((floatItem? (whole ++ exponent)).map fun item => (item, rest))
  | none, none => none

def specialFloat? (t : Text) : Option (Item × Text) :=
  let (sign, rest) := takeSign t
  if let some rest := "inf".toList.isPrefixOf? rest then
    some (.float (some ⟨sign = some '-', Number.infinity, Nat.le_refl _⟩), rest)
  else if let some rest := "nan".toList.isPrefixOf? rest then some (.float none, rest)
  else none

def exactly? (count : Nat) (t : Text) : Option (Nat × Text) :=
  let digits := t.take count
  if digits.length = count ∧ digits.all Char.isDigit then some (Text.toNat digits, t.drop count) else none

def twoDigits? (low high : Nat) (t : Text) : Option (Nat × Text) := do
  let (n, rest) ← exactly? 2 t
  if low ≤ n ∧ n ≤ high then return (n, rest) else none

def padded (width n : Nat) : Text :=
  let digits := Text.ofNat n
  List.replicate (width - digits.length) '0' ++ digits

def isLeapYear (year : Nat) : Bool := year % 4 = 0 && (year % 100 ≠ 0 || year % 400 = 0)

def daysIn (year month : Nat) : Nat :=
  if month = 2 then (if isLeapYear year then 29 else 28)
  else if month ∈ [4, 6, 9, 11] then 30 else 31

def restOfDate? (year : Nat) (t : Text) : Option (Text × Text) := do
  let (month, rest) ← twoDigits? 1 12 t
  let rest ← ['-'].isPrefixOf? rest
  let (day, rest) ← twoDigits? 1 31 rest
  if day ≤ daysIn year month then
    return (padded 4 year ++ '-' :: padded 2 month ++ '-' :: padded 2 day, rest)
  else none

def date? (t : Text) : Option (Option (Text × Text)) := do
  let (year, rest) ← exactly? 4 t
  let rest ← ['-'].isPrefixOf? rest
  return restOfDate? year rest

def secondFraction (digits : Text) : Text :=
  let kept := ((digits.take 9).reverse.dropWhile (· = '0')).reverse
  if kept = [] then [] else '.' :: kept

def takeSecondFraction : Text → Text × Text
  | '.' :: rest =>
      let digits := rest.takeWhile Char.isDigit
      if digits = [] then ([], '.' :: rest) else (secondFraction digits, rest.dropWhile Char.isDigit)
  | rest => ([], rest)

def restOfTime? (hour : Nat) (t : Text) : Option (Text × Text) := do
  let (minute, rest) ← twoDigits? 0 59 t
  let rest ← [':'].isPrefixOf? rest
  let (second, rest) ← twoDigits? 0 60 rest
  let (fraction, rest) := takeSecondFraction rest
  return (padded 2 hour ++ ':' :: padded 2 minute ++ ':' :: padded 2 second ++ fraction, rest)

def time? (t : Text) : Option (Option (Text × Text)) := do
  let (hour, rest) ← twoDigits? 0 23 t
  let rest ← [':'].isPrefixOf? rest
  return restOfTime? hour rest

def offset? : Text → Option (Text × Text)
  | 'Z' :: rest => some (['Z'], rest)
  | 'z' :: rest => some (['Z'], rest)
  | c :: rest =>
      if c = '+' ∨ c = '-' then do
        let (hour, rest) ← twoDigits? 0 23 rest
        let rest ← [':'].isPrefixOf? rest
        let (minute, rest) ← twoDigits? 0 59 rest
        let sign := if hour = 0 ∧ minute = 0 then '+' else c
        return (sign :: padded 2 hour ++ ':' :: padded 2 minute, rest)
      else some ([], c :: rest)
  | [] => some ([], [])

def timeBehind? : Text → Option (Text × Text)
  | c :: rest =>
      if c = 'T' ∨ c = 't' ∨ c = ' ' then
        match time? rest with
        | none => some ([], c :: rest)
        | some none => none
        | some (some (time, rest)) => do
            let (offset, rest) ← offset? rest
            return ('T' :: time ++ offset, rest)
      else some ([], c :: rest)
  | [] => some ([], [])

def dateTime? (t : Text) : Option (Option (Item × Text)) :=
  match date? t with
  | some none => some none
  | some (some (date, rest)) =>
      some ((timeBehind? rest).map fun (time, rest) => (.dateTime (date ++ time), rest))
  | none => (time? t).map fun time => time.map fun (time, rest) => (.dateTime time, rest)

def readNumber? (t : Text) : Option (Item × Text) :=
  match dateTime? t with
  | some found => found
  | none =>
      match decimalFloat? t with
      | some found => found
      | none => (specialFloat? t).or (integer? t)

end TextTemplate.Toml
