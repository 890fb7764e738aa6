import TextTemplate.Text.CharClass

namespace TextTemplate

abbrev Text := List Char

namespace Text

def utf8Size : Text → Nat
  | [] => 0
  | c :: t => c.utf8Size + utf8Size t

@[simp] theorem utf8Size_nil : utf8Size [] = 0 := rfl

@[simp] theorem utf8Size_cons (c : Char) (t : Text) : utf8Size (c :: t) = c.utf8Size + utf8Size t := rfl

@[simp] theorem utf8Size_append (t u : Text) : utf8Size (t ++ u) = utf8Size t + utf8Size u := by
  induction t with
  | nil => simp
  | cons c t ih => simp [ih, Nat.add_assoc]

def ofNat (n : Nat) : Text := Nat.toDigits 10 n

def ofInt (i : Int) : Text := if i < 0 then '-' :: ofNat i.natAbs else ofNat i.natAbs

def toNat (digits : Text) : Nat := digits.foldl (fun n c => 10 * n + (c.toNat - '0'.toNat)) 0

def hexDigit? (c : Char) : Option Nat :=
  if c.isDigit then some (c.toNat - '0'.toNat)
  else if 'a' ≤ c ∧ c ≤ 'f' then some (c.toNat - 'a'.toNat + 10)
  else if 'A' ≤ c ∧ c ≤ 'F' then some (c.toNat - 'A'.toNat + 10)
  else none

def isHexDigit (c : Char) : Bool := (hexDigit? c).isSome

def takeDigits (t : Text) : Text × Text := (t.takeWhile Char.isDigit, t.dropWhile Char.isDigit)

def digits? (t : Text) : Option (Text × Text) :=
  if (takeDigits t).1 = [] then none else some (takeDigits t)

def join (separator : Text) (parts : List Text) : Text := separator.intercalate parts

def order : Text → Text → Ordering
  | [], [] => .eq
  | [], _ :: _ => .lt
  | _ :: _, [] => .gt
  | c :: t, d :: u => if c.toNat < d.toNat then .lt else if d.toNat < c.toNat then .gt else order t u

theorem order_self (t : Text) : order t t = .eq := by
  induction t with
  | nil => rfl
  | cons c t ih => simp [order, ih]

theorem order_swap (t u : Text) : (order t u).swap = order u t := by
  induction t generalizing u with
  | nil => cases u <;> rfl
  | cons c t ih =>
      cases u with
      | nil => rfl
      | cons d u =>
          simp only [order]
          rcases Nat.lt_trichotomy c.toNat d.toNat with less | same | more
          · rw [if_pos less, if_neg (Nat.lt_asymm less), if_pos less]; rfl
          · simp [same, ih]
          · rw [if_neg (Nat.lt_asymm more), if_pos more, if_pos more]; rfl

open CharClass

def trimLeft (t : Text) : Text := t.dropWhile isBlank

def trimRight (t : Text) : Text := (t.reverse.dropWhile isBlank).reverse

def trim (t : Text) : Text := trimRight (trimLeft t)

def dropFirstBreak : Text → Text
  | '\r' :: '\n' :: rest => rest
  | '\n' :: rest => rest
  | t => t

def dropLastBreak (t : Text) : Text :=
  match t.reverse with
  | '\n' :: '\r' :: rest => rest.reverse
  | '\n' :: rest => rest.reverse
  | _ => t

theorem dropFirstBreak_eq_iff {t u : Text} :
    t.dropFirstBreak = u ↔
      t = '\r' :: '\n' :: u ∨ t = '\n' :: u ∨
        (∀ rest, t ≠ '\r' :: '\n' :: rest) ∧ (∀ rest, t ≠ '\n' :: rest) ∧ t = u := by
  unfold dropFirstBreak
  split
  · simp
  · simp
  · rename_i pair single
    constructor
    · exact fun same => .inr (.inr ⟨pair, single, same⟩)
    · rintro (rfl | rfl | ⟨-, -, same⟩)
      · exact absurd rfl (pair u)
      · exact absurd rfl (single u)
      · exact same

theorem reverse_ne_append_singleton {t : Text} {c : Char} :
    (∀ rest, t.reverse ≠ rest ++ [c]) ↔ ∀ rest, t ≠ c :: rest := by
  constructor
  · rintro none rest rfl
    exact none rest.reverse List.reverse_cons
  · intro none rest same
    exact none rest.reverse (by simpa using congrArg List.reverse same)

theorem dropLastBreak_eq_iff {t u : Text} :
    t.dropLastBreak = u ↔
      t = u ++ ['\r', '\n'] ∨ (t = u ++ ['\n'] ∧ ∀ rest, u ≠ rest ++ ['\r']) ∨
        ((∀ rest, t ≠ rest ++ ['\n']) ∧ t = u) := by
  obtain ⟨s, rfl⟩ : ∃ s : Text, t = s.reverse := ⟨t.reverse, t.reverse_reverse.symm⟩
  obtain ⟨v, rfl⟩ : ∃ v : Text, u = v.reverse := ⟨u.reverse, u.reverse_reverse.symm⟩
  have pair : v.reverse ++ ['\r', '\n'] = ('\n' :: '\r' :: v).reverse := by simp
  have single : v.reverse ++ ['\n'] = ('\n' :: v).reverse := by simp
  simp only [pair, single, reverse_ne_append_singleton, List.reverse_inj, dropLastBreak, List.reverse_reverse]
  split
  · rename_i rest
    constructor
    · intro same
      rw [List.reverse_inj.mp same]
      exact .inl rfl
    · rintro (⟨⟨⟩⟩ | ⟨⟨⟩, none⟩ | ⟨none, -⟩)
      · rfl
      · exact absurd rfl (none rest)
      · exact absurd rfl (none _)
  · rename_i rest other
    constructor
    · rintro same
      rw [List.reverse_inj.mp same] at other ⊢
      exact .inr (.inl ⟨rfl, fun more same => other more (by rw [same])⟩)
    · rintro (⟨⟨⟩⟩ | ⟨⟨⟩, -⟩ | ⟨none, -⟩)
      · exact absurd rfl (other v)
      · rfl
      · exact absurd rfl (none _)
  · rename_i pair single
    constructor
    · exact fun same => .inr (.inr ⟨single, List.reverse_inj.mp same⟩)
    · rintro (rfl | ⟨rfl, -⟩ | ⟨-, rfl⟩)
      · exact absurd rfl (pair v)
      · exact absurd rfl (single v)
      · rfl

def isQuote (c : Char) : Bool := c = '"' || c = '\''

def unquote? : Text → Option Text
  | [] => none
  | q :: body => if isQuote q ∧ body.getLast? = some q then some body.dropLast else none

def cleanQuotes (t : Text) : Text × Bool :=
  match unquote? t.trim with
  | some body => (body, true)
  | none => (t.trim, false)

def quoteAfter (c : Char) : Option Char → Option Char
  | some q => if c = q then none else some q
  | none => if isQuote c then some c else none

/--
Cut at the first place at or behind byte `start` where `needle` begins outside quotes: what stands before it, and
the rest with the needle. The text left to search begins at byte `offset` with the quote `opened` open; a
quote itself is never outside.
-/
def cutOutside (needle : Text) (start offset : Nat) (opened : Option Char) : Text → Option (Text × Text)
  | [] => none
  | c :: rest =>
      if opened = none ∧ ¬ isQuote c ∧ start ≤ offset ∧ needle.isPrefixOf (c :: rest) then some ([], c :: rest)
      else
        (cutOutside needle start (offset + c.utf8Size) (quoteAfter c opened) rest).map fun (before, found) =>
          (c :: before, found)

def findOutsideQuotes (t needle : Text) (start : Nat) : Option Nat :=
  (cutOutside needle start 0 none t).map fun (before, _) => utf8Size before

def isIdentifierStart (c : Char) : Bool := c.isAlpha || c = '_'

def isIdentifier : Text → Bool
  | [] => false
  | c :: rest => isIdentifierStart c && rest.all fun c => c.isAlphanum || c = '_'

def definition? (t : Text) : Option (Text × Text) :=
  match t.dropWhile (· ≠ '=') with
  | [] => none
  | _ :: value =>
      let name := trim (t.takeWhile (· ≠ '='))
      if isIdentifier name then some (name, value) else none

end Text

end TextTemplate
