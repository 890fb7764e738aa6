import TextTemplate.Token
import TextTemplate.Text

/-!
# From text to tokens

From the left, each place of a template either starts a tag or holds one literal character. The first closing
character behind an opening ends its body, so that a run of unfinished openings would be searched over and over;
a `Lookout` therefore keeps the outcome of the last search and answers from it while it still holds.

`pieces` finds the tags, `assemble` joins the characters between them and gives every token its place.
-/

namespace TextTemplate.Lexer
open Text.CharClass

structure Lookout where
  searched : Nat
  found : Option Nat

def search (close : Char) (body : Text) : Option Nat :=
  match body.dropWhile (· ≠ close) with
  | [] => none
  | rest => some rest.length

/-- Answer from the last search if it began no later and found nothing already passed, else search. -/
def Lookout.find (close : Char) (body : Text) (left : Nat) (last : Option Lookout) : Option Nat × Option Lookout :=
  let fresh := (search close body, some ⟨left, search close body⟩)
  match last with
  | none => fresh
  | some lookout =>
      if left ≤ lookout.searched ∧ lookout.found.all (· ≤ left) then (lookout.found, last) else fresh

structure Lookouts where
  brace : Option Lookout
  paren : Option Lookout

/--
The text up to the first `close`, which must not be empty and must have `suffix` behind it, with what follows;
`left` is the number of characters of `body`.
-/
def enclosed (close : Char) (suffix body : Text) (left : Nat) (last : Option Lookout) :
    Option (Text × Text) × Option Lookout :=
  match Lookout.find close body left last with
  | (none, last) => (none, last)
  | (some found, last) =>
      if found = left then (none, last)
      else
        ((suffix.isPrefixOf? (body.drop (left - found + 1))).map fun rest => (body.take (left - found), rest), last)

def word? (t : Text) : Option (Text × Text) :=
  if t.takeWhile isWord = [] then none else some (t.takeWhile isWord, t.dropWhile isWord)

def segment? : Text → Option Text
  | '.' :: rest => (word? rest).map Prod.snd
  | '[' :: rest =>
      if rest.takeWhile isDigit = [] then none else [']'].isPrefixOf? (rest.dropWhile isDigit)
  | _ => none

def dropSegments : (limit : Nat) → Text → Text
  | 0, t => t
  | limit + 1, t =>
      match segment? t with
      | some rest => dropSegments limit rest
      | none => t

def path? (t : Text) : Option (Text × Text) := do
  let (_, rest) ← word? t
  let rest := dropSegments rest.length rest
  return (t.take (t.length - rest.length), rest)

def dropQuote : Text → Text
  | c :: rest => if c = '"' ∨ c = '\'' then rest else c :: rest
  | [] => []

def forTail? (index : Option Text) (item t : Text) : Option (Lexeme × Text) := do
  let rest ← ['|'].isPrefixOf? t
  guard ((rest.head?.map isBlank) = some true)
  let rest ← "of=".toList.isPrefixOf? (rest.dropWhile isBlank)
  let (path, rest) ← path? (dropQuote rest)
  let rest ← ['>'].isPrefixOf? (dropQuote rest)
  return (.forOpen index item path, rest)

def for? (t : Text) : Option (Lexeme × Text) := do
  let rest ← "<for".toList.isPrefixOf? t
  let rest ← ['|'].isPrefixOf? (rest.dropWhile isBlank)
  let (name, rest) ← word? rest
  match rest with
  | ',' :: rest =>
      let (item, rest) ← word? (rest.dropWhile isBlank)
      forTail? (some name) item rest
  | _ => forTail? none name rest

def letHead? (t : Text) : Option (Text × Text) := do
  let rest ← "<let".toList.isPrefixOf? t
  guard ((rest.head?.map isBlank) = some true)
  let (name, rest) ← word? (rest.dropWhile isBlank)
  let rest ← ['='].isPrefixOf? (rest.dropWhile isBlank)
  let rest ← "$\x7b".toList.isPrefixOf? (rest.dropWhile isBlank)
  return (name, rest)

def tagAt (t : Text) (left : Nat) (seen : Lookouts) : Option (Lexeme × Text) × Lookouts :=
  if let some body := "$\x7b".toList.isPrefixOf? t then
    let (found, brace) := enclosed '\x7d' [] body (left - 2) seen.brace
    (found.map fun (source, rest) => (.interpolation source, rest), { seen with brace })
  else if let some rest := "</for>".toList.isPrefixOf? t then (some (.forClose, rest), seen)
  else if let some rest := "</if>".toList.isPrefixOf? t then (some (.ifClose, rest), seen)
  else if let some rest := "<else>".toList.isPrefixOf? t then (some (.otherwise, rest), seen)
  else if let some body := "<if(".toList.isPrefixOf? t then
    let (found, paren) := enclosed ')' ['>'] body (left - 4) seen.paren
    (found.map fun (condition, rest) => (.ifOpen condition, rest), { seen with paren })
  else if let some body := "<else-if(".toList.isPrefixOf? t then
    let (found, paren) := enclosed ')' ['>'] body (left - 9) seen.paren
    (found.map fun (condition, rest) => (.elseIf condition, rest), { seen with paren })
  else if let some tag := for? t then (some tag, seen)
  else if let some (name, body) := letHead? t then
    let (found, brace) := enclosed '\x7d' ['>'] body body.length seen.brace
    (found.map fun (expression, rest) => (.binding name expression, Text.dropFirstBreak rest), { seen with brace })
  else (none, seen)

inductive Piece where
  | tag (lexeme : Lexeme) (raw : Text)
  | char (c : Char)

/-- Tags and literal characters in order, passing first over the `inside` characters left of a tag. -/
def pieces : (inside left : Nat) → Lookouts → Text → List Piece
  | _, _, _, [] => []
  | inside + 1, left, seen, _ :: rest => pieces inside (left - 1) seen rest
  | 0, left, seen, c :: rest =>
      match tagAt (c :: rest) left seen with
      | (some (lexeme, behind), seen) =>
          let size := left - behind.length
          .tag lexeme ((c :: rest).take size) :: pieces (size - 1) (left - 1) seen rest
      | (none, seen) => .char c :: pieces 0 (left - 1) seen rest

def pushChar (c : Char) (position : Position) : List Token → List Token
  | ⟨.text content, _, raw⟩ :: tokens => ⟨.text (c :: content), position, raw⟩ :: tokens
  | tokens => ⟨.text [c], position, []⟩ :: tokens

def assemble (position : Position) : List Piece → List Token
  | [] => [⟨.endOfText, position, []⟩]
  | .tag lexeme raw :: rest => ⟨lexeme, position, raw⟩ :: assemble (position.skip raw) rest
  | .char c :: rest => pushChar c position (assemble (position.after c) rest)

end Lexer

def Token.scan (template : Text) : List Token :=
  Lexer.assemble .start (Lexer.pieces 0 template.length ⟨none, none⟩ template)

end TextTemplate
