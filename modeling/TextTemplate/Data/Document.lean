import TextTemplate.Text
import TextTemplate.Error
import TextTemplate.Json
import TextTemplate.Toml.Reader

namespace TextTemplate.FilePath

def names (path : Text) : List Text :=
  (path.splitOn '/').filter fun name => name ≠ [] ∧ name ≠ ['.']

def isAbsolute (path : Text) : Bool := path.head? = some '/'

def fileName? (path : Text) : Option Text :=
  match (names path).getLast? with
  | some name => if name = "..".toList then none else some name
  | none => none

def cutExtension (name : Text) : Text × Option Text :=
  let behind := (name.reverse.takeWhile (· ≠ '.')).reverse
  let before := name.take (name.length - behind.length - 1)
  if behind.length = name.length ∨ before = [] then (name, none) else (before, some behind)

def extension? (path : Text) : Option Text := (fileName? path).bind fun name => (cutExtension name).2

def parent? (path : Text) : Option Text :=
  if names path = [] then none
  else
    let above := Text.join ['/'] (names path).dropLast
    some (if isAbsolute path then '/' :: above else above)

def join (directory name : Text) : Text :=
  if directory = [] ∨ directory.getLast? = some '/' then directory ++ name else directory ++ '/' :: name

end TextTemplate.FilePath

namespace TextTemplate.ShellLiteral
open Text.CharClass

/-- Replace, from the left, whatever `rule` finds; it answers the replacement and the text behind. -/
def replace (rule : Text → Option (Text × Text)) : (inside : Nat) → Text → Text
  | _, [] => []
  | inside + 1, _ :: rest => replace rule inside rest
  | 0, c :: rest =>
      match rule (c :: rest) with
      | some (replacement, behind) => replacement ++ replace rule (rest.length - behind.length) rest
      | none => c :: replace rule 0 rest

def opening? (names : List Text) (t : Text) : Option Text := do
  let rest ← names.findSome? fun name => name.isPrefixOf? t
  let rest ← ['('].isPrefixOf? (rest.dropWhile isBlank)
  return rest.dropWhile isBlank

def closing? (t : Text) : Option Text := [')'].isPrefixOf? (t.dropWhile isBlank)

def quoted? (t : Text) : Option (Text × Text) :=
  match t with
  | [] => none
  | quote :: body =>
      let content := body.takeWhile (!Text.isQuote ·)
      if Text.isQuote quote ∧ content ≠ [] then
        match body.dropWhile (!Text.isQuote ·) with
        | _ :: rest => some (content, rest)
        | [] => none
      else none

def digits? (t : Text) : Option (Text × Text) :=
  if t.takeWhile isDigit = [] then none else some (t.takeWhile isDigit, t.dropWhile isDigit)

def string? (t : Text) : Option (Text × Text) := do
  let rest ← opening? ["ObjectId".toList, "ISODate".toList] t
  let (content, rest) ← quoted? rest
  return ('"' :: content ++ ['"'], ← closing? rest)

def integer? (t : Text) : Option (Text × Text) := do
  let rest ← opening? ["NumberLong".toList, "NumberInt".toList] t
  let (digits, rest) ← digits? rest
  return (digits, ← closing? rest)

def timestamp? (t : Text) : Option (Text × Text) := do
  let rest ← opening? ["Timestamp".toList] t
  let (digits, rest) ← digits? rest
  let rest ← [','].isPrefixOf? (rest.dropWhile isBlank)
  let (_, rest) ← digits? (rest.dropWhile isBlank)
  return (digits, ← closing? rest)

def clean (t : Text) : Text := replace timestamp? 0 (replace integer? 0 (replace string? 0 t))

end TextTemplate.ShellLiteral

namespace TextTemplate

inductive DataFormat where
  | json | toml
  deriving DecidableEq, Repr

def DataFormat.ofPath (path : Text) : DataFormat :=
  match FilePath.extension? path with
  | some extension => if extension.map Char.toLower = "toml".toList then .toml else .json
  | none => .json

def readDocument (format : DataFormat) (t : Text) : Except TemplateError Value :=
  match format with
  | .json =>
      match Json.read? (ShellLiteral.clean t) with
      | none => .error (.format .jsonData)
      | some (.object entries) => .ok (.object entries)
      | some _ => .error .documentNotMapping
  | .toml =>
      match (Toml.read? t).bind Toml.Table.withDates? with
      | none => .error (.format .tomlData)
      | some table => .ok (.object table.toEntries)

end TextTemplate
