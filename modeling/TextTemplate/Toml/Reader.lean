import TextTemplate.Toml.Scalars

namespace TextTemplate.Toml

def spelledDateTime? (t : Text) : Option Item :=
  match dateTime? t with
  | some (some (item, [])) => some item
  | _ => none

namespace Item

/-- The date or time that a table spells; `none` where it spells none, and `some none` where it fails to. -/
def spelled? : List (Text × Item) → Option (Option Item)
  | (key, item) :: _ =>
      if key = dateTimeKey then
        match item with
        | text t => some (spelledDateTime? t)
        | _ => some none
      else none
  | [] => none

mutual

def withDates? : Item → Option Item
  | array items => (listWithDates? items).map array
  | inline entries => (spelled? entries).getD ((entriesWithDates? entries).map inline)
  | table kind entries => (spelled? entries).getD ((entriesWithDates? entries).map (table kind))
  | tables latest => (tablesWithDates? latest).map fun items => array items.reverse
  | item => some item

def listWithDates? : List Item → Option (List Item)
  | [] => some []
  | item :: rest => return (← item.withDates?) :: (← listWithDates? rest)

def entriesWithDates? : List (Text × Item) → Option (List (Text × Item))
  | [] => some []
  | (key, item) :: rest => return (key, ← item.withDates?) :: (← entriesWithDates? rest)

def tablesWithDates? : List (List (Text × Item)) → Option (List Item)
  | [] => some []
  | entries :: rest => do
      let item ← (spelled? entries).getD ((entriesWithDates? entries).map (table .defined))
      return item :: (← tablesWithDates? rest)

end

end Item

def Table.withDates? (t : Table) : Option Table := do
  return { t with entries := ← Item.entriesWithDates? t.entries }

def depthLimit : Nat := 80

def dropComment : Text → Text
  | '#' :: rest => rest.dropWhile isPlain
  | t => t

def endOfLine? (t : Text) : Option Text :=
  match dropComment (skipBlanks t) with
  | [] => some []
  | rest => lineBreak? rest

def skipLayout : (limit : Nat) → Text → Option Text
  | 0, t => some t
  | limit + 1, t =>
      match skipBlanks t with
      | '#' :: rest =>
          match lineBreak? (rest.dropWhile isPlain) with
          | some rest => skipLayout limit rest
          | none => none
      | '\n' :: rest => skipLayout limit rest
      | '\r' :: rest =>
          match rest with
          | '\n' :: rest => skipLayout limit rest
          | _ => none
      | rest => some rest

def skipAll (t : Text) : Option Text := skipLayout (t.length + 1) t

def isBareKeyChar (c : Char) : Bool := c.isAlphanum || c = '-' || c = '_'

def keyPart? (t : Text) : Option (Text × Text) :=
  match t with
  | '"' :: _ | '\'' :: _ => readOneLine? t
  | _ => if t.takeWhile isBareKeyChar = [] then none else some (t.takeWhile isBareKeyChar, t.dropWhile isBareKeyChar)

def keyParts? : (limit : Nat) → Text → Option (List Text × Text)
  | 0, _ => none
  | limit + 1, t => do
      let (part, rest) ← keyPart? (skipBlanks t)
      match skipBlanks rest with
      | '.' :: rest =>
          let (parts, rest) ← keyParts? limit rest
          return (part :: parts, rest)
      | rest => return ([part], rest)

def key? (t : Text) : Option ((List Text × Text) × Text) := do
  let (parts, rest) ← keyParts? (t.length + 1) t
  if depthLimit ≤ parts.length then none
  let last ← parts.getLast?
  return ((parts.dropLast, last), rest)

mutual

def readValue (depth : Nat) : (limit : Nat) → Text → Option (Item × Text)
  | 0, _ => none
  | limit + 1, t =>
      match t with
      | [] => none
      | c :: rest =>
          if c = '"' ∨ c = '\'' then (readString? t).map fun (s, rest) => (.text s, rest)
          else if c = '[' then
            if depthLimit ≤ depth + 1 then none
            else do
              let (items, rest) ← readItems (depth + 1) limit rest
              return (.array items, rest)
          else if c = '\x7b' then
            if depthLimit ≤ depth + 1 then none
            else
              match skipBlanks rest with
              | '\x7d' :: rest => some (.inline [], rest)
              | rest => do
                  let (table, rest) ← readInline (depth + 1) limit ⟨.defined, []⟩ rest
                  return (.inline table.entries, rest)
          else if c = '+' ∨ c = '-' ∨ c.isDigit then readNumber? t
          else if let some rest := "true".toList.isPrefixOf? t then some (.bool true, rest)
          else if let some rest := "false".toList.isPrefixOf? t then some (.bool false, rest)
          else specialFloat? t

def readItems (depth : Nat) : (limit : Nat) → Text → Option (List Item × Text)
  | 0, _ => none
  | limit + 1, t => do
      match ← skipAll t with
      | ']' :: rest => return ([], rest)
      | rest =>
          let (item, rest) ← readValue depth limit rest
          match ← skipAll rest with
          | ',' :: rest =>
              let (items, rest) ← readItems depth limit rest
              return (item :: items, rest)
          | ']' :: rest => return ([item], rest)
          | _ => none

def readInline (depth : Nat) : (limit : Nat) → Table → Text → Option (Table × Text)
  | 0, _, _ => none
  | limit + 1, table, t => do
      let ((path, key), rest) ← key? t
      let rest ← ['='].isPrefixOf? rest
      let (item, rest) ← readValue depth limit (skipBlanks rest)
      let table ← table.add path key item
      match skipBlanks rest with
      | ',' :: rest => readInline depth limit table rest
      | '\x7d' :: rest => return (table, rest)
      | _ => none

end

structure Document where
  table : Table
  header : List Text

namespace Document

def empty : Document := ⟨⟨.defined, []⟩, []⟩

def add (d : Document) (path : List Text) (key : Text) (item : Item) : Option Document := do
  return { d with table := ← d.table.modify false (·.add path key item) d.header }

def header? (closing t : Text) : Option ((List Text × Text) × Text) := do
  let (key, rest) ← key? t
  let rest ← closing.isPrefixOf? rest
  return (key, ← endOfLine? rest)

def entry? (t : Text) : Option ((List Text × Text) × Item × Text) := do
  let (key, rest) ← key? t
  let rest ← ['='].isPrefixOf? rest
  let (item, rest) ← readValue 0 (2 * rest.length + 2) (skipBlanks rest)
  return (key, item, ← endOfLine? rest)

def read : (limit : Nat) → Document → Text → Option Document
  | 0, _, _ => none
  | limit + 1, d, t =>
      match skipBlanks t with
      | [] => some d
      | '#' :: rest => do read limit d (← endOfLine? ('#' :: rest))
      | '\n' :: rest => read limit d rest
      | '\r' :: rest => do read limit d (← ['\n'].isPrefixOf? rest)
      | '[' :: '[' :: rest => do
          let ((path, key), rest) ← header? "]]".toList rest
          read limit ⟨← d.table.extend path key, path ++ [key]⟩ rest
      | '[' :: rest => do
          let ((path, key), rest) ← header? [']'] rest
          read limit ⟨← d.table.define path key, path ++ [key]⟩ rest
      | rest => do
          let ((path, key), item, rest) ← entry? rest
          read limit (← d.add path key item) rest

end Document

def dropMark : Text → Text
  | '\ufeff' :: rest => rest
  | t => t

def read? (t : Text) : Option Table :=
  let t := dropMark t
  (Document.read (t.length + 1) .empty t).map Document.table

end TextTemplate.Toml
