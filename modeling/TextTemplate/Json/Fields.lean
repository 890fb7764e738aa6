import TextTemplate.Json

namespace TextTemplate.Json

def skipString : Text → Option Text
  | [] => none
  | '"' :: rest => some rest
  | '\\' :: 'u' :: a :: b :: c :: d :: rest => if [a, b, c, d].all Text.isHexDigit then skipString rest else none
  | '\\' :: c :: rest => if c ∈ ['"', '\\', '/', 'b', 'f', 'n', 'r', 't'] then skipString rest else none
  | c :: rest => if c.toNat < 0x20 then none else skipString rest

def skipKey (t : Text) : Option Text := do
  let rest ← ['"'].isPrefixOf? (skipBlanks t)
  [':'].isPrefixOf? (skipBlanks (← skipString rest))

mutual

def skipValue : (limit : Nat) → Text → Option Text
  | 0, _ => none
  | limit + 1, t =>
      match skipBlanks t with
      | '"' :: rest => skipString rest
      | '[' :: rest =>
          match skipBlanks rest with
          | ']' :: rest => some rest
          | rest => skipItems limit rest
      | '\x7b' :: rest =>
          match skipBlanks rest with
          | '\x7d' :: rest => some rest
          | rest => skipPairs limit rest
      | rest =>
          ("null".toList.isPrefixOf? rest).or <| ("true".toList.isPrefixOf? rest).or <|
            ("false".toList.isPrefixOf? rest).or ((Numeral.pieces? rest).map Prod.snd)

def skipItems : (limit : Nat) → Text → Option Text
  | 0, _ => none
  | limit + 1, t => do
      match skipBlanks (← skipValue limit t) with
      | ',' :: rest => skipItems limit rest
      | ']' :: rest => return rest
      | _ => none

def skipPairs : (limit : Nat) → Text → Option Text
  | 0, _ => none
  | limit + 1, t => do
      match skipBlanks (← skipValue limit (← skipKey t)) with
      | ',' :: rest => skipPairs limit rest
      | '\x7d' :: rest => return rest
      | _ => none

end

def readField (wanted : List Text) (key rest : Text) : Option (Option Value × Text) :=
  let limit := 2 * rest.length + 2
  if wanted.any (· = key) then (readValue 1 limit rest).map fun (v, rest) => (some v, rest)
  else (skipValue limit rest).map fun rest => (none, rest)

def readFields (wanted : List Text) : (limit : Nat) → Text → Option (List (Text × Value) × Text)
  | 0, _ => none
  | limit + 1, t => do
      let (key, rest) ← readKey t
      let (found, rest) ← readField wanted key rest
      let fields := found.toList.map fun v => (key, v)
      match skipBlanks rest with
      | ',' :: rest =>
          let (more, rest) ← readFields wanted limit rest
          return (fields ++ more, rest)
      | '\x7d' :: rest => return (fields, rest)
      | _ => none

def readFields? (wanted : List Text) (t : Text) : Option (List (Text × Value)) := do
  let rest ← ['\x7b'].isPrefixOf? (skipBlanks t)
  let (fields, rest) ← match skipBlanks rest with
    | '\x7d' :: rest => some ([], rest)
    | rest => readFields wanted (t.length + 1) rest
  if skipBlanks rest = [] then return fields else none

def repeats (fields : List (Text × Value)) (name : Text) : Bool :=
  1 < (fields.filter fun field => field.1 = name).length

/-- The fields of a record in a document: an object that repeats none of them, or an array of the values of all. -/
def readRecord? (names : List Text) (t : Text) : Option (List (Text × Value)) :=
  match readFields? names t, read? t with
  | some fields, _ => if names.any (repeats fields) then none else some fields
  | none, some (.array values) => if values.length = names.length then some (names.zip values) else none
  | none, _ => none

end TextTemplate.Json
