import TextTemplate.Value
import TextTemplate.Json.Numeral

namespace TextTemplate.Json

def isBlank (c : Char) : Bool := c ∈ [' ', '\t', '\n', '\r']

def skipBlanks (t : Text) : Text := t.dropWhile isBlank

def codeUnit? : Text → Option (Nat × Text)
  | a :: b :: c :: d :: rest => do
      let high := 0x10 * (← Text.hexDigit? a) + (← Text.hexDigit? b)
      let low := 0x10 * (← Text.hexDigit? c) + (← Text.hexDigit? d)
      return (0x100 * high + low, rest)
  | _ => none

def codePoint? (t : Text) : Option (Char × Text) := do
  let (unit, rest) ← codeUnit? t
  if 0xD800 ≤ unit ∧ unit < 0xDC00 then
    match rest with
    | '\\' :: 'u' :: rest =>
        let (second, rest) ← codeUnit? rest
        if 0xDC00 ≤ second ∧ second < 0xE000 then
          return (Char.ofNat (0x10000 + 0x400 * (unit - 0xD800) + (second - 0xDC00)), rest)
        else none
    | _ => none
  else if 0xDC00 ≤ unit ∧ unit < 0xE000 then none
  else return (Char.ofNat unit, rest)

def unescape? : Text → Option (Char × Text)
  | '"' :: rest => some ('"', rest)
  | '\\' :: rest => some ('\\', rest)
  | '/' :: rest => some ('/', rest)
  | 'b' :: rest => some ('\x08', rest)
  | 'f' :: rest => some ('\x0c', rest)
  | 'n' :: rest => some ('\n', rest)
  | 'r' :: rest => some ('\r', rest)
  | 't' :: rest => some ('\t', rest)
  | 'u' :: rest => codePoint? rest
  | _ => none

def readString : (limit : Nat) → Text → Option (Text × Text)
  | 0, _ => none
  | _ + 1, [] => none
  | _ + 1, '"' :: rest => some ([], rest)
  | limit + 1, '\\' :: rest => do
      let (c, rest) ← unescape? rest
      let (t, rest) ← readString limit rest
      return (c :: t, rest)
  | limit + 1, c :: rest =>
      if c.toNat < 0x20 then none
      else do
        let (t, rest) ← readString limit rest
        return (c :: t, rest)

def readKey (t : Text) : Option (Text × Text) := do
  match skipBlanks t with
  | '"' :: rest =>
      let (key, rest) ← readString (rest.length + 1) rest
      match skipBlanks rest with
      | ':' :: rest => return (key, rest)
      | _ => none
  | _ => none

def depthMax : Nat := 127

mutual

def readValue (depth : Nat) : (limit : Nat) → Text → Option (Value × Text)
  | 0, _ => none
  | limit + 1, t =>
      match skipBlanks t with
      | '"' :: rest => do
          let (s, rest) ← readString (rest.length + 1) rest
          return (.text s, rest)
      | '[' :: rest =>
          if depthMax ≤ depth then none
          else match skipBlanks rest with
            | ']' :: rest => some (.array [], rest)
            | rest => do
                let (items, rest) ← readItems (depth + 1) limit rest
                return (.array items, rest)
      | '\x7b' :: rest =>
          if depthMax ≤ depth then none
          else match skipBlanks rest with
            | '\x7d' :: rest => some (.object [], rest)
            | rest => do
                let (pairs, rest) ← readPairs (depth + 1) limit rest
                return (.object (Entries.ofList pairs), rest)
      | rest =>
          if let some rest := "null".toList.isPrefixOf? rest then some (.null, rest)
          else if let some rest := "true".toList.isPrefixOf? rest then some (.bool true, rest)
          else if let some rest := "false".toList.isPrefixOf? rest then some (.bool false, rest)
          else do
            let (n, rest) ← Numeral.read? rest
            return (.number n, rest)

def readItems (depth : Nat) : (limit : Nat) → Text → Option (List Value × Text)
  | 0, _ => none
  | limit + 1, t => do
      let (v, rest) ← readValue depth limit t
      match skipBlanks rest with
      | ',' :: rest =>
          let (items, rest) ← readItems depth limit rest
          return (v :: items, rest)
      | ']' :: rest => return ([v], rest)
      | _ => none

def readPairs (depth : Nat) : (limit : Nat) → Text → Option (List (Text × Value) × Text)
  | 0, _ => none
  | limit + 1, t => do
      let (key, rest) ← readKey t
      let (v, rest) ← readValue depth limit rest
      match skipBlanks rest with
      | ',' :: rest =>
          let (pairs, rest) ← readPairs depth limit rest
          return ((key, v) :: pairs, rest)
      | '\x7d' :: rest => return ([(key, v)], rest)
      | _ => none

end

/-- The value of a document; every step but the first of each value takes a character, so the limit is never met. -/
def read? (t : Text) : Option Value := do
  let (v, rest) ← readValue 0 (2 * t.length + 2) t
  if skipBlanks rest = [] then return v else none

def controlEscape (c : Char) : Text :=
  "\\u00".toList ++ [Nat.digitChar (c.toNat / 16), Nat.digitChar (c.toNat % 16)]

def escape (c : Char) : Text :=
  match c with
  | '"' => ['\\', '"']
  | '\\' => ['\\', '\\']
  | '\x08' => ['\\', 'b']
  | '\x0c' => ['\\', 'f']
  | '\n' => ['\\', 'n']
  | '\r' => ['\\', 'r']
  | '\t' => ['\\', 't']
  | c => if c.toNat < 0x20 then controlEscape c else [c]

def quote (t : Text) : Text := '"' :: t.flatMap escape ++ ['"']

mutual

def write : Value → Text
  | .null => "null".toList
  | .bool true => "true".toList
  | .bool false => "false".toList
  | .number n => n.documentText
  | .text t => quote t
  | .array items => '[' :: writeItems items ++ [']']
  | .object entries => '\x7b' :: writeEntries entries ++ ['\x7d']

def writeItems : List Value → Text
  | [] => []
  | [v] => write v
  | v :: rest => write v ++ ',' :: writeItems rest

def writeEntries : List (Text × Value) → Text
  | [] => []
  | [(key, v)] => quote key ++ ':' :: write v
  | (key, v) :: rest => quote key ++ ':' :: write v ++ ',' :: writeEntries rest

end

def spread (fields : List (Text × Text)) : Text :=
  let lines := fields.map fun (name, json) => "  ".toList ++ quote name ++ ": ".toList ++ json
  if fields = [] then ['\x7b', '\x7d']
  else ['\x7b', '\n'] ++ Text.join [',', '\n'] lines ++ ['\n', '\x7d']

end TextTemplate.Json
