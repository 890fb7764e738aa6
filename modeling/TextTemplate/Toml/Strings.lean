import TextTemplate.Text

namespace TextTemplate.Toml

def isPlain (c : Char) : Bool := c = '\t' || (0x20 ≤ c.toNat && c.toNat ≠ 0x7F)

def isBlank (c : Char) : Bool := c = ' ' || c = '\t'

def skipBlanks (t : Text) : Text := t.dropWhile isBlank

def lineBreak? : Text → Option Text
  | '\n' :: rest => some rest
  | '\r' :: '\n' :: rest => some rest
  | _ => none

def codePoint? (digits : Nat) (t : Text) : Option (Char × Text) := do
  let spelled := t.take digits
  if spelled.length ≠ digits then none
  let values ← spelled.mapM Text.hexDigit?
  let number := values.foldl (fun n digit => 16 * n + digit) 0
  if number < 0xD800 ∨ (0xE000 ≤ number ∧ number < 0x110000) then return (Char.ofNat number, t.drop digits)
  else none

def unescape? : Text → Option (Char × Text)
  | '"' :: rest => some ('"', rest)
  | '\\' :: rest => some ('\\', rest)
  | 'b' :: rest => some ('\x08', rest)
  | 'f' :: rest => some ('\x0c', rest)
  | 'n' :: rest => some ('\n', rest)
  | 'r' :: rest => some ('\r', rest)
  | 't' :: rest => some ('\t', rest)
  | 'u' :: rest => codePoint? 4 rest
  | 'U' :: rest => codePoint? 8 rest
  | _ => none

def readLiteral : Text → Option (Text × Text)
  | [] => none
  | '\'' :: rest => some ([], rest)
  | c :: rest =>
      if isPlain c then (readLiteral rest).map fun (t, rest) => (c :: t, rest) else none

def readBasic : (limit : Nat) → Text → Option (Text × Text)
  | 0, _ => none
  | _ + 1, [] => none
  | _ + 1, '"' :: rest => some ([], rest)
  | limit + 1, '\\' :: rest => do
      let (c, rest) ← unescape? rest
      let (t, rest) ← readBasic limit rest
      return (c :: t, rest)
  | limit + 1, c :: rest =>
      if isPlain c then (readBasic limit rest).map fun (t, rest) => (c :: t, rest) else none

def skipLines : (limit : Nat) → Text → Text
  | 0, t => t
  | limit + 1, t =>
      match lineBreak? (skipBlanks t) with
      | some rest => skipLines limit rest
      | none => skipBlanks t

def joinedLine? (t : Text) : Option Text :=
  (lineBreak? (skipBlanks t)).map fun rest => skipLines (rest.length + 1) rest

def quoteRun (quote : Char) (t : Text) : Nat × Bool × Text :=
  let run := (t.takeWhile (· = quote)).length
  if run < 3 then (run, false, t.drop run) else (min run 5 - 3, true, t.drop (min run 5))

def readLines (quote : Char) : (limit : Nat) → Text → Option (Text × Text)
  | 0, _ => none
  | _ + 1, [] => none
  | limit + 1, c :: rest =>
      if c = quote then
        match quoteRun quote (c :: rest) with
        | (kept, true, rest) => some (List.replicate kept quote, rest)
        | (kept, false, rest) =>
            (readLines quote limit rest).map fun (t, rest) => (List.replicate kept quote ++ t, rest)
      else if let some rest := lineBreak? (c :: rest) then
        (readLines quote limit rest).map fun (t, rest) => ('\n' :: t, rest)
      else if c = '\\' ∧ quote = '"' then
        match joinedLine? rest with
        | some rest => readLines quote limit rest
        | none => do
            let (escaped, rest) ← unescape? rest
            let (t, rest) ← readLines quote limit rest
            return (escaped :: t, rest)
      else if isPlain c then (readLines quote limit rest).map fun (t, rest) => (c :: t, rest)
      else none

def readMultiline (quote : Char) (t : Text) : Option (Text × Text) :=
  let t := (lineBreak? t).getD t
  readLines quote (t.length + 1) t

def readOneLine? : Text → Option (Text × Text)
  | '"' :: rest => readBasic (rest.length + 1) rest
  | '\'' :: rest => readLiteral rest
  | _ => none

def readString? (t : Text) : Option (Text × Text) :=
  if let some rest := ['"', '"', '"'].isPrefixOf? t then readMultiline '"' rest
  else if let some rest := ['\'', '\'', '\''].isPrefixOf? t then readMultiline '\'' rest
  else readOneLine? t

end TextTemplate.Toml
