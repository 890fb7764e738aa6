import Mathlib.Data.List.Forall2
import Mathlib.Data.List.Nodup
import TextTemplate.Json.Fields
import TextTemplate.Json
import TextTemplate.Proofs.Json.Literals

namespace TextTemplate.Json

theorem hexDigit?_digitChar {n : Nat} (small : n < 16) : Text.hexDigit? (Nat.digitChar n) = some n := by
  have all : ∀ n < 16, Text.hexDigit? (Nat.digitChar n) = some n := by decide
  exact all n small

theorem unescape?_control {c : Char} (control : c.toNat < 0x20) (t : Text) :
    unescape? ((controlEscape c).tail ++ t) = some (c, t) := by
  have unit : codeUnit? ('0' :: '0' :: Nat.digitChar (c.toNat / 16) :: Nat.digitChar (c.toNat % 16) :: t) =
      some (c.toNat, t) := by
    have zero : Text.hexDigit? '0' = some 0 := by decide
    simp only [codeUnit?, zero, hexDigit?_digitChar (show c.toNat / 16 < 16 by omega),
      hexDigit?_digitChar (show c.toNat % 16 < 16 by omega), Option.bind_eq_bind, Option.bind_some, Option.pure_def]
    congr 2
    omega
  change codePoint? ('0' :: '0' :: Nat.digitChar (c.toNat / 16) :: Nat.digitChar (c.toNat % 16) :: t) = _
  simp only [codePoint?, unit, Option.bind_eq_bind, Option.bind_some]
  rw [if_neg (by omega), if_neg (by omega), Char.ofNat_toNat, Option.pure_def]

theorem readString_escape (c : Char) (limit : Nat) (t : Text) :
    readString (limit + 1) (escape c ++ t) = (readString limit t).map fun (s, rest) => (c :: s, rest) := by
  have step (opening : Text) (escaped : unescape? (opening ++ t) = some (c, t)) :
      readString (limit + 1) ('\\' :: (opening ++ t)) = (readString limit t).map fun (s, rest) => (c :: s, rest) := by
    rw [readString, escaped, Option.bind_eq_bind, Option.bind_some]
    dsimp only
    cases readString limit t <;> rfl
  unfold escape
  split
  -- Only what has no escape of its own is left, which is written by its code point or as it stands.
  case h_8 noQuote noEscape _ _ _ _ _ =>
    split
    · rename_i control
      exact step _ (unescape?_control control t)
    · rename_i printable
      rw [List.singleton_append, readString]
      · rw [if_neg printable]
        cases readString limit t <;> rfl
      · exact noQuote
      · exact noEscape
  all_goals exact step [_] rfl

theorem readString_quoted {limit : Nat} {t : Text} (enough : t.length < limit) (rest : Text) :
    readString limit (t.flatMap escape ++ '"' :: rest) = some (t, rest) := by
  induction t generalizing limit with
  | nil =>
      obtain ⟨limit, rfl⟩ := Nat.exists_eq_succ_of_ne_zero (Nat.ne_of_gt enough)
      rfl
  | cons c t ih =>
      obtain ⟨limit, rfl⟩ := Nat.exists_eq_succ_of_ne_zero (Nat.ne_of_gt (Nat.zero_lt_of_lt enough))
      rw [List.flatMap_cons, List.append_assoc, Nat.succ_eq_add_one, readString_escape,
        ih (Nat.lt_of_succ_lt_succ enough), Option.map_some]

theorem length_le_escaped (t : Text) : t.length ≤ (t.flatMap escape).length := by
  have some_char (c : Char) : 1 ≤ (escape c).length := by
    unfold escape
    split <;> try exact Nat.le_add_left _ _
    split <;> exact Nat.le_add_left _ _
  induction t with
  | nil => rfl
  | cons c t ih =>
      have := some_char c
      simp only [List.flatMap_cons, List.length_append, List.length_cons]
      omega

theorem readString_quote (t rest : Text) :
    readString ((t.flatMap escape ++ '"' :: rest).length + 1) (t.flatMap escape ++ '"' :: rest) = some (t, rest) := by
  refine readString_quoted ?_ rest
  have := length_le_escaped t
  simp only [List.length_append]
  omega

theorem skipBlanks_cons {c : Char} (solid : isBlank c = false) (t : Text) : skipBlanks (c :: t) = c :: t :=
  List.dropWhile_cons_of_neg (by rw [solid]; exact Bool.false_ne_true)

theorem quote_append (t rest : Text) : quote t ++ rest = '"' :: (t.flatMap escape ++ '"' :: rest) := by
  simp [quote]

theorem skipBlanks_quote (t rest : Text) : skipBlanks (quote t ++ rest) = quote t ++ rest :=
  skipBlanks_cons (by decide) _

/-- A text that is read as a value, behind any blanks and whatever follows it. -/
def Reads (json : Text) (v : Value) : Prop :=
  ∀ depth limit t rest, skipBlanks t = skipBlanks (json ++ rest) → readValue depth (limit + 1) t = some (v, rest)

theorem reads_quote (t : Text) : Reads (quote t) (.text t) := by
  intro depth limit u rest starts
  rw [skipBlanks_quote] at starts
  simp only [readValue, starts, quote_append, readString_quote, Option.bind_eq_bind, Option.bind_some, Option.pure_def]

theorem reads_bool (b : Bool) : Reads (write (.bool b)) (.bool b) := by
  intro depth limit u rest starts
  cases b with
  | false =>
      have word : skipBlanks u = 'f' :: 'a' :: 'l' :: 's' :: 'e' :: rest := starts
      simp only [readValue, word]
      rfl
  | true =>
      have word : skipBlanks u = 't' :: 'r' :: 'u' :: 'e' :: rest := starts
      simp only [readValue, word]
      rfl

theorem readKey_quote {t name rest : Text} (starts : skipBlanks t = quote name ++ ':' :: rest) :
    readKey t = some (name, rest) := by
  simp only [readKey, starts, quote_append, readString_quote, Option.bind_eq_bind, Option.bind_some,
    skipBlanks_cons (show isBlank ':' = false by decide), Option.pure_def]

def Fields (fields : List (Text × Text)) (entries : List (Text × Value)) : Prop :=
  List.Forall₂ (fun field entry => field.1 = entry.1 ∧ Reads field.2 entry.2) fields entries

def line (field : Text × Text) : Text := "  ".toList ++ quote field.1 ++ ": ".toList ++ field.2

theorem skipBlanks_line (field : Text × Text) (behind : Text) :
    skipBlanks (line field ++ behind) = quote field.1 ++ ':' :: ' ' :: (field.2 ++ behind) := by
  rw [← skipBlanks_quote]
  simp only [line, List.append_assoc]
  rfl

theorem lines_cons {fields : List (Text × Text)} (more : fields ≠ []) (field : Text × Text) :
    Text.join [',', '\n'] ((field :: fields).map line) =
      line field ++ ',' :: '\n' :: Text.join [',', '\n'] (fields.map line) := by
  have lines : fields.map line ≠ [] := fun none => more (List.map_eq_nil_iff.mp none)
  rw [List.map_cons, Text.join, List.intercalate_cons_of_ne_nil lines, List.append_assoc]
  rfl

theorem exists_line (field : Text × Text) (fields : List (Text × Text)) :
    ∃ more, Text.join [',', '\n'] ((field :: fields).map line) = line field ++ more := by
  by_cases single : fields = []
  · exact ⟨[], by rw [single, List.map_singleton, Text.join, List.intercalate_singleton, List.append_nil]⟩
  · exact ⟨_, lines_cons single field⟩

theorem spread_append (field : Text × Text) (fields : List (Text × Text)) (behind : Text) :
    spread (field :: fields) ++ behind =
      '\x7b' :: '\n' :: (Text.join [',', '\n'] ((field :: fields).map line) ++ '\n' :: '\x7d' :: behind) := by
  change ['\x7b', '\n'] ++ Text.join [',', '\n'] ((field :: fields).map line) ++ ['\n', '\x7d'] ++ behind = _
  simp only [List.append_assoc]
  rfl

section
variable {wanted : List Text} {fields : List (Text × Text)} {entries : List (Text × Value)} {t behind rest : Text}
  {name json : Text} {v : Value}

theorem readKey_line (starts : skipBlanks t = skipBlanks (line (name, json) ++ behind)) :
    readKey t = some (name, ' ' :: (json ++ behind)) :=
  readKey_quote (starts.trans (skipBlanks_line _ _))

theorem readField_line (known : name ∈ wanted) (reads : Reads json v) :
    readField wanted name (' ' :: (json ++ behind)) = some (some v, behind) := by
  have listed : wanted.any (· = name) = true := List.any_eq_true.mpr ⟨name, known, decide_eq_true rfl⟩
  have value : readValue 1 (2 * (' ' :: (json ++ behind)).length + 2) (' ' :: (json ++ behind)) = some (v, behind) :=
    reads 1 _ _ _ rfl
  rw [readField, listed, if_pos rfl, value, Option.map_some]

theorem readFields_more (known : name ∈ wanted) (reads : Reads json v)
    (starts : skipBlanks t = skipBlanks (line (name, json) ++ behind)) (comma : skipBlanks behind = ',' :: rest)
    (limit : Nat) :
    readFields wanted (limit + 1) t =
      (readFields wanted limit rest).map fun (more, rest) => ((name, v) :: more, rest) := by
  simp only [readFields, readKey_line starts, readField_line known reads, comma, Option.bind_eq_bind, Option.bind_some]
  cases readFields wanted limit rest <;> rfl

theorem readFields_last (known : name ∈ wanted) (reads : Reads json v)
    (starts : skipBlanks t = skipBlanks (line (name, json) ++ behind)) (brace : skipBlanks behind = '\x7d' :: rest)
    (limit : Nat) : readFields wanted (limit + 1) t = some ([(name, v)], rest) := by
  simp only [readFields, readKey_line starts, readField_line known reads, brace, Option.bind_eq_bind, Option.bind_some]
  rfl

theorem readFields_lines (h : Fields fields entries) (known : ∀ entry ∈ entries, entry.1 ∈ wanted)
    (given : fields ≠ []) {limit : Nat} (enough : fields.length ≤ limit)
    (starts : skipBlanks t = skipBlanks (Text.join [',', '\n'] (fields.map line) ++ '\n' :: '\x7d' :: rest)) :
    readFields wanted limit t = some (entries, rest) := by
  induction h generalizing limit t with
  | nil => exact absurd rfl given
  | @cons field entry fields entries own others ih =>
      obtain ⟨name, json⟩ := field
      obtain ⟨_, v⟩ := entry
      obtain ⟨rfl, reads⟩ := own
      obtain ⟨here, later⟩ := List.forall_mem_cons.mp known
      obtain ⟨limit, rfl⟩ := Nat.exists_eq_succ_of_ne_zero (Nat.ne_of_gt (Nat.zero_lt_of_lt enough))
      by_cases single : fields = []
      · subst single
        cases others
        rw [List.map_singleton, Text.join, List.intercalate_singleton] at starts
        exact readFields_last here reads starts rfl limit
      · rw [lines_cons single, List.append_assoc, List.cons_append, List.cons_append] at starts
        let behind := '\n' :: (Text.join [',', '\n'] (fields.map line) ++ '\n' :: '\x7d' :: rest)
        have others : readFields wanted limit behind = some (entries, rest) :=
          ih later single (Nat.le_of_succ_le_succ enough) rfl
        rw [Nat.succ_eq_add_one, readFields_more here reads starts rfl, others, Option.map_some]

theorem length_le_lines (fields : List (Text × Text)) :
    fields.length ≤ (Text.join [',', '\n'] (fields.map line)).length := by
  induction fields with
  | nil => exact Nat.zero_le _
  | cons field fields ih =>
      have first : 1 ≤ (line field).length := by simp [line]
      by_cases single : fields = []
      · subst single
        simpa [Text.join] using first
      · rw [lines_cons single]
        simp only [List.length_append, List.length_cons]
        omega

theorem skipBlanks_eq_nil {blanks : Text} (blank : ∀ c ∈ blanks, isBlank c = true) : skipBlanks blanks = [] :=
  List.dropWhile_eq_nil_iff.mpr blank

theorem readFields?_spread (h : Fields fields entries) (known : ∀ entry ∈ entries, entry.1 ∈ wanted)
    {blanks : Text} (blank : ∀ c ∈ blanks, isBlank c = true) :
    readFields? wanted (spread fields ++ blanks) = some entries := by
  cases fields with
  | nil =>
      cases h
      change (if skipBlanks blanks = [] then some [] else none) = some []
      rw [if_pos (skipBlanks_eq_nil blank)]
  | cons field fields =>
      have whole := spread_append field fields blanks
      generalize inside : Text.join [',', '\n'] ((field :: fields).map line) ++ '\n' :: '\x7d' :: blanks = body at whole
      obtain ⟨t, quoted⟩ : ∃ t, skipBlanks body = '"' :: t := by
        obtain ⟨more, front⟩ := exists_line field fields
        rw [← inside, front, List.append_assoc, skipBlanks_line, quote_append]
        exact ⟨_, rfl⟩
      have enough : (field :: fields).length ≤ ('\x7b' :: '\n' :: body).length + 1 := by
        have := length_le_lines (field :: fields)
        simp only [← inside, List.length_append, List.length_cons] at this ⊢
        omega
      have reads : readFields wanted (('\x7b' :: '\n' :: body).length + 1) ('"' :: t) = some (entries, blanks) := by
        refine readFields_lines h known (List.cons_ne_nil _ _) enough ?_
        rw [inside, quoted]
        rfl
      have opened : skipBlanks ('\x7b' :: '\n' :: body) = '\x7b' :: '\n' :: body := skipBlanks_cons (by decide) _
      have behind : skipBlanks ('\n' :: body) = '"' :: t := quoted
      simp only [whole, readFields?, opened, Lexer.isPrefixOf?_cons, behind, Option.bind_eq_bind, Option.bind_some,
        Option.pure_def]
      change (readFields wanted (('\x7b' :: '\n' :: body).length + 1) ('"' :: t)).bind _ = some entries
      rw [reads, Option.bind_some, if_pos (skipBlanks_eq_nil blank)]

theorem readRecord?_spread (h : Fields fields entries) (known : ∀ entry ∈ entries, entry.1 ∈ wanted)
    (distinct : (entries.map Prod.fst).Nodup) {blanks : Text} (blank : ∀ c ∈ blanks, isBlank c = true) :
    readRecord? wanted (spread fields ++ blanks) = some entries := by
  have once (name : Text) : repeats entries name = false := by
    have single : (entries.filter fun field => field.1 = name).length ≤ 1 := by
      have counted := List.nodup_iff_count_le_one.mp distinct name
      rw [List.count, List.countP_map, List.countP_eq_length_filter] at counted
      simpa only [Function.comp_def, beq_eq_decide] using counted
    exact decide_eq_false (Nat.not_lt.mpr single)
  have none_twice : wanted.any (repeats entries) = false := List.any_eq_false.mpr fun name _ => by simp [once name]
  rw [readRecord?, readFields?_spread h known blank]
  simp only [none_twice, Bool.false_eq_true, if_false]

end

end TextTemplate.Json
