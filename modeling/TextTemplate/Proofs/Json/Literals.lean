import TextTemplate.Json
import TextTemplate.Proofs.Text.Outside

/-!
# The strings of a document in its text

A document the reader accepts is made of strings and of a few characters between them, and a string ends at the first
quote that is not behind a backslash. So what stands in strings and what does not is told from the text alone
(`literals`), and every character outside strings is one that the grammar itself uses (`read?_laid`).
-/

namespace TextTemplate.Json

/-! ## The layout of documents -/

def isStructural (c : Char) : Bool := c.isDigit || c ∈ "\x7b\x7d[]:,+-. \t\n\rnultrfasEe".toList

inductive IsRaw : Text → Prop
  | nil : IsRaw []
  | plain {c : Char} {raw : Text} : c ≠ '"' → c ≠ '\\' → IsRaw raw → IsRaw (c :: raw)
  | escaped {c : Char} {raw : Text} : IsRaw raw → IsRaw ('\\' :: c :: raw)

/-- Texts of structural characters and whole strings, with what stands in the strings. -/
inductive Laid : List Text → Text → Prop
  | nil : Laid [] []
  | structural {c : Char} {raws : List Text} {t : Text} : isStructural c = true → Laid raws t → Laid raws (c :: t)
  | literal {raw : Text} {raws : List Text} {t : Text} : IsRaw raw → Laid raws t →
      Laid (raw :: raws) ('"' :: (raw ++ '"' :: t))

def literals : (opened : Option Text) → Text → List Text
  | _, [] => []
  | none, c :: rest => if c = '"' then literals (some []) rest else literals none rest
  | some raw, '\\' :: c :: rest => literals (some (raw ++ ['\\', c])) rest
  | some raw, c :: rest => if c = '"' then raw :: literals none rest else literals (some (raw ++ [c])) rest

theorem IsRaw.append {raw raw' : Text} (h : IsRaw raw) (h' : IsRaw raw') : IsRaw (raw ++ raw') := by
  induction h with
  | nil => exact h'
  | plain noQuote noEscape _ ih => exact .plain noQuote noEscape ih
  | escaped _ ih => exact .escaped ih

theorem literals_raw {raw : Text} (h : IsRaw raw) (front t : Text) :
    literals (some front) (raw ++ '"' :: t) = (front ++ raw) :: literals none t := by
  induction h generalizing front with
  | nil => simp [literals]
  | @plain c raw noQuote noEscape _ ih =>
      have step : literals (some front) (c :: (raw ++ '"' :: t)) = literals (some (front ++ [c])) (raw ++ '"' :: t) := by
        rw [literals, if_neg noQuote]
        exact fun c' rest same => absurd same noEscape
      rw [List.cons_append, step, ih, List.append_assoc, List.singleton_append]
  | @escaped c raw _ ih =>
      rw [List.cons_append, List.cons_append, literals, ih]
      simp

theorem Laid.literals_eq {raws : List Text} {t : Text} (h : Laid raws t) : literals none t = raws := by
  induction h with
  | nil => rfl
  | @structural c raws t outside _ ih =>
      have noQuote : c ≠ '"' := by
        rintro rfl
        cases outside
      rw [literals, if_neg noQuote, ih]
  | @literal raw raws t inside _ ih =>
      rw [literals, if_pos rfl, literals_raw inside, ih, List.nil_append]

theorem Laid.isRaw {raws : List Text} {t : Text} (h : Laid raws t) : ∀ raw ∈ raws, IsRaw raw := by
  induction h with
  | nil => exact List.forall_mem_nil _
  | structural _ _ ih => exact ih
  | literal inside _ ih => exact List.forall_mem_cons.mpr ⟨inside, ih⟩

theorem Laid.append {raws raws' : List Text} {t u : Text} (h : Laid raws t) (h' : Laid raws' u) :
    Laid (raws ++ raws') (t ++ u) := by
  induction h with
  | nil => exact h'
  | structural outside _ ih => exact .structural outside ih
  | @literal raw raws t inside _ ih =>
      rw [List.cons_append, List.cons_append, List.append_assoc, List.cons_append]
      exact .literal inside ih

/-! ## What readers pass over -/

def Eats (t rest : Text) : Prop := ∃ raws front, Laid raws front ∧ t = front ++ rest

namespace Eats
variable {t u rest : Text}

theorem refl (t : Text) : Eats t t := ⟨[], [], .nil, rfl⟩

theorem trans (h : Eats t u) (h' : Eats u rest) : Eats t rest := by
  obtain ⟨raws, front, laid, rfl⟩ := h
  obtain ⟨raws', front', laid', rfl⟩ := h'
  exact ⟨raws ++ raws', front ++ front', laid.append laid', (List.append_assoc _ _ _).symm⟩

theorem structural {front : Text} (h : ∀ c ∈ front, isStructural c = true) (rest : Text) : Eats (front ++ rest) rest := by
  refine ⟨[], front, ?_, rfl⟩
  induction front with
  | nil => exact .nil
  | cons c front ih =>
      obtain ⟨first, others⟩ := List.forall_mem_cons.mp h
      exact .structural first (ih others)

theorem literal {raw : Text} (h : IsRaw raw) (rest : Text) : Eats ('"' :: (raw ++ '"' :: rest)) rest :=
  ⟨[raw], _, .literal h .nil, by simp⟩

theorem dropWhile {p : Char → Bool} (h : ∀ c, p c = true → isStructural c = true) (t : Text) : Eats t (t.dropWhile p) := by
  have passed : Eats (t.takeWhile p ++ t.dropWhile p) (t.dropWhile p) :=
    structural (fun c member => h c (List.mem_takeWhile_imp member)) _
  rwa [List.takeWhile_append_dropWhile] at passed

theorem skipBlanks (t : Text) : Eats t (skipBlanks t) := by
  have all : [' ', '\t', '\n', '\r'].all isStructural = true := by decide
  exact dropWhile (fun c blank => List.all_eq_true.mp all c (of_decide_eq_true blank)) t

theorem past {c : Char} (h : Eats t (c :: rest)) (mark : isStructural c = true) : Eats t rest :=
  h.trans ⟨[], [c], .structural mark .nil, rfl⟩

theorem mark {c : Char} (mark : isStructural c = true) (rest : Text) : Eats (c :: rest) rest := (refl _).past mark

theorem next (h : Eats t u) (same : Json.skipBlanks u = rest) : Eats t rest := same ▸ h.trans (skipBlanks u)

end Eats

def isEscape (c : Char) : Bool := (Text.hexDigit? c).isSome || c ∈ "\"\\/bfnrtu".toList

structure Escape (escape : Text) (c : Char) : Prop where
  raw : IsRaw ('\\' :: escape)
  chars : ∀ d ∈ escape, isEscape d = true
  quote : '"' ∈ escape → c = '"'

/-- What stands between the quotes of a string, and the text that the string is. -/
inductive Spells : Text → Text → Prop
  | nil : Spells [] []
  | plain {c : Char} {raw s : Text} : c ≠ '"' → c ≠ '\\' → Spells raw s → Spells (c :: raw) (c :: s)
  | escaped {escape raw s : Text} {c : Char} : Escape escape c → Spells raw s →
      Spells ('\\' :: (escape ++ raw)) (c :: s)

theorem Spells.isRaw {raw s : Text} (h : Spells raw s) : IsRaw raw := by
  induction h with
  | nil => exact .nil
  | plain noQuote noEscape _ ih => exact .plain noQuote noEscape ih
  | escaped escape _ ih => exact escape.raw.append ih

theorem isRaw_of_hex {digits : Text} (hex : ∀ d ∈ digits, (Text.hexDigit? d).isSome = true) : IsRaw digits := by
  induction digits with
  | nil => exact .nil
  | cons d digits ih =>
      obtain ⟨first, others⟩ := List.forall_mem_cons.mp hex
      refine .plain ?_ ?_ (ih others)
      · rintro rfl
        cases first
      · rintro rfl
        cases first

theorem exists_hex {t rest : Text} {unit : Nat} (h : codeUnit? t = some (unit, rest)) :
    ∃ digits, (∀ d ∈ digits, (Text.hexDigit? d).isSome = true) ∧ t = digits ++ rest := by
  unfold codeUnit? at h
  split at h
  · rename_i a b c d more
    simp only [Option.bind_eq_bind, Option.bind_eq_some_iff, Option.pure_def, Option.some.injEq, Prod.mk.injEq] at h
    obtain ⟨va, ha, vb, hb, vc, hc, vd, hd, -, rfl⟩ := h
    exact ⟨[a, b, c, d], by simp [ha, hb, hc, hd], rfl⟩
  · cases h

theorem escape_of_hex {digits : Text} (hex : ∀ d ∈ digits, (Text.hexDigit? d).isSome = true) (c : Char) :
    Escape ('u' :: digits) c := by
  refine ⟨.escaped (isRaw_of_hex hex), ?_, ?_⟩
  · refine List.forall_mem_cons.mpr ⟨by decide, fun d member => ?_⟩
    rw [isEscape, hex d member, Bool.true_or]
  · simp only [List.mem_cons, Char.reduceEq, false_or]
    intro member
    cases hex _ member

theorem Escape.pair {escape escape' : Text} {c : Char} (h : Escape escape c) (h' : Escape escape' c) :
    Escape (escape ++ '\\' :: escape') c where
  raw := h.raw.append h'.raw
  chars := List.forall_mem_append.mpr ⟨h.chars, List.forall_mem_cons.mpr ⟨by decide, h'.chars⟩⟩
  quote := by
    simp only [List.mem_append, List.mem_cons, Char.reduceEq, false_or]
    exact Or.rec h.quote h'.quote

theorem exists_codePoint {t rest : Text} {c : Char} (h : codePoint? t = some (c, rest)) :
    ∃ digits, Escape ('u' :: digits) c ∧ t = digits ++ rest := by
  obtain ⟨⟨unit, behind⟩, first, reads⟩ := Option.bind_eq_some_iff.mp h
  obtain ⟨digits, hex, rfl⟩ := exists_hex first
  dsimp only at reads
  split at reads
  · split at reads
    · obtain ⟨⟨unit', behind'⟩, second, reads'⟩ := Option.bind_eq_some_iff.mp reads
      obtain ⟨digits', hex', rfl⟩ := exists_hex second
      dsimp only at reads'
      split at reads'
      · simp only [Option.pure_def, Option.some.injEq, Prod.mk.injEq] at reads'
        obtain ⟨-, rfl⟩ := reads'
        exact ⟨digits ++ '\\' :: 'u' :: digits', (escape_of_hex hex c).pair (escape_of_hex hex' c), by simp⟩
      · cases reads'
    · cases reads
  · split at reads
    · cases reads
    · simp only [Option.pure_def, Option.some.injEq, Prod.mk.injEq] at reads
      obtain ⟨-, rfl⟩ := reads
      exact ⟨digits, escape_of_hex hex c, rfl⟩

theorem exists_escape {t rest : Text} {c : Char} (h : unescape? t = some (c, rest)) :
    ∃ escape, Escape escape c ∧ t = escape ++ rest := by
  unfold unescape? at h
  split at h
  case h_9 =>
    obtain ⟨digits, escape, rfl⟩ := exists_codePoint h
    exact ⟨_, escape, rfl⟩
  case h_10 => cases h
  all_goals
    cases h
    exact ⟨[_], ⟨.escaped .nil, List.forall_mem_singleton.mpr (by decide), by decide⟩, rfl⟩

theorem readString_eq_some {limit : Nat} {t s rest : Text} (h : readString limit t = some (s, rest)) :
    ∃ raw, Spells raw s ∧ t = raw ++ '"' :: rest := by
  fun_induction readString limit t generalizing s with
  | case1 => cases h
  | case2 => cases h
  | case3 limit rest' =>
      cases h
      exact ⟨[], .nil, rfl⟩
  | case4 limit rest' ih =>
      obtain ⟨⟨c, behind⟩, unescaped, reads⟩ := Option.bind_eq_some_iff.mp h
      obtain ⟨⟨s', behind'⟩, string, ends⟩ := Option.bind_eq_some_iff.mp reads
      cases ends
      obtain ⟨escape, isEscape, rfl⟩ := exists_escape unescaped
      obtain ⟨raw, spells, rfl⟩ := ih behind string
      exact ⟨_, .escaped isEscape spells, by simp⟩
  | case5 => cases h
  | case6 limit c rest' noQuote noEscape printable ih =>
      obtain ⟨⟨s', behind⟩, string, ends⟩ := Option.bind_eq_some_iff.mp h
      cases ends
      obtain ⟨raw, spells, rfl⟩ := ih string
      exact ⟨c :: raw, .plain noQuote noEscape spells, rfl⟩

namespace Spells
variable {raw s more : Text} {c : Char}

theorem prefix_of_raw {word : Text} (h : Spells raw s) (plain : '\\' ∉ word) (front : word <+: raw) : word <+: s := by
  induction h generalizing word with
  | nil => exact front
  | @plain c raw s _ _ _ ih =>
      cases word with
      | nil => exact List.nil_prefix
      | cons d word =>
          obtain ⟨rfl, later⟩ := List.cons_prefix_cons.mp front
          exact List.cons_prefix_cons.mpr ⟨rfl, ih (List.not_mem_of_not_mem_cons plain) later⟩
  | @escaped escape raw s c _ _ ih =>
      cases word with
      | nil => exact List.nil_prefix
      | cons d word =>
          obtain ⟨rfl, -⟩ := List.cons_prefix_cons.mp front
          exact absurd List.mem_cons_self plain

theorem infix_behind {front back : Text} (other : c ∉ front) (inside : c :: more <:+: front ++ back) :
    c :: more <:+: back := by
  induction front with
  | nil => exact inside
  | cons d front ih =>
      rw [List.mem_cons, not_or] at other
      rcases List.infix_cons_iff.mp inside with here | later
      · exact absurd (List.cons_prefix_cons.mp here).1 other.1
      · exact ih other.2 later

theorem infix_of_raw (h : Spells raw s) (solid : isEscape c = false) (plain : '\\' ∉ c :: more)
    (inside : c :: more <:+: raw) : c :: more <:+: s := by
  induction h with
  | nil => exact inside
  | plain noQuote noEscape spells ih =>
      rcases List.infix_cons_iff.mp inside with here | later
      · exact ((Spells.plain noQuote noEscape spells).prefix_of_raw plain here).isInfix
      · exact List.infix_cons (ih later)
  | @escaped escape raw s d isEscape' _ ih =>
      have other : c ∉ '\\' :: escape := by
        rw [List.mem_cons, not_or]
        refine ⟨fun same => plain (same ▸ List.mem_cons_self), fun member => ?_⟩
        rw [isEscape'.chars c member] at solid
        cases solid
      exact List.infix_cons (ih (infix_behind other inside))

theorem quote_mem (h : Spells raw s) {q : Char} (quote : Text.isQuote q = true) (member : q ∈ raw) : q ∈ s := by
  induction h with
  | nil => exact member
  | plain _ _ _ ih =>
      rcases List.mem_cons.mp member with rfl | member
      · exact List.mem_cons_self
      · exact List.mem_cons_of_mem _ (ih member)
  | @escaped escape raw s c isEscape' _ ih =>
      rw [List.mem_cons, List.mem_append] at member
      rcases member with rfl | member | member
      · cases quote
      · rcases Text.isQuote_iff.mp quote with rfl | rfl
        · exact isEscape'.quote member ▸ List.mem_cons_self
        · cases isEscape'.chars '\'' member
      · exact List.mem_cons_of_mem _ (ih member)

end Spells

def contents (raw : Text) : Text := ((readString (raw.length + 1) (raw ++ ['"'])).map Prod.fst).getD raw

theorem spells_contents {raw : Text} (h : IsRaw raw) : contents raw = raw ∨ Spells raw (contents raw) := by
  rw [contents]
  cases reads : readString (raw.length + 1) (raw ++ ['"']) with
  | none => exact .inl rfl
  | some result =>
      obtain ⟨s, rest⟩ := result
      obtain ⟨raw', spells, whole⟩ := readString_eq_some reads
      have found := literals_raw h [] []
      rw [whole, literals_raw spells.isRaw] at found
      obtain ⟨same, -⟩ := List.cons.inj found
      rw [List.nil_append, List.nil_append] at same
      exact .inr (same ▸ spells)

theorem eats_string {limit : Nat} {t s rest : Text} (h : readString limit t = some (s, rest)) : Eats ('"' :: t) rest := by
  obtain ⟨raw, spells, rfl⟩ := readString_eq_some h
  exact .literal spells.isRaw rest

theorem eats_key {t key rest : Text} (h : readKey t = some (key, rest)) : Eats t rest := by
  unfold readKey at h
  split at h
  · rename_i behind quote
    obtain ⟨⟨key', behind'⟩, string, ends⟩ := Option.bind_eq_some_iff.mp h
    have passed := ((Eats.refl t).next quote).trans (eats_string string)
    dsimp only at ends
    split at ends
    · rename_i colon
      cases ends
      exact (passed.next colon).past (by decide)
    · cases ends
  · cases h

theorem structural_of_digit {c : Char} (h : c.isDigit = true) : isStructural c = true := by
  simp [isStructural, h]

theorem eats_digits {t digits rest : Text} (h : Text.digits? t = some (digits, rest)) : Eats t rest := by
  unfold Text.digits? Text.takeDigits at h
  split at h
  · cases h
  · cases h
    exact .dropWhile (fun _ => structural_of_digit) t

namespace Numeral

theorem eats_whole {t whole rest : Text} (h : whole? t = some (whole, rest)) : Eats t rest := by
  unfold whole? at h
  split at h
  · split at h
    · cases h
    · cases h
      exact .mark (by decide) _
  · exact eats_digits h

theorem eats_fraction {t rest : Text} {fraction : Option Text} (h : fraction? t = some (fraction, rest)) :
    Eats t rest := by
  unfold fraction? at h
  split at h
  · obtain ⟨⟨digits, behind⟩, read, ends⟩ := Option.map_eq_some_iff.mp h
    cases ends
    exact (Eats.mark (by decide) _).trans (eats_digits read)
  · cases h
    exact .refl t

theorem eats_sign (t : Text) : Eats t (Number.Numeral.takeSign t).2 := by
  unfold Number.Numeral.takeSign
  split
  · exact .mark (by decide) _
  · exact .mark (by decide) _
  · exact .refl t

theorem eats_exponent {t rest : Text} {exponent : Option (Bool × Text)} (h : exponent? t = some (exponent, rest)) :
    Eats t rest := by
  unfold exponent? at h
  split at h
  · rename_i c behind
    split at h
    · rename_i letter
      obtain ⟨⟨digits, behind'⟩, read, ends⟩ := Option.bind_eq_some_iff.mp h
      cases ends
      have mark : isStructural c = true := by rcases letter with rfl | rfl <;> decide
      exact (Eats.mark mark _).trans ((eats_sign behind).trans (eats_digits read))
    · cases h
      exact .refl _
  · cases h
    exact .refl _

theorem eats_pieces {t rest : Text} {pieces : Number.Numeral} (h : pieces? t = some (pieces, rest)) : Eats t rest := by
  unfold pieces? at h
  split at h
  rename_i negative behind signed
  obtain ⟨⟨whole, afterWhole⟩, readWhole, h⟩ := Option.bind_eq_some_iff.mp h
  obtain ⟨⟨fraction, afterFraction⟩, readFraction, h⟩ := Option.bind_eq_some_iff.mp h
  obtain ⟨⟨exponent, afterExponent⟩, readExponent, h⟩ := Option.bind_eq_some_iff.mp h
  cases h
  have sign : Eats t behind := by
    split at signed
    · cases signed
      exact .mark (by decide) _
    · cases signed
      exact .refl _
  exact sign.trans ((eats_whole readWhole).trans ((eats_fraction readFraction).trans (eats_exponent readExponent)))

theorem eats_number {t rest : Text} {n : Number} (h : read? t = some (n, rest)) : Eats t rest := by
  obtain ⟨⟨pieces, behind⟩, read, value⟩ := Option.bind_eq_some_iff.mp h
  obtain ⟨n', -, ends⟩ := Option.bind_eq_some_iff.mp value
  cases ends
  exact eats_pieces read

end Numeral

theorem eats_word {word t rest : Text} (letters : word.all isStructural = true)
    (h : word.isPrefixOf? t = some rest) : Eats t rest := by
  rw [Lexer.eq_of_isPrefixOf? h]
  exact .structural (List.all_eq_true.mp letters) rest

inductive ReadsValue (depth limit : Nat) (t rest : Text) : Value → Prop
  | text {behind s : Text} : skipBlanks t = '"' :: behind → readString (behind.length + 1) behind = some (s, rest) →
      ReadsValue depth limit t rest (.text s)
  | emptyArray {behind : Text} : skipBlanks t = '[' :: behind → skipBlanks behind = ']' :: rest →
      ReadsValue depth limit t rest (.array [])
  | array {behind : Text} {items : List Value} : skipBlanks t = '[' :: behind →
      readItems (depth + 1) limit (skipBlanks behind) = some (items, rest) → ReadsValue depth limit t rest (.array items)
  | emptyObject {behind : Text} : skipBlanks t = '\x7b' :: behind → skipBlanks behind = '\x7d' :: rest →
      ReadsValue depth limit t rest (.object [])
  | object {behind : Text} {pairs : List (Text × Value)} : skipBlanks t = '\x7b' :: behind →
      readPairs (depth + 1) limit (skipBlanks behind) = some (pairs, rest) →
      ReadsValue depth limit t rest (.object (Entries.ofList pairs))
  | null : "null".toList.isPrefixOf? (skipBlanks t) = some rest → ReadsValue depth limit t rest .null
  | true : "true".toList.isPrefixOf? (skipBlanks t) = some rest → ReadsValue depth limit t rest (.bool true)
  | false : "false".toList.isPrefixOf? (skipBlanks t) = some rest → ReadsValue depth limit t rest (.bool false)
  | number {n : Number} : Numeral.read? (skipBlanks t) = some (n, rest) → ReadsValue depth limit t rest (.number n)

section
variable {limit depth : Nat} {t rest : Text}

theorem reads_of_readValue {v : Value} (h : readValue depth (limit + 1) t = some (v, rest)) :
    ReadsValue depth limit t rest v := by
  unfold readValue at h
  split at h
  · rename_i behind quote
    obtain ⟨⟨s, behind'⟩, string, ends⟩ := Option.bind_eq_some_iff.mp h
    cases ends
    exact .text quote string
  · rename_i behind bracket
    split at h
    · cases h
    · split at h
      · rename_i closed
        cases h
        exact .emptyArray bracket closed
      · obtain ⟨⟨items, behind'⟩, read, ends⟩ := Option.bind_eq_some_iff.mp h
        cases ends
        exact .array bracket read
  · rename_i behind brace
    split at h
    · cases h
    · split at h
      · rename_i closed
        cases h
        exact .emptyObject brace closed
      · obtain ⟨⟨pairs, behind'⟩, read, ends⟩ := Option.bind_eq_some_iff.mp h
        cases ends
        exact .object brace read
  · split at h
    · rename_i word
      cases h
      exact .null word
    · split at h
      · rename_i word
        cases h
        exact .true word
      · split at h
        · rename_i word
          cases h
          exact .false word
        · obtain ⟨⟨n, behind⟩, read, ends⟩ := Option.bind_eq_some_iff.mp h
          cases ends
          exact .number read

theorem readItems_cases {items : List Value} (h : readItems depth (limit + 1) t = some (items, rest)) :
    ∃ v others behind, readValue depth limit t = some (v, behind) ∧ items = v :: others ∧
      ((∃ next, skipBlanks behind = ',' :: next ∧ readItems depth limit next = some (others, rest)) ∨
        skipBlanks behind = ']' :: rest ∧ others = []) := by
  unfold readItems at h
  obtain ⟨⟨v, behind⟩, read, more⟩ := Option.bind_eq_some_iff.mp h
  dsimp only at more
  split at more
  · rename_i next comma
    obtain ⟨⟨others, _⟩, read', ends⟩ := Option.bind_eq_some_iff.mp more
    cases ends
    exact ⟨v, others, behind, read, rfl, .inl ⟨next, comma, read'⟩⟩
  · rename_i closed
    cases more
    exact ⟨v, [], behind, read, rfl, .inr ⟨closed, rfl⟩⟩
  · cases more

theorem readPairs_cases {pairs : List (Text × Value)} (h : readPairs depth (limit + 1) t = some (pairs, rest)) :
    ∃ key v others inside behind, readKey t = some (key, inside) ∧ readValue depth limit inside = some (v, behind) ∧
      pairs = (key, v) :: others ∧
      ((∃ next, skipBlanks behind = ',' :: next ∧ readPairs depth limit next = some (others, rest)) ∨
        skipBlanks behind = '\x7d' :: rest ∧ others = []) := by
  unfold readPairs at h
  obtain ⟨⟨key, inside⟩, readKey, h⟩ := Option.bind_eq_some_iff.mp h
  obtain ⟨⟨v, behind⟩, read, more⟩ := Option.bind_eq_some_iff.mp h
  dsimp only at more
  split at more
  · rename_i next comma
    obtain ⟨⟨others, _⟩, read', ends⟩ := Option.bind_eq_some_iff.mp more
    cases ends
    exact ⟨key, v, others, inside, behind, readKey, read, rfl, .inl ⟨next, comma, read'⟩⟩
  · rename_i closed
    cases more
    exact ⟨key, v, [], inside, behind, readKey, read, rfl, .inr ⟨closed, rfl⟩⟩
  · cases more

end

structure Eating (limit : Nat) : Prop where
  value : ∀ {depth t v rest}, readValue depth limit t = some (v, rest) → Eats t rest
  items : ∀ {depth t items rest}, readItems depth limit t = some (items, rest) → Eats t rest
  pairs : ∀ {depth t pairs rest}, readPairs depth limit t = some (pairs, rest) → Eats t rest

namespace Eating
variable {limit depth : Nat} {t rest : Text}

theorem readValue_succ (eating : Eating limit) {v : Value} (h : readValue depth (limit + 1) t = some (v, rest)) :
    Eats t rest := by
  have start := Eats.refl t
  cases reads_of_readValue h with
  | text quote string => exact (start.next quote).trans (eats_string string)
  | emptyArray bracket closed => exact (((start.next bracket).past (by decide)).next closed).past (by decide)
  | array bracket read => exact (((start.next bracket).past (by decide)).next rfl).trans (eating.items read)
  | emptyObject brace closed => exact (((start.next brace).past (by decide)).next closed).past (by decide)
  | object brace read => exact (((start.next brace).past (by decide)).next rfl).trans (eating.pairs read)
  | null word => exact (start.next rfl).trans (eats_word (by decide) word)
  | true word => exact (start.next rfl).trans (eats_word (by decide) word)
  | false word => exact (start.next rfl).trans (eats_word (by decide) word)
  | number read => exact (start.next rfl).trans (Numeral.eats_number read)

theorem readItems_succ (eating : Eating limit) {items : List Value}
    (h : readItems depth (limit + 1) t = some (items, rest)) : Eats t rest := by
  obtain ⟨v, others, behind, read, -, ⟨next, comma, read'⟩ | ⟨closed, -⟩⟩ := readItems_cases h
  · exact (((eating.value read).next comma).past (by decide)).trans (eating.items read')
  · exact ((eating.value read).next closed).past (by decide)

theorem readPairs_succ (eating : Eating limit) {pairs : List (Text × Value)}
    (h : readPairs depth (limit + 1) t = some (pairs, rest)) : Eats t rest := by
  obtain ⟨key, v, others, inside, behind, readKey, read, -, more⟩ := readPairs_cases h
  have entry := (eats_key readKey).trans (eating.value read)
  obtain ⟨next, comma, read'⟩ | ⟨closed, -⟩ := more
  · exact ((entry.next comma).past (by decide)).trans (eating.pairs read')
  · exact (entry.next closed).past (by decide)

end Eating

theorem eating (limit : Nat) : Eating limit := by
  induction limit with
  | zero => exact ⟨nofun, nofun, nofun⟩
  | succ limit ih => exact ⟨ih.readValue_succ, ih.readItems_succ, ih.readPairs_succ⟩

theorem read?_laid {t : Text} {v : Value} (h : read? t = some v) : Laid (literals none t) t := by
  obtain ⟨⟨v', rest⟩, reads, ends⟩ := Option.bind_eq_some_iff.mp h
  dsimp only at ends
  split at ends
  · rename_i all
    obtain ⟨raws, front, laid, whole⟩ := ((eating _).value reads).next all
    rw [List.append_nil] at whole
    rw [whole, laid.literals_eq]
    exact laid
  · cases ends

end TextTemplate.Json
