import TextTemplate.Proofs.Expr.Path

namespace TextTemplate
open Text.CharClass TextTemplate.Expr

namespace Number.Numeral

theorem eq_nil_of_takeExponent {t : Text} (h : takeExponent t = some none) : t = [] := by
  cases t with
  | nil => rfl
  | cons c rest =>
      rw [takeExponent] at h
      split at h
      · simp only [Option.ite_none_right_eq_some, Option.some.injEq, reduceCtorEq, and_false] at h
      · cases h

theorem ofText?_eq_some {t : Text} {n : Numeral} (h : ofText? t = some n) (plain : n.exponent = none) :
    (takeSign t).2 = Text.join ['.'] (n.whole :: n.fraction.toList) ∧
      ∀ part ∈ n.whole :: n.fraction.toList, ∀ c ∈ part, c.isDigit = true := by
  rcases signed : takeSign t with ⟨negative, rest⟩
  have pieces : rest.takeWhile Char.isDigit ++ rest.dropWhile Char.isDigit = rest := List.takeWhile_append_dropWhile
  have digits (u : Text) : ∀ c ∈ u.takeWhile Char.isDigit, c.isDigit = true := fun _ => List.mem_takeWhile_imp
  simp only [ofText?, signed, Text.takeDigits] at h
  split at h
  · rename_i more point
    split at h
    · cases h
    · obtain ⟨exponent, ends, rfl⟩ := Option.map_eq_some_iff.mp h
      obtain rfl : exponent = none := plain
      have last : more.dropWhile Char.isDigit = [] := eq_nil_of_takeExponent ends
      have whole := List.takeWhile_eq_self_iff.mpr (List.dropWhile_eq_nil_iff.mp last)
      rw [point] at pieces
      refine ⟨?_, ?_⟩
      · simp [Text.join, whole, pieces]
      · simp only [Option.toList_some, List.forall_mem_cons]
        exact ⟨digits rest, digits more, nofun⟩
  · split at h
    · cases h
    · obtain ⟨exponent, ends, rfl⟩ := Option.map_eq_some_iff.mp h
      obtain rfl : exponent = none := plain
      have last : rest.dropWhile Char.isDigit = [] := eq_nil_of_takeExponent ends
      rw [last, List.append_nil] at pieces
      refine ⟨?_, ?_⟩
      · simp [Text.join, pieces]
      · simp only [Option.toList_none, List.forall_mem_cons]
        exact ⟨digits rest, nofun⟩

end Number.Numeral

namespace Text

theorem toNat_ofNat (n : Nat) : toNat (ofNat n) = n := Nat.ofDigitChars_ten_toDigits

theorem takeDigits_ofNat (n : Nat) : takeDigits (ofNat n) = (ofNat n, []) := by
  have digits : ∀ c ∈ ofNat n, c.isDigit = true := fun c => ofNat_isDigit
  rw [takeDigits, List.takeWhile_eq_self_iff.mpr digits, List.dropWhile_eq_nil_iff.mpr digits]

theorem takeSign_ofInt (i : Int) :
    Number.Numeral.takeSign (ofInt i) = (decide (i < 0), ofNat i.natAbs) := by
  rw [ofInt]
  split
  · rename_i negative
    simp [Number.Numeral.takeSign, negative]
  · rename_i positive
    obtain ⟨c, more, digits⟩ := List.exists_cons_of_ne_nil (ofNat_ne_nil i.natAbs)
    have digit : c.isDigit = true := ofNat_isDigit (digits ▸ List.mem_cons_self)
    have unsigned : c ≠ '-' ∧ c ≠ '+' := by constructor <;> rintro rfl <;> cases digit
    rw [digits, Number.Numeral.takeSign]
    · simp [positive]
    · simp [unsigned]
    · simp [unsigned]

end Text

theorem Operand.number?_ofInt {i : Int} (fits : isInt64 i = true) : number? (Text.ofInt i) = some (.int i) := by
  have numeral : Number.Numeral.ofText? (Text.ofInt i) = some ⟨decide (i < 0), Text.ofNat i.natAbs, none, none⟩ := by
    simp [Number.Numeral.ofText?, Text.takeSign_ofInt, Text.takeDigits_ofNat, Text.ofNat_ne_nil,
      Number.Numeral.takeExponent]
  have value : (if decide (i < 0) = true then -(i.natAbs : Int) else i.natAbs) = i := by
    simp only [decide_eq_true_eq]
    split <;> omega
  have pieces : ¬ (Text.ofNat i.natAbs = [] ∨ (none : Option Text) = some [] ∨ (none : Option (Bool × Text)) ≠ none) := by
    simp [Text.ofNat_ne_nil]
  rw [number?, numeral]
  simp only [Option.bind_eq_bind, Option.bind_some, Text.toNat_ofNat, value, fits]
  rw [if_neg pieces]
  rfl

theorem Operand.isDecimal_of_number? {t : Text} {n : Number} (h : number? t = some n) : t.isDecimal = true := by
  obtain ⟨numeral, reads, kept⟩ := Option.bind_eq_some_iff.mp h
  split at kept
  · cases kept
  · rename_i plain
    simp only [not_or, not_not] at plain
    obtain ⟨full, full', plain⟩ := plain
    obtain ⟨spelled, digits⟩ := Number.Numeral.ofText?_eq_some reads plain
    have apart : ∀ part ∈ numeral.whole :: numeral.fraction.toList, '.' ∉ part := by
      intro part member point
      cases digits part member '.' point
    have cut : (Number.Numeral.takeSign t).2.splitOn '.' = numeral.whole :: numeral.fraction.toList := by
      rw [spelled]
      exact List.splitOn_intercalate '.' apart (List.cons_ne_nil _ _)
    rw [Text.isDecimal, cut]
    cases fraction : numeral.fraction <;> simp_all

namespace Operand

theorem literal?_quoted {q : Char} {content : Text} (quote : Text.isQuote q = true)
    (firm : Text.Firm (q :: (content ++ [q]))) : literal? (q :: (content ++ [q])) = some (.text content) := by
  have cleaned : Text.cleanQuotes (q :: (content ++ [q])) = (content, true) := by
    rw [Text.cleanQuotes, firm.trim_eq]
    simp [Text.unquote?, quote]
  rw [literal?, cleaned]

theorem literal?_bare {t : Text} (full : t ≠ []) (bare : ∀ c ∈ t, isBare c = true) (other : t ∉ keywords) :
    literal? t = (number? t).map .number := by
  have cleaned : Text.cleanQuotes t = (t, false) := by
    obtain ⟨c, more, rfl⟩ := List.exists_cons_of_ne_nil full
    have noQuote := (isBare_iff.mp (bare c List.mem_cons_self)).2.1
    rw [Text.cleanQuotes, (Text.firm_of_bare full bare).trim_eq]
    simp [Text.unquote?, noQuote]
  simp only [keywords, List.mem_cons, List.not_mem_nil, or_false, not_or] at other
  simp only [literal?, cleaned]
  rw [if_neg other.1, if_neg other.2.1, if_neg other.2.2]

theorem read_spelled {o : Operand} {t : Text} (h : o.Spelled t) : read t = .ok o := by
  have firm := h.firm
  cases h with
  | text quote _ => rw [read, literal?_quoted quote firm]
  | @int i fits =>
      have number := number?_ofInt fits
      have other : Text.ofInt i ∉ keywords := by
        have words : ∀ word ∈ keywords, number? word = none := by decide
        intro word
        rw [words _ word] at number
        cases number
      rw [read, literal?_bare (Text.ofInt_ne_nil i) (Text.ofInt_bare i) other, number]
      rfl
  | isTrue => rfl
  | isFalse => rfl
  | isNull => rfl
  | @path p t spelled other notDecimal =>
      have notNumber : number? t = none := by
        by_contra number
        obtain ⟨n, number⟩ := Option.ne_none_iff_exists'.mp number
        rw [isDecimal_of_number? number] at notDecimal
        cases notDecimal
      rw [read, literal?_bare spelled.ne_nil spelled.bare other, notNumber, Path.read_spelled spelled]
      rfl

end Operand

namespace Comparison

theorem at?_symbol (op : Comparison) {rest : Text} (apart : rest.head? ≠ some '=') :
    at? (op.symbol ++ rest) = some (op, rest) := by
  have longer : ['='].isPrefixOf? rest = none := by
    cases rest with
    | nil => rfl
    | cons c rest =>
        have other : c ≠ '=' := fun same => apart (by rw [same]; rfl)
        simp [List.isPrefixOf?, Ne.symm other]
  cases op <;> simp [at?, all, symbol, List.isPrefixOf?, longer]

theorem symbol_eq_cons (op : Comparison) : ∃ c more, op.symbol = c :: more ∧ Text.isQuote c = false := by
  cases op <;> exact ⟨_, _, rfl, rfl⟩

def initials : List Char := ['=', '!', '<', '>']

theorem at?_of_plain {c : Char} (h : c ∉ initials) (rest : Text) : at? (c :: rest) = none := by
  simp only [initials, List.mem_cons, List.not_mem_nil, or_false, not_or] at h
  obtain ⟨equals, mark, less, greater⟩ := h
  simp [at?, all, symbol, List.isPrefixOf?, Ne.symm equals, Ne.symm mark, Ne.symm less, Ne.symm greater]

end Comparison

namespace Condition

theorem passes_cut : Text.Passes Comparison.initials fun _ opened t => cut opened t := by
  intro _ opened c rest other
  have passed : (if opened = none ∧ ¬ Text.isQuote c then Comparison.at? (c :: rest) else none) = none := by
    split
    · rename_i outside
      exact Comparison.at?_of_plain ((other outside.1).resolve_left outside.2) rest
    · rfl
  simp only [cut, passed]
  rfl

theorem cut_append {t : Text} (clear : t.Clear marks) (rest : Text) :
    cut none (t ++ rest) = Text.behind t (cut none rest) :=
  passes_cut.clear (clear.mono (by decide)) 0 rest

theorem cut_clear {t : Text} (clear : t.Clear marks) : cut none t = none := by
  have passed := cut_append clear []
  rwa [List.append_nil] at passed

theorem cut_symbol (op : Comparison) {rest : Text} (apart : rest.head? ≠ some '=') :
    cut none (op.symbol ++ rest) = some ([], op, rest) := by
  have found := Comparison.at?_symbol op apart
  obtain ⟨c, more, symbol, bare⟩ := op.symbol_eq_cons
  rw [symbol, List.cons_append] at found ⊢
  simp [cut, bare, found]

theorem split?_clear {t : Text} (clear : t.Clear marks) : split? t = none := by
  cases clear with
  | nil => rfl
  | plain _ bare clear =>
      rw [split?, Text.quoteAfter_of_bare bare, cut_clear clear]
      rfl
  | @quoted q content t quote inside clear =>
      have passed : cut (some q) (content ++ q :: t) = Text.behind (content ++ [q]) (cut none t) :=
        passes_cut.quoted inside 0 t
      rw [split?, Text.quoteAfter_of_isQuote quote, passed, cut_clear clear]
      rfl

theorem split?_negated {t : Text} (clear : t.Clear marks) : split? ('!' :: t) = none := by
  rw [split?, Text.quoteAfter_of_bare rfl, cut_clear clear]
  rfl

theorem split?_compare {left right gap gap' : Text} (op : Comparison) (full : left ≠ [])
    (bare : ∀ c ∈ left, isBare c = true) (blanks : IsBlanks gap) (blanks' : IsBlanks gap') (firm : right.Firm)
    (apart : right.head? ≠ some '=') :
    split? (left ++ (gap ++ (op.symbol ++ (gap' ++ right)))) = some (left, op, right) := by
  have leftTrim := (Text.firm_of_bare full bare).trim_behind blanks
  have rightTrim := firm.trim_before blanks'
  obtain ⟨c, more, rfl⟩ := List.exists_cons_of_ne_nil full
  obtain ⟨first, others⟩ := List.forall_mem_cons.mp bare
  have outside := Text.quoteAfter_of_bare (isBare_iff.mp first).2.1
  have behind : (gap' ++ right).head? ≠ some '=' := by
    cases gap' with
    | nil => exact apart
    | cons c _ =>
        rintro ⟨⟩
        cases blanks' '=' List.mem_cons_self
  have found : cut none (more ++ (gap ++ (op.symbol ++ (gap' ++ right)))) = some (more ++ gap, op, gap' ++ right) := by
    rw [cut_append (Text.clear_of_bare others), cut_append (Text.clear_blanks blanks),
      cut_symbol op behind]
    simp [Text.behind]
  rw [List.cons_append] at leftTrim ⊢
  simp [split?, outside, found, leftTrim, rightTrim, firm.ne_nil]

theorem read_between {c : Condition} {t before after : Text} (h : c.Spelled t) (blanks : IsBlanks before)
    (blanks' : IsBlanks after) : read (before ++ (t ++ after)) = .ok c := by
  have trimmed := Text.trim_blanks blanks h.firm blanks'
  cases h with
  | @compare left op right t u gap gap' spelled gapBlanks gapBlanks' spelled' =>
      have apart := spelled'.clear.head_ne (c := '=') (by decide) rfl
      have cut := split?_compare op spelled.ne_nil spelled.bare gapBlanks gapBlanks' spelled'.firm apart
      simp only [read, trimmed, cut, Path.read_spelled spelled, Operand.read_spelled spelled']
      rfl
  | plain spelled =>
      have unmarked := spelled.clear.head_ne (c := '!') (by decide) rfl
      simp only [read, trimmed, split?_clear spelled.clear]
      split
      · exact absurd rfl unmarked
      · rw [Path.read_spelled spelled]
        rfl
  | negated gapBlanks spelled =>
      have clear := (Text.clear_blanks gapBlanks).append spelled.clear
      simp only [read, trimmed, split?_negated clear, Path.read_behind spelled gapBlanks]
      rfl

theorem read_spelled {c : Condition} {t : Text} (h : c.Spelled t) : read t = .ok c := by
  have whole := read_between h isBlanks_nil isBlanks_nil
  rwa [List.nil_append, List.append_nil] at whole

end Condition

namespace Expr

theorem split?_clear {t : Text} (clear : t.Clear ['?']) : split? t = none := by
  rw [split?, Text.cutOutside_clear clear]
  rfl

theorem split?_choice {test yes no a b c d : Text} (test_firm : test.Firm) (a_blank : IsBlanks a)
    (test_clear : (test ++ a).Clear ['?']) (b_blank : IsBlanks b) (yes_firm : yes.Firm) (yes_clear : yes.Clear [':'])
    (c_blank : IsBlanks c) (d_blank : IsBlanks d) (no_firm : no.Firm) :
    split? (test ++ (a ++ '?' :: (b ++ (yes ++ (c ++ ':' :: (d ++ no)))))) = some (test, yes, no) := by
  have mark : Text.cutOutside ['?'] 1 0 none ((test ++ a) ++ '?' :: (b ++ (yes ++ (c ++ ':' :: (d ++ no))))) =
      some (test ++ a, '?' :: (b ++ (yes ++ (c ++ ':' :: (d ++ no))))) := by
    refine Text.cutOutside_append test_clear rfl ?_ _
    obtain ⟨first, more, rfl, -⟩ := test_firm.begins
    have size := first.utf8Size_pos
    rw [List.cons_append, Text.utf8Size_cons]
    omega
  have colon : Text.cutOutside [':'] 0 0 none ((b ++ (yes ++ c)) ++ ':' :: (d ++ no)) =
      some (b ++ (yes ++ c), ':' :: (d ++ no)) := by
    have blank {t : Text} (blanks : IsBlanks t) : t.Clear [':'] := (Text.clear_blanks blanks).mono (by decide)
    exact Text.cutOutside_append ((blank b_blank).append (yes_clear.append (blank c_blank))) rfl (Nat.zero_le _) _
  simp only [List.append_assoc] at mark colon
  simp [split?, mark, colon, test_firm.trim_behind a_blank, Text.trim_blanks b_blank yes_firm c_blank,
    no_firm.trim_before d_blank, test_firm.ne_nil, yes_firm.ne_nil, no_firm.ne_nil]

theorem split?_ternary {test yes no a b c d : Text} (test_firm : test.Firm) (test_clear : test.Clear ['?', ':'])
    (a_blank : IsBlanks a) (b_blank : IsBlanks b) (yes_firm : yes.Firm) (yes_clear : yes.Clear marks)
    (c_blank : IsBlanks c) (d_blank : IsBlanks d) (no_firm : no.Firm) :
    split? (test ++ (a ++ '?' :: (b ++ (yes ++ (c ++ ':' :: (d ++ no)))))) = some (test, yes, no) := by
  have clear : (test ++ a).Clear ['?'] :=
    (test_clear.mono (by decide)).append ((Text.clear_blanks a_blank).mono (by decide))
  exact split?_choice test_firm a_blank clear b_blank yes_firm (yes_clear.mono (by decide)) c_blank d_blank no_firm

theorem isNegation_eq_false {t : Text} (h : t.head? ≠ some '!') : isNegation t = false := by
  unfold isNegation
  split
  · exact absurd rfl h
  · rfl

theorem asks {c : Condition} {t : Text} (h : c.Spelled t) (asked : ∀ p, c ≠ .truthy p false) :
    (Condition.split? t).isSome ∨ isNegation t := by
  cases h with
  | compare spelled blanks blanks' spelled' =>
      left
      have apart := spelled'.clear.head_ne (c := '=') (by decide) rfl
      rw [Condition.split?_compare _ spelled.ne_nil spelled.bare blanks blanks' spelled'.firm apart]
      rfl
  | plain => exact absurd rfl (asked _)
  | negated blanks spelled =>
      right
      have apart := ((Text.clear_blanks blanks).append spelled.clear).head_ne (c := '=') (by decide) rfl
      exact decide_eq_true apart

end Expr

/--
Whatever text an expression or a condition is written as, with whatever blanks between its tokens and around it, it is
read as that expression or condition.
-/
theorem reads_spelled :
    (∀ {e : Expr} {t before after : Text}, e.Spelled t → IsBlanks before → IsBlanks after →
      Expr.read (before ++ (t ++ after)) = .ok e) ∧
    ∀ {c : Condition} {t before after : Text}, c.Spelled t → IsBlanks before → IsBlanks after →
      Condition.read (before ++ (t ++ after)) = .ok c := by
  refine ⟨fun {e t before after} h blanks blanks' => ?_, Condition.read_between⟩
  have trimmed := Text.trim_blanks blanks h.firm blanks'
  have full := h.firm.ne_nil
  cases h with
  | operand spelled =>
      have noMark := Expr.split?_clear (spelled.clear.mono (by decide))
      have unasked : ¬ ((Condition.split? t).isSome ∨ isNegation t) := by
        simp [Condition.split?_clear spelled.clear,
          isNegation_eq_false (spelled.clear.head_ne (c := '!') (by decide) rfl)]
      simp only [Expr.read, trimmed, noMark, Operand.read_spelled spelled]
      rw [if_neg full, if_neg unasked]
      rfl
  | condition spelled asked =>
      have noMark := Expr.split?_clear (spelled.clear.mono (by decide))
      simp only [Expr.read, trimmed, noMark, Condition.read_spelled spelled]
      rw [if_neg full, if_pos (asks spelled asked)]
      rfl
  | ternary test a_blank b_blank yes c_blank d_blank no =>
      have parts := split?_ternary test.firm test.clear a_blank b_blank yes.firm yes.clear c_blank d_blank no.firm
      simp only [Expr.read, trimmed, parts, Condition.read_spelled test, Operand.read_spelled yes,
        Operand.read_spelled no]
      rw [if_neg full]
      rfl

def sampleTest : Condition :=
  .compare ⟨["a".toList, "0".toList, "-1".toList]⟩ .ge (.literal (.text "x === \"y\" ? z : w".toList))

def sampleChoice : Expr := .ternary sampleTest (.path ⟨["on".toList, "1".toList]⟩) (.literal (.number (.int (-5))))

theorem sampleTest_spelled : sampleTest.Spelled "a[0].-1>= 'x === \"y\" ? z : w'".toList := by
  have path : Path.Spelled ⟨["a".toList, "0".toList, "-1".toList]⟩
      ("a".toList ++ ('[' :: ("0".toList ++ ']' :: ('.' :: ("-1".toList ++ []))))) :=
    .mk (by decide)
      (.indexed (by decide) (List.all_eq_true.mp (by decide)) (.dotted (by decide +kernel) .ends))
  have text : Operand.Spelled (.literal (.text "x === \"y\" ? z : w".toList))
      ('\'' :: ("x === \"y\" ? z : w".toList ++ ['\''])) := .text rfl (by decide)
  have gap : IsBlanks [' '] := by decide
  have whole : sampleTest.Spelled _ := .compare path isBlanks_nil gap text
  convert whole using 1
  decide

theorem reads_spelled_sample :
    sampleTest.Spelled "a[0].-1>= 'x === \"y\" ? z : w'".toList ∧
    Expr.read " a[0].-1>= 'x === \"y\" ? z : w'?on[1]\t:-5\n".toList = .ok sampleChoice ∧
    Condition.read "a[0].-1>= 'x === \"y\" ? z : w'".toList = .ok sampleTest := by
  have yes : Operand.Spelled (.path ⟨["on".toList, "1".toList]⟩) ("on".toList ++ ('[' :: ("1".toList ++ ']' :: []))) :=
    .path (.mk (by decide) (.indexed (by decide) (List.all_eq_true.mp (by decide)) .ends))
      (by decide) (by decide)
  have no : Operand.Spelled (.literal (.number (.int (-5)))) (Text.ofInt (-5)) := .int (by decide)
  have gap : IsBlanks ['\t'] := by decide
  have whole : sampleChoice.Spelled _ := .ternary sampleTest_spelled isBlanks_nil isBlanks_nil yes gap isBlanks_nil no
  have space : IsBlanks [' '] := by decide
  have line : IsBlanks ['\n'] := by decide
  refine ⟨sampleTest_spelled, ?_, ?_⟩
  · convert reads_spelled.1 whole space line using 2
    decide
  · convert reads_spelled.2 sampleTest_spelled isBlanks_nil isBlanks_nil using 2
    decide

end TextTemplate
