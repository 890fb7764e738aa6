import TextTemplate.Proofs.Block.Reading
import TextTemplate.Proofs.Expr.Reading

namespace TextTemplate
open Text.CharClass TextTemplate.Expr Builder

/-! ## Parts that begin outside quotes -/

namespace Text

theorem quoteBehind_append (opened : Option Char) (t u : Text) :
    quoteBehind opened (t ++ u) = quoteBehind (quoteBehind opened t) u := List.foldl_append

theorem quoteBehind_of_bare {t : Text} (bare : ∀ c ∈ t, isQuote c = false) : quoteBehind none t = none := by
  induction t with
  | nil => rfl
  | cons c t ih =>
      obtain ⟨first, bare⟩ := List.forall_mem_cons.mp bare
      rw [quoteBehind, List.foldl_cons, quoteAfter_of_bare first]
      exact ih bare

theorem quoteBehind_blanks {t : Text} (blanks : IsBlanks t) : quoteBehind none t = none := by
  refine quoteBehind_of_bare fun c member => ?_
  have other : c ∉ '"' :: '\'' :: marks := not_mem_of_class (by decide) (blanks c member)
  exact (plain_of_not_mem other).1

def BeginsOutside (part t : Text) : Prop :=
  ∃ before after, t = before ++ (part ++ after) ∧ quoteBehind none before = none

theorem BeginsOutside.trans {part middle t : Text} (h : BeginsOutside part middle) (h' : BeginsOutside middle t) :
    BeginsOutside part t := by
  obtain ⟨before, after, rfl, closed⟩ := h
  obtain ⟨before', after', rfl, closed'⟩ := h'
  refine ⟨before' ++ before, after ++ after', by simp, ?_⟩
  rw [quoteBehind_append, closed', closed]

theorem beginsOutside_append {before : Text} (closed : quoteBehind none before = none) (part : Text) :
    BeginsOutside part (before ++ part) := ⟨before, [], by simp, closed⟩

theorem beginsOutside_front (part after : Text) : BeginsOutside part (part ++ after) := ⟨[], after, rfl, rfl⟩

theorem beginsOutside_trim (t : Text) : BeginsOutside t.trim t := by
  by_cases full : t.trim = []
  · rw [full]
    exact beginsOutside_front [] t
  · obtain ⟨before, after, split, blanks, -, -⟩ := exists_firm full
    exact ⟨before, after, split, quoteBehind_blanks blanks⟩

theorem trim_trim (t : Text) : t.trim.trim = t.trim := by
  by_cases full : t.trim = []
  · rw [full]
    rfl
  · obtain ⟨-, -, -, -, firm, -⟩ := exists_firm full
    exact firm.trim_eq

theorem cutOutside_eq_some {needle : Text} {start offset : Nat} {opened : Option Char} {t before rest : Text}
    (h : cutOutside needle start offset opened t = some (before, rest)) :
    t = before ++ rest ∧ quoteBehind opened before = none ∧ needle <+: rest := by
  induction t generalizing offset opened before with
  | nil => cases h
  | cons c t ih =>
      rw [cutOutside] at h
      split at h
      · rename_i here
        cases h
        exact ⟨rfl, here.1, List.isPrefixOf_iff_prefix.mp here.2.2.2⟩
      · obtain ⟨⟨front, rest⟩, found, same⟩ := Option.map_eq_some_iff.mp h
        cases same
        obtain ⟨rfl, closed, begins⟩ := ih found
        exact ⟨rfl, closed, begins⟩

theorem cutOutside_mark {mark : Char} (bare : isQuote mark = false) {start : Nat} {t before rest : Text}
    (h : cutOutside [mark] start 0 none t = some (before, rest)) :
    BeginsOutside before t ∧ BeginsOutside (rest.drop 1) t := by
  obtain ⟨rfl, closed, more, rfl⟩ := cutOutside_eq_some h
  have behind : quoteBehind none (before ++ [mark]) = none := by
    rw [quoteBehind_append, closed]
    exact quoteAfter_of_bare bare
  have whole : before ++ ([mark] ++ more) = (before ++ [mark]) ++ more := by simp
  refine ⟨beginsOutside_front before _, ?_⟩
  rw [whole]
  exact beginsOutside_append behind more

end Text

theorem Comparison.at?_eq_some {t rest : Text} {op : Comparison} (h : at? t = some (op, rest)) :
    t = op.symbol ++ rest := by
  obtain ⟨before, op', after, -, found, -⟩ := List.findSome?_eq_some_iff.mp h
  obtain ⟨rest', front, same⟩ := Option.map_eq_some_iff.mp found
  cases same
  exact (List.isPrefixOf?_eq_some_iff_append_eq.mp front).symm

theorem Comparison.quoteBehind_symbol (op : Comparison) : Text.quoteBehind none op.symbol = none := by
  cases op <;> rfl

namespace Condition

theorem cut_eq_some {opened : Option Char} {t left right : Text} {op : Comparison}
    (h : cut opened t = some (left, op, right)) :
    t = left ++ (op.symbol ++ right) ∧ Text.quoteBehind opened left = none := by
  induction t generalizing opened left with
  | nil => cases h
  | cons c t ih =>
      rw [cut] at h
      split at h
      · rename_i found
        cases h
        split at found
        · rename_i outside
          exact ⟨Comparison.at?_eq_some found, outside.1⟩
        · cases found
      · obtain ⟨⟨front, op', rest⟩, found, same⟩ := Option.map_eq_some_iff.mp h
        cases same
        obtain ⟨rfl, closed⟩ := ih found
        exact ⟨rfl, closed⟩

theorem split?_outside {t left right : Text} {op : Comparison} (h : split? t = some (left, op, right)) :
    right.BeginsOutside t ∧ right.trim = right := by
  cases t with
  | nil => cases h
  | cons c t =>
      obtain ⟨⟨front, _, rest⟩, found, kept⟩ := Option.bind_eq_some_iff.mp h
      obtain ⟨rfl, closed⟩ := cut_eq_some found
      simp only at kept
      split at kept
      · cases kept
      · cases kept
        have whole : c :: (front ++ (op.symbol ++ rest)) = (c :: front ++ op.symbol) ++ rest := by simp
        have opening : Text.quoteBehind none (c :: front) = none := closed
        have behind : Text.quoteBehind none (c :: front ++ op.symbol) = none := by
          rw [Text.quoteBehind_append, opening, op.quoteBehind_symbol]
        rw [whole]
        exact ⟨(Text.beginsOutside_trim rest).trans (Text.beginsOutside_append behind rest), Text.trim_trim rest⟩

def operands : Condition → List Operand
  | .compare _ _ right => [right]
  | .truthy _ _ => []

def parts (source : Text) : List Text :=
  match split? source.trim with
  | some (_, _, right) => [right]
  | none => []

end Condition

namespace Expr

theorem split?_outside {t test yes no : Text} (h : split? t = some (test, yes, no)) :
    ∀ part ∈ [test, yes, no], part.BeginsOutside t ∧ part.trim = part := by
  obtain ⟨⟨front, rest⟩, mark, h⟩ := Option.bind_eq_some_iff.mp h
  obtain ⟨⟨middle, rest'⟩, colon, kept⟩ := Option.bind_eq_some_iff.mp h
  obtain ⟨first, behind⟩ := Text.cutOutside_mark rfl mark
  obtain ⟨second, last⟩ := Text.cutOutside_mark rfl colon
  have trimmed {u : Text} (outside : u.BeginsOutside t) : u.trim.BeginsOutside t ∧ u.trim.trim = u.trim :=
    ⟨(Text.beginsOutside_trim u).trans outside, Text.trim_trim u⟩
  simp only at kept
  split at kept
  · cases kept
  · cases kept
    simp only [List.forall_mem_cons]
    exact ⟨trimmed first, trimmed (second.trans behind), trimmed (last.trans behind), List.forall_mem_nil _⟩

def operands : Expr → List Operand
  | .operand o => [o]
  | .condition c => c.operands
  | .ternary c whenTrue whenFalse => c.operands ++ [whenTrue, whenFalse]

def parts (source : Text) : List Text :=
  match split? source.trim with
  | some (test, whenTrue, whenFalse) => Condition.parts test ++ [whenTrue, whenFalse]
  | none =>
      if (Condition.split? source.trim).isSome ∨ isNegation source.trim then Condition.parts source.trim
      else [source.trim]

end Expr

theorem Condition.parts_outside (source : Text) :
    ∀ part ∈ parts source, part.BeginsOutside source ∧ part.trim = part := by
  rw [parts]
  split
  · rename_i found
    obtain ⟨outside, firm⟩ := split?_outside found
    exact List.forall_mem_singleton.mpr ⟨outside.trans (Text.beginsOutside_trim source), firm⟩
  · exact List.forall_mem_nil _

theorem Expr.parts_outside (source : Text) :
    ∀ part ∈ parts source, part.BeginsOutside source ∧ part.trim = part := by
  have whole := Text.beginsOutside_trim source
  have within {t part : Text} (outside : t.BeginsOutside source) (member : part ∈ Condition.parts t) :
      part.BeginsOutside source ∧ part.trim = part := by
    obtain ⟨inner, firm⟩ := Condition.parts_outside t part member
    exact ⟨inner.trans outside, firm⟩
  rw [parts]
  split
  · rename_i found
    obtain ⟨test, branches⟩ := List.forall_mem_cons.mp (split?_outside found)
    refine List.forall_mem_append.mpr ⟨fun part => within (test.1.trans whole), fun part member => ?_⟩
    obtain ⟨inner, firm⟩ := branches part member
    exact ⟨inner.trans whole, firm⟩
  · split
    · exact fun part => within whole
    · exact List.forall_mem_singleton.mpr ⟨whole, Text.trim_trim source⟩

theorem Condition.operands_read {source : Text} {c : Condition} (h : read source = .ok c) :
    c.operands.map .ok = (parts source).map Operand.read := by
  rw [parts]
  rcases found : split? source.trim with _ | ⟨left, op, right⟩
  · simp only [read, found] at h
    split at h
    · obtain ⟨p, -, h⟩ := bind_eq_ok.mp h
      cases h
      rfl
    · obtain ⟨p, -, h⟩ := bind_eq_ok.mp h
      cases h
      rfl
  · simp only [read, found] at h
    obtain ⟨p, -, h⟩ := bind_eq_ok.mp h
    obtain ⟨o, operand, h⟩ := bind_eq_ok.mp h
    cases h
    simp [operands, operand]

theorem Expr.operands_read {source : Text} {e : Expr} (h : read source = .ok e) :
    e.operands.map .ok = (parts source).map Operand.read := by
  have full : source.trim ≠ [] := by
    intro blank
    rw [read, if_pos blank] at h
    cases h
  rw [parts]
  rcases found : split? source.trim with _ | ⟨test, yes, no⟩
  · simp only [read, if_neg full, found] at h
    split at h
    · rename_i asks
      obtain ⟨c, condition, h⟩ := bind_eq_ok.mp h
      cases h
      simp only [if_pos asks, operands, Condition.operands_read condition]
    · rename_i plain
      obtain ⟨o, operand, h⟩ := bind_eq_ok.mp h
      cases h
      simp [if_neg plain, operands, operand]
  · simp only [read, if_neg full, found] at h
    obtain ⟨c, condition, h⟩ := bind_eq_ok.mp h
    obtain ⟨o, whenTrue, h⟩ := bind_eq_ok.mp h
    obtain ⟨o', whenFalse, h⟩ := bind_eq_ok.mp h
    cases h
    simp [operands, Condition.operands_read condition, whenTrue, whenFalse]

/-! ## Operands between quotes -/

namespace Text

theorem unquote?_eq_some {t body : Text} :
    unquote? t = some body ↔ ∃ q, isQuote q = true ∧ t = q :: (body ++ [q]) := by
  cases t with
  | nil => simp [unquote?]
  | cons q rest =>
      rw [unquote?]
      constructor
      · intro h
        split at h
        · rename_i quoted
          obtain ⟨front, rfl⟩ := List.getLast?_eq_some_iff.mp quoted.2
          cases h
          exact ⟨q, quoted.1, by simp⟩
        · cases h
      · rintro ⟨q', quote, same⟩
        obtain ⟨rfl, rfl⟩ := List.cons.inj same
        simp [quote]

theorem unquote?_of_isQuote {q : Char} (quote : isQuote q = true) (rest : Text) :
    unquote? (q :: rest) = if rest.getLast? = some q then some rest.dropLast else none := by
  simp [unquote?, quote]

end Text

namespace Operand

theorem literal?_eq (source : Text) :
    literal? source = match Text.unquote? source.trim with
      | some body => some (.text body)
      | none =>
          if source.trim = "true".toList then some (.bool true)
          else if source.trim = "false".toList then some (.bool false)
          else if source.trim = "null".toList then some .null
          else (number? source.trim).map .number := by
  rw [literal?, Text.cleanQuotes]
  cases Text.unquote? source.trim <;> rfl

theorem literal?_eq_text {source body : Text} :
    literal? source = some (.text body) ↔ Text.unquote? source.trim = some body := by
  rw [literal?_eq]
  cases unquoted : Text.unquote? source.trim with
  | some found => simp
  | none =>
      have other : ∀ v ∈ number? source.trim, Value.number v ≠ .text body := nofun
      split_ifs <;> simp

theorem read_eq_text {source body : Text} :
    read source = .ok (.literal (.text body)) ↔ ∃ q, Text.isQuote q = true ∧ source.trim = q :: (body ++ [q]) := by
  rw [← Text.unquote?_eq_some, ← literal?_eq_text, read]
  cases literal? source with
  | some v => simp
  | none =>
      have path (p : Path) : Operand.path p ≠ .literal (.text body) := by
        rintro ⟨⟩
      cases Path.read source <;> simp [bind, Except.bind, pure, Except.pure]

theorem number?_of_isQuote {q : Char} (quote : Text.isQuote q = true) (rest : Text) : number? (q :: rest) = none := by
  by_contra number
  obtain ⟨n, number⟩ := Option.ne_none_iff_exists'.mp number
  have decimal := isDecimal_of_number? number
  have unsigned : Number.Numeral.takeSign (q :: rest) = (false, q :: rest) := by
    rcases Text.isQuote_iff.mp quote with rfl | rfl <;> rfl
  have first : q ≠ '.' := by
    rintro rfl
    cases quote
  obtain ⟨head, others, cut⟩ := List.exists_cons_of_ne_nil (List.splitOn_ne_nil '.' rest)
  rw [Text.isDecimal, unsigned, List.splitOn_cons_eq_if_modifyHead, if_neg (by simpa using first), cut] at decimal
  rw [List.modifyHead_cons, Bool.and_eq_true, List.all_cons, Bool.and_eq_true, Bool.and_eq_true, List.all_cons,
    Bool.and_eq_true] at decimal
  obtain ⟨-, ⟨-, digit, -⟩, -⟩ := decimal
  have bare := (isBare_iff.mp (isBare_of_isDigit digit)).2.1
  rw [quote] at bare
  cases bare

end Operand

theorem Path.read_of_isQuote {source rest : Text} {q : Char} (quote : Text.isQuote q = true)
    (begins : source.trim = q :: rest) : read source = .error (.malformedPath (q :: rest)) := by
  have unread : ∀ p, read source ≠ .ok p := by
    intro p reads
    obtain ⟨t, from_, same⟩ : ∃ t, p.ReadFrom t ∧ t = q :: rest := ⟨_, read_iff.mp reads, begins⟩
    cases from_ with
    | @mk first _ _ valid _ =>
        obtain ⟨c, more, rfl⟩ := List.exists_cons_of_ne_nil (ne_nil_of_isSegment valid)
        obtain ⟨rfl, -⟩ := List.cons.inj same
        have bare := (isBare_iff.mp (isBare_of_isSegment valid c List.mem_cons_self)).2.1
        rw [quote] at bare
        cases bare
  have full : source.trim ≠ [] := by simp [begins]
  rw [read_eq, if_neg full] at unread ⊢
  split
  · rename_i segments
    exact absurd (if_pos segments) (unread _)
  · rw [begins]

theorem Operand.read_of_isQuote {source rest : Text} {q : Char} (quote : Text.isQuote q = true)
    (begins : source.trim = q :: rest) :
    read source =
      if rest.getLast? = some q then .ok (.literal (.text rest.dropLast)) else .error (.malformedPath (q :: rest)) := by
  have unquoted := Text.unquote?_of_isQuote quote rest
  split
  · rename_i ends
    rw [if_pos ends, ← begins] at unquoted
    rw [read, literal?_eq_text.mpr unquoted]
  · rename_i ends
    have bare : literal? source = none := by
      rw [literal?_eq, begins, unquoted, if_neg ends]
      simp only [number?_of_isQuote quote]
      rcases Text.isQuote_iff.mp quote with rfl | rfl <;> simp
    rw [read, bare, Path.read_of_isQuote quote begins]
    rfl

theorem Condition.read_quoted {p : Path} {t gap gap' rest : Text} {q : Char} (op : Comparison) (spelled : p.Spelled t)
    (blanks : IsBlanks gap) (blanks' : IsBlanks gap') (quote : Text.isQuote q = true) (firm : Text.Firm (q :: rest)) :
    read (t ++ (gap ++ (op.symbol ++ (gap' ++ q :: rest)))) =
      if rest.getLast? = some q then .ok (.compare p op (.literal (.text rest.dropLast)))
      else .error (.malformedPath (q :: rest)) := by
  have whole : Text.Firm (t ++ (gap ++ (op.symbol ++ (gap' ++ q :: rest)))) := by
    have between := spelled.firm.between (gap ++ (op.symbol ++ gap')) firm
    simpa using between
  have apart : (q :: rest).head? ≠ some '=' := by
    rintro ⟨⟩
    cases quote
  have cut := split?_compare op spelled.ne_nil spelled.bare blanks blanks' firm apart
  have right := Operand.read_of_isQuote quote firm.trim_eq
  rw [read, whole.trim_eq]
  simp only [cut, Path.read_spelled spelled, right]
  split <;> rfl

/-! ## Where literals stand -/

theorem Text.mem_iff_closed {q : Char} {before : Text} (quote : isQuote q = true)
    (closed : quoteBehind none before = none) (body : Text) :
    q ∈ body ↔ ∃ front, front <+: body ∧ quoteBehind none (before ++ q :: front) = none := by
  have opens (front : Text) : quoteBehind none (before ++ q :: front) = quoteBehind (some q) front := by
    rw [quoteBehind_append, closed, quoteBehind, List.foldl_cons, quoteAfter_of_isQuote quote, ← quoteBehind]
  simp only [opens]
  constructor
  · intro again
    obtain ⟨front, more, rfl, inside⟩ := List.eq_append_cons_of_mem again
    refine ⟨front ++ [q], ⟨more, by simp⟩, ?_⟩
    rw [quoteBehind_closed inside]
    rfl
  · rintro ⟨front, ⟨more, rfl⟩, closes⟩
    by_contra inside
    rw [quoteBehind_of_not_mem fun member => inside (List.mem_append_left more member)] at closes
    cases closes

/--
Every string literal of an expression or a condition is all that stands between the first and the last character of its
operand, two quotes of one kind. The operand begins outside quotes, but nothing asks that its first quote is closed at
its end only. So what stands behind the first operator is one literal if it begins and ends with the same quote,
whatever it joins, and a condition whose right side begins with a quote and ends otherwise is not read.
-/
theorem operands_quoted (source : Text) :
    (∀ e, Expr.read source = .ok e → e.operands.map .ok = (Expr.parts source).map Operand.read) ∧
    (∀ c, Condition.read source = .ok c → c.operands.map .ok = (Condition.parts source).map Operand.read) ∧
    (∀ part ∈ Expr.parts source ++ Condition.parts source,
      (∀ q rest, Text.isQuote q = true → part = q :: rest → rest.getLast? ≠ some q →
        Operand.read part = .error (.malformedPath part)) ∧
      ∀ body, Operand.read part = .ok (.literal (.text body)) ↔
        ∃ q before after, Text.isQuote q = true ∧ part = q :: (body ++ [q]) ∧ source = before ++ (part ++ after) ∧
          Text.quoteBehind none before = none ∧
          (q ∈ body ↔ ∃ front, front <+: body ∧ Text.quoteBehind none (before ++ q :: front) = none)) ∧
    ∀ p t gap op gap' q rest, p.Spelled t → IsBlanks gap → IsBlanks gap' → Text.isQuote q = true →
      Text.Firm (q :: rest) → source = t ++ (gap ++ (op.symbol ++ (gap' ++ q :: rest))) →
      Condition.read source = if rest.getLast? = some q then .ok (.compare p op (.literal (.text rest.dropLast)))
        else .error (.malformedPath (q :: rest)) := by
  refine ⟨fun _ => Expr.operands_read, fun _ => Condition.operands_read, fun part member => ?_, ?_⟩
  · have outside : part.BeginsOutside source ∧ part.trim = part :=
      (List.mem_append.mp member).elim (Expr.parts_outside source part) (Condition.parts_outside source part)
    obtain ⟨⟨before, after, split, closed⟩, trimmed⟩ := outside
    refine ⟨fun q rest quote begins ends => ?_, fun body => ?_⟩
    · rw [Operand.read_of_isQuote quote (trimmed.trans begins), if_neg ends, begins]
    · rw [Operand.read_eq_text, trimmed]
      constructor
      · rintro ⟨q, quote, same⟩
        exact ⟨q, before, after, quote, same, split, closed, Text.mem_iff_closed quote closed body⟩
      · rintro ⟨q, -, -, quote, same, -⟩
        exact ⟨q, quote, same⟩
  · rintro p t gap op gap' q rest spelled blanks blanks' quote firm rfl
    exact Condition.read_quoted op spelled blanks blanks' quote firm

def joined : Text := "a === 'x' && b === 'y'".toList

def joinedTest : Condition := .compare ⟨["a".toList]⟩ .strictEq (.literal (.text "x' && b === 'y".toList))

theorem operands_quoted_joined :
    (Expr.read joined = .ok (.condition joinedTest) ∧
      joinedTest.operands.map .ok = (Expr.parts joined).map Operand.read) ∧
    (Condition.read joined = .ok joinedTest ∧
      joinedTest.operands.map .ok = (Condition.parts joined).map Operand.read) ∧
    (∃ q before after, Text.isQuote q = true ∧ "'x' && b === 'y'".toList = q :: ("x' && b === 'y".toList ++ [q]) ∧
      joined = before ++ ("'x' && b === 'y'".toList ++ after) ∧ Text.quoteBehind none before = none ∧
      (q ∈ "x' && b === 'y".toList ↔
        ∃ front, front <+: "x' && b === 'y".toList ∧ Text.quoteBehind none (before ++ q :: front) = none)) ∧
    Path.Spelled ⟨["a".toList]⟩ "a".toList ∧
    Condition.read "a === 'x' && b === \"y\"".toList = .error (.malformedPath "'x' && b === \"y\"".toList) := by
  have expression : Expr.read joined = .ok (.condition joinedTest) := rfl
  have condition : Condition.read joined = .ok joinedTest := rfl
  have path : Path.Spelled ⟨["a".toList]⟩ "a".toList := .mk (by decide) .ends
  have space : IsBlanks [' '] := by decide
  have firm : Text.Firm "'x' && b === \"y\"".toList := ⟨⟨'\'', _, rfl, rfl⟩, ⟨"'x' && b === \"y".toList, '"', rfl, rfl⟩⟩
  obtain ⟨ofExpr, ofCondition, ofPart, -⟩ := operands_quoted joined
  obtain ⟨-, -, -, ofComparison⟩ := operands_quoted "a === 'x' && b === \"y\"".toList
  refine ⟨⟨expression, ofExpr _ expression⟩, ⟨condition, ofCondition _ condition⟩, ?_, path, ?_⟩
  · exact ((ofPart _ (by decide)).2 _).mp rfl
  · exact ofComparison _ _ _ .strictEq _ '\'' _ path space space rfl firm rfl

theorem Condition.read_joined :
    Condition.read joined = .ok joinedTest ∧
      ∀ part ∈ Condition.parts joined, ¬ ∃ q body, Text.isQuote q = true ∧ q ∉ body ∧ part = q :: (body ++ [q]) := by
  refine ⟨rfl, ?_⟩
  have parts : Condition.parts joined = ['\'' :: ("x' && b === 'y".toList ++ ['\''])] := rfl
  rw [parts, List.forall_mem_singleton]
  rintro ⟨q, body, -, inside, same⟩
  obtain ⟨rfl, ends⟩ := List.cons.inj same
  obtain ⟨rfl, -⟩ := List.append_inj' ends rfl
  exact inside (by decide)

end TextTemplate
