import TextTemplate.Expr
import TextTemplate.Proofs.Text.Outside

namespace TextTemplate
open Text.CharClass

inductive Path.Continues : List Text → Text → Prop
  | ends : Continues [] []
  | dotted {segment t : Text} {rest : List Text} : isSegment segment = true → Continues rest t →
      Continues (segment :: rest) ('.' :: (segment ++ t))
  | indexed {digits t : Text} {rest : List Text} : isSegment digits = true → (∀ c ∈ digits, isDigit c = true) →
      Continues rest t → Continues (digits :: rest) ('[' :: (digits ++ ']' :: t))

inductive Path.Spelled : Path → Text → Prop
  | mk {first t : Text} {rest : List Text} : isSegment first = true → Continues rest t →
      Spelled ⟨first :: rest⟩ (first ++ t)

def Text.isDecimal (t : Text) : Bool :=
  let parts := (Number.Numeral.takeSign t).2.splitOn '.'
  parts.length ≤ 2 && parts.all fun part => part ≠ [] && part.all Char.isDigit

def Operand.keywords : List Text := ["true".toList, "false".toList, "null".toList]

inductive Operand.Spelled : Operand → Text → Prop
  | text {content : Text} {q : Char} : Text.isQuote q = true → q ∉ content →
      Spelled (.literal (.text content)) (q :: (content ++ [q]))
  | int {i : Int} : isInt64 i = true → Spelled (.literal (.number (.int i))) (Text.ofInt i)
  | isTrue : Spelled (.literal (.bool true)) "true".toList
  | isFalse : Spelled (.literal (.bool false)) "false".toList
  | isNull : Spelled (.literal .null) "null".toList
  | path {p : Path} {t : Text} : p.Spelled t → t ∉ keywords → t.isDecimal = false → Spelled (.path p) t

inductive Condition.Spelled : Condition → Text → Prop
  | compare {left : Path} {op : Comparison} {right : Operand} {t u gap gap' : Text} : left.Spelled t →
      IsBlanks gap → IsBlanks gap' → right.Spelled u →
      Spelled (.compare left op right) (t ++ (gap ++ (op.symbol ++ (gap' ++ u))))
  | plain {p : Path} {t : Text} : p.Spelled t → Spelled (.truthy p false) t
  | negated {p : Path} {t gap : Text} : IsBlanks gap → p.Spelled t → Spelled (.truthy p true) ('!' :: (gap ++ t))

/-- A truthy path is an operand where no condition is asked for. -/
inductive Expr.Spelled : Expr → Text → Prop
  | operand {o : Operand} {t : Text} : o.Spelled t → Spelled (.operand o) t
  | condition {c : Condition} {t : Text} : c.Spelled t → (∀ p, c ≠ .truthy p false) → Spelled (.condition c) t
  | ternary {c : Condition} {yes no : Operand} {t u v beforeMark afterMark beforeColon afterColon : Text} :
      c.Spelled t → IsBlanks beforeMark → IsBlanks afterMark → yes.Spelled u → IsBlanks beforeColon →
      IsBlanks afterColon → no.Spelled v →
      Spelled (.ternary c yes no)
        (t ++ (beforeMark ++ '?' :: (afterMark ++ (u ++ (beforeColon ++ ':' :: (afterColon ++ v))))))

namespace Expr

def marks : List Char := ['?', ':', '=', '!', '<', '>']

def isBare (c : Char) : Bool := !isBlank c && !Text.isQuote c && c ∉ marks

theorem isBare_iff {c : Char} : isBare c = true ↔ isBlank c = false ∧ Text.isQuote c = false ∧ c ∉ marks := by
  simp [isBare, and_assoc]

theorem plain_of_not_mem {c : Char} {avoid : List Char} (h : c ∉ '"' :: '\'' :: avoid) :
    Text.isQuote c = false ∧ c ∉ avoid := by
  simp only [List.mem_cons, not_or] at h
  obtain ⟨double, single, other⟩ := h
  exact ⟨by simp [Text.isQuote, double, single], other⟩

theorem not_mem_of_isSegmentChar {c : Char} (h : Path.isSegmentChar c = true) :
    c ∉ '"' :: '\'' :: '.' :: '[' :: ']' :: marks := not_mem_of_class (by decide +kernel) h

theorem isBare_of_isSegmentChar {c : Char} (h : Path.isSegmentChar c = true) : isBare c = true := by
  obtain ⟨noQuote, other⟩ := plain_of_not_mem (not_mem_of_isSegmentChar h)
  simp only [List.mem_cons, not_or] at other
  obtain ⟨-, -, -, unmarked⟩ := other
  refine isBare_iff.mpr ⟨?_, noQuote, unmarked⟩
  rw [Path.isSegmentChar, Bool.or_eq_true, isAlphanumeric_eq_within] at h
  rcases h with alphanumeric | sign
  · rw [isBlank_eq_within]
    exact within_apart (by decide +kernel) alphanumeric
  · have solid : (['_', '$', '-'].all fun d => !isBlank d) = true := by decide
    simpa using List.all_eq_true.mp solid c (of_decide_eq_true sign)

theorem isBare_of_isDigit {c : Char} (h : c.isDigit = true) : isBare c = true := by
  refine isBare_of_isSegmentChar ?_
  simp [Path.isSegmentChar, isAlphanumeric, Char.isAlphanum, h]

end Expr

open TextTemplate.Expr

namespace Text

theorem firm_of_bare {t : Text} (full : t ≠ []) (bare : ∀ c ∈ t, isBare c = true) : Firm t :=
  firm_of_solid full fun c member => (isBare_iff.mp (bare c member)).1

theorem clear_of_bare {t : Text} (bare : ∀ c ∈ t, isBare c = true) : Clear marks t :=
  clear_of_plain fun c member => (isBare_iff.mp (bare c member)).2.symm

theorem clear_blanks {t : Text} (blanks : IsBlanks t) : Clear marks t := by
  refine clear_of_plain fun c member => ?_
  have other : c ∉ '"' :: '\'' :: marks := not_mem_of_class (by decide) (blanks c member)
  exact (plain_of_not_mem other).symm

theorem ofNat_isDigit {n : Nat} {c : Char} (member : c ∈ ofNat n) : c.isDigit = true :=
  Nat.isDigit_of_mem_toDigits (by decide) (by decide) member

theorem ofNat_ne_nil (n : Nat) : ofNat n ≠ [] := Nat.toDigits_ne_nil

theorem ofInt_bare (i : Int) : ∀ c ∈ ofInt i, isBare c = true := by
  have digits : ∀ c ∈ ofNat i.natAbs, isBare c = true := fun c member => isBare_of_isDigit (ofNat_isDigit member)
  rw [ofInt]
  split
  · exact List.forall_mem_cons.mpr ⟨by decide, digits⟩
  · exact digits

theorem ofInt_ne_nil (i : Int) : ofInt i ≠ [] := by
  rw [ofInt]
  split
  · exact List.cons_ne_nil _ _
  · exact ofNat_ne_nil _

end Text

namespace Path

theorem chars_of_isSegment {segment : Text} (h : isSegment segment = true) : ∀ c ∈ segment, isSegmentChar c = true := by
  rw [isSegment, Bool.and_eq_true] at h
  exact List.all_eq_true.mp h.2

theorem ne_nil_of_isSegment {segment : Text} (h : isSegment segment = true) : segment ≠ [] := by
  rw [isSegment, Bool.and_eq_true] at h
  exact of_decide_eq_true h.1

theorem isBare_of_isSegment {segment : Text} (h : isSegment segment = true) : ∀ c ∈ segment, isBare c = true :=
  fun c member => isBare_of_isSegmentChar (chars_of_isSegment h c member)

theorem Continues.segments {rest : List Text} {t : Text} (h : Continues rest t) :
    ∀ segment ∈ rest, isSegment segment = true := by
  induction h with
  | ends => exact List.forall_mem_nil _
  | dotted valid _ ih => exact List.forall_mem_cons.mpr ⟨valid, ih⟩
  | indexed valid _ _ ih => exact List.forall_mem_cons.mpr ⟨valid, ih⟩

theorem Continues.bare {rest : List Text} {t : Text} (h : Continues rest t) : ∀ c ∈ t, isBare c = true := by
  induction h with
  | ends => exact List.forall_mem_nil _
  | dotted valid _ ih =>
      refine List.forall_mem_cons.mpr ⟨by decide, List.forall_mem_append.mpr ⟨?_, ih⟩⟩
      exact isBare_of_isSegment valid
  | indexed valid _ _ ih =>
      refine List.forall_mem_cons.mpr ⟨by decide, List.forall_mem_append.mpr ⟨isBare_of_isSegment valid, ?_⟩⟩
      exact List.forall_mem_cons.mpr ⟨by decide, ih⟩

namespace Spelled
variable {p : Path} {t : Text}

theorem bare (h : p.Spelled t) : ∀ c ∈ t, isBare c = true := by
  obtain ⟨valid, goes⟩ := h
  exact List.forall_mem_append.mpr ⟨isBare_of_isSegment valid, goes.bare⟩

theorem ne_nil (h : p.Spelled t) : t ≠ [] := by
  obtain ⟨valid, -⟩ := h
  exact List.append_ne_nil_of_left_ne_nil (ne_nil_of_isSegment valid) _

theorem firm (h : p.Spelled t) : t.Firm := Text.firm_of_bare h.ne_nil h.bare

theorem clear (h : p.Spelled t) : t.Clear marks := Text.clear_of_bare h.bare

end Spelled

end Path

namespace Operand.Spelled
variable {o : Operand} {t : Text}

theorem quoted_or_bare (h : o.Spelled t) :
    (∃ q content, t = q :: (content ++ [q]) ∧ Text.isQuote q = true ∧ q ∉ content) ∨
      t ≠ [] ∧ ∀ c ∈ t, isBare c = true := by
  cases h with
  | text quote inside => exact .inl ⟨_, _, rfl, quote, inside⟩
  | int => exact .inr ⟨Text.ofInt_ne_nil _, Text.ofInt_bare _⟩
  | isTrue => exact .inr ⟨by decide, List.all_eq_true.mp (by decide)⟩
  | isFalse => exact .inr ⟨by decide, List.all_eq_true.mp (by decide)⟩
  | isNull => exact .inr ⟨by decide, List.all_eq_true.mp (by decide)⟩
  | path spelled => exact .inr ⟨spelled.ne_nil, spelled.bare⟩

theorem firm (h : o.Spelled t) : t.Firm := by
  rcases h.quoted_or_bare with ⟨q, content, rfl, quote, -⟩ | ⟨full, bare⟩
  · have solid := Text.isBlank_of_isQuote quote
    exact ⟨⟨q, _, rfl, solid⟩, ⟨q :: content, q, rfl, solid⟩⟩
  · exact Text.firm_of_bare full bare

theorem clear (h : o.Spelled t) : t.Clear marks := by
  rcases h.quoted_or_bare with ⟨q, content, rfl, quote, inside⟩ | ⟨-, bare⟩
  · exact .quoted quote inside .nil
  · exact Text.clear_of_bare bare

end Operand.Spelled

theorem Comparison.symbol_clear (op : Comparison) : op.symbol.Clear ['?', ':'] := by
  have plain : (op.symbol.all fun c => c ∉ ['?', ':'] && !Text.isQuote c) = true := by cases op <;> decide
  exact Text.clear_of_plain fun c member => by simpa using List.all_eq_true.mp plain c member

namespace Condition.Spelled
variable {c : Condition} {t : Text}

theorem firm (h : c.Spelled t) : t.Firm := by
  cases h with
  | @compare _ op _ t u gap gap' left _ _ right =>
      have whole := left.firm.between (gap ++ (op.symbol ++ gap')) right.firm
      rwa [List.append_assoc, List.append_assoc] at whole
  | plain spelled => exact spelled.firm
  | @negated _ t gap _ spelled =>
      have solid : isBlank '!' = false := by decide
      have mark : Text.Firm ['!'] := ⟨⟨'!', [], rfl, solid⟩, ⟨[], '!', rfl, solid⟩⟩
      exact mark.between gap spelled.firm

theorem clear (h : c.Spelled t) : t.Clear ['?', ':'] := by
  have fewer : ['?', ':'] ⊆ marks := by decide
  cases h with
  | @compare _ op _ t u gap gap' left blanks blanks' right =>
      have before := (left.clear.append (Text.clear_blanks blanks)).mono fewer
      have behind := ((Text.clear_blanks blanks').append right.clear).mono fewer
      have whole := before.append (op.symbol_clear.append behind)
      rwa [List.append_assoc] at whole
  | plain spelled => exact spelled.clear.mono fewer
  | negated blanks spelled =>
      exact .plain (by decide) rfl (((Text.clear_blanks blanks).append spelled.clear).mono fewer)

end Condition.Spelled

theorem Expr.Spelled.firm {e : Expr} {t : Text} (h : e.Spelled t) : t.Firm := by
  cases h with
  | operand spelled => exact spelled.firm
  | condition spelled _ => exact spelled.firm
  | @ternary _ _ _ t u v a b c d test _ _ _ _ _ no =>
      have whole := test.firm.between (a ++ '?' :: (b ++ (u ++ (c ++ ':' :: d)))) no.firm
      simpa using whole

end TextTemplate
