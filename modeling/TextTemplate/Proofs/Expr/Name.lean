import TextTemplate.Proofs.Expr.Reading
import TextTemplate.Proofs.Token.Plain

namespace TextTemplate
open Text.CharClass TextTemplate.Expr Lexer

def Lexeme.names : Lexeme → List Text
  | .binding name _ => [name]
  | .forOpen index _ _ => index.toList
  | _ => []

def Lexeme.path? : Lexeme → Option Text
  | .forOpen _ _ path => some path
  | _ => none

theorem isName_of_scan {template : Text} {token : Token} (scanned : token ∈ Token.scan template) {n : Text}
    (member : n ∈ token.lexeme.names) : IsName n := by
  have tag : token.lexeme.isTag = true := by
    cases same : token.lexeme <;> rw [same] at member <;> first | rfl | cases member
  obtain ⟨rest, form, -⟩ := exists_form_of_scan scanned tag
  generalize token.lexeme = l, token.raw = raw at form member
  cases form with
  | binding _ _ named _ _ _ _ => rwa [List.mem_singleton.mp member]
  | forOpen _ names _ _ _ _ _ =>
      cases names with
      | item _ => cases member
      | indexed named _ _ => rwa [List.mem_singleton.mp member]
  | _ => cases member

theorem isPath_of_scan {template : Text} {token : Token} (scanned : token ∈ Token.scan template) {path : Text}
    (member : path ∈ token.lexeme.path?) : IsPath path := by
  have tag : token.lexeme.isTag = true := by
    cases same : token.lexeme <;> rw [same] at member <;> first | rfl | cases member
  obtain ⟨rest, form, -⟩ := exists_form_of_scan scanned tag
  generalize token.lexeme = l, token.raw = raw at form member
  cases form with
  | forOpen _ _ _ _ _ isPath _ =>
      cases member
      exact isPath
  | _ => cases member

def Text.Segmental (t : Text) : Prop := ∀ c ∈ t, isWord c = true → Path.isSegmentChar c = true

instance (t : Text) : Decidable t.Segmental :=
  decidable_of_decidable_of_iff (p := (t.all fun c => !isWord c || Path.isSegmentChar c) = true)
    (by simp [Text.Segmental, imp_iff_not_or])

theorem Text.segmental_append {t u : Text} : (t ++ u).Segmental ↔ t.Segmental ∧ u.Segmental :=
  List.forall_mem_append

theorem IsName.isSegment {n : Text} (named : IsName n) (segmental : n.Segmental) : Path.isSegment n = true :=
  Path.isSegment_iff.mpr ⟨named.1, fun c member => segmental c member (named.2 c member)⟩

theorem IsSegments.exists_continues {t : Text} (h : IsSegments t) (segmental : t.Segmental) :
    ∃ rest, Path.Continues rest t := by
  induction h with
  | nil => exact ⟨[], .ends⟩
  | @key name t named _ ih =>
      obtain ⟨-, inside⟩ := List.forall_mem_cons.mp segmental
      obtain ⟨own, others⟩ := Text.segmental_append.mp inside
      obtain ⟨rest, goes⟩ := ih others
      exact ⟨name :: rest, .dotted (named.isSegment own) goes⟩
  | @index digits t full all _ ih =>
      obtain ⟨-, inside⟩ := List.forall_mem_cons.mp segmental
      obtain ⟨-, behind⟩ := List.forall_mem_append.mp inside
      obtain ⟨-, others⟩ := List.forall_mem_cons.mp behind
      obtain ⟨rest, goes⟩ := ih others
      have chars : ∀ c ∈ digits, Path.isSegmentChar c = true := fun c member => Path.isSegmentChar_of_isDigit (all c member)
      exact ⟨digits :: rest, .indexed (Path.isSegment_iff.mpr ⟨full, chars⟩) all goes⟩

theorem IsPath.exists_spelled {path : Text} (h : IsPath path) (segmental : path.Segmental) :
    ∃ p : Path, p.Spelled path := by
  obtain ⟨name, segments, named, goes, rfl⟩ := h
  obtain ⟨own, others⟩ := Text.segmental_append.mp segmental
  obtain ⟨rest, goes⟩ := goes.exists_continues others
  exact ⟨⟨name :: rest⟩, .mk (named.isSegment own) goes⟩

/-- A name that is a literal: one of the three words, or ASCII digits of a number that is not too large. -/
def Operand.IsLiteralName (n : Text) : Prop :=
  n ∈ keywords ∨ (∀ c ∈ n, c.isDigit = true) ∧
    (isInt64 (Text.toNat n) = true ∨ (Number.Numeral.mk false n none none).value.isInfinite = false)

theorem takeSign_name {n : Text} (named : IsName n) : Number.Numeral.takeSign n = (false, n) := by
  obtain ⟨c, rest, rfl⟩ := List.exists_cons_of_ne_nil named.1
  have other : c ∉ ['-', '+'] := not_mem_of_class (by decide +kernel) (named.2 c List.mem_cons_self)
  simp only [List.mem_cons, List.not_mem_nil, or_false, not_or] at other
  rw [Number.Numeral.takeSign]
  · exact fun _ minus => other.1 (List.cons.inj minus).1
  · exact fun _ plus => other.2 (List.cons.inj plus).1

theorem Operand.digits_of_number? {n : Text} (named : IsName n) {x : Number} (h : number? n = some x) :
    ∀ c ∈ n, c.isDigit = true := by
  obtain ⟨numeral, reads, kept⟩ := Option.bind_eq_some_iff.mp h
  split at kept
  · cases kept
  · rename_i plain
    simp only [not_or, not_not] at plain
    obtain ⟨spelled, digits⟩ := Number.Numeral.ofText?_eq_some reads plain.2.2
    rw [takeSign_name named] at spelled
    cases fraction : numeral.fraction with
    | none =>
        rw [fraction] at spelled digits
        obtain rfl : n = numeral.whole := by simpa [Text.join] using spelled
        exact digits _ List.mem_cons_self
    | some part =>
        -- A name holds no point.
        have point : '.' ∈ n := by
          rw [fraction] at spelled
          simp only at spelled
          rw [spelled]
          simp [Text.join, List.intercalate]
        exact absurd (named.2 '.' point) (by decide +kernel)

theorem Operand.number?_digits {n : Text} (named : IsName n) (digits : ∀ c ∈ n, c.isDigit = true) :
    number? n = if isInt64 (Text.toNat n) then some (.int (Text.toNat n))
      else if (Number.Numeral.mk false n none none).value.isInfinite then none
      else some (.float (Number.Numeral.mk false n none none).value) := by
  have taken : Text.takeDigits n = (n, []) := by
    rw [Text.takeDigits, List.takeWhile_eq_self_iff.mpr digits, List.dropWhile_eq_nil_iff.mpr digits]
  have numeral : Number.Numeral.ofText? n = some ⟨false, n, none, none⟩ := by
    simp [Number.Numeral.ofText?, takeSign_name named, taken, named.1, Number.Numeral.takeExponent]
  rw [number?, numeral]
  simp [named.1]

theorem Operand.literal?_name {n : Text} (named : IsName n) (segmental : n.Segmental) :
    literal? n = none ↔ ¬ IsLiteralName n := by
  by_cases keyword : n ∈ keywords
  · have words : ∀ word ∈ keywords, literal? word ≠ none := by decide
    exact ⟨fun h => absurd h (words n keyword), fun h => absurd (.inl keyword) h⟩
  · have bare := Path.isBare_of_isSegment (named.isSegment segmental)
    rw [literal?_bare named.1 bare keyword, Option.map_eq_none_iff, IsLiteralName, or_iff_right keyword]
    by_cases digits : ∀ c ∈ n, c.isDigit = true
    · rw [number?_digits named digits, and_iff_right digits]
      split
      · simp [*]
      · split <;> simp [*]
    · have none : number? n = none :=
        Option.eq_none_iff_forall_ne_some.mpr fun x found => digits (digits_of_number? named found)
      exact iff_of_true none fun h => digits h.1

theorem Expr.read_bare {t : Text} (full : t ≠ []) (bare : ∀ c ∈ t, isBare c = true) :
    Expr.read t = (do return .operand (← Operand.read t)) := by
  have clear := Text.clear_of_bare bare
  have noMark := split?_clear (clear.mono (by decide))
  have unasked : ¬ ((Condition.split? t).isSome ∨ isNegation t) := by
    simp [Condition.split?_clear clear, isNegation_eq_false (clear.head_ne (c := '!') (by decide) rfl)]
  simp only [Expr.read, (Text.firm_of_bare full bare).trim_eq, noMark]
  rw [if_neg full, if_neg unasked]

theorem Expr.read_name {n : Text} (named : IsName n) (segmental : n.Segmental) :
    Expr.read n = .ok (.operand (.path ⟨[n]⟩)) ↔ ¬ Operand.IsLiteralName n := by
  have valid := named.isSegment segmental
  have spelled : Path.Spelled ⟨[n]⟩ (n ++ []) := .mk valid .ends
  rw [List.append_nil] at spelled
  rw [← Operand.literal?_name named segmental, Expr.read_bare named.1 (Path.isBare_of_isSegment valid), Operand.read]
  cases Operand.literal? n with
  | none =>
      rw [Path.read_spelled spelled]
      exact iff_of_true rfl rfl
  | some v =>
      constructor
      · intro same
        cases same
      · intro same
        cases same

end TextTemplate
