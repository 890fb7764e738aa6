import TextTemplate.Text
import TextTemplate.Proofs.Token.Form

namespace TextTemplate.Text
open CharClass

structure Firm (t : Text) : Prop where
  begins : ∃ c more, t = c :: more ∧ isBlank c = false
  ends : ∃ more c, t = more ++ [c] ∧ isBlank c = false

theorem Firm.ne_nil {t : Text} (firm : Firm t) : t ≠ [] := by
  obtain ⟨c, more, rfl, -⟩ := firm.begins
  exact List.cons_ne_nil c more

theorem firm_of_solid {t : Text} (full : t ≠ []) (solid : ∀ c ∈ t, isBlank c = false) : Firm t where
  begins := by
    obtain ⟨c, more, rfl⟩ := List.exists_cons_of_ne_nil full
    exact ⟨c, more, rfl, solid c List.mem_cons_self⟩
  ends := by
    refine ⟨t.dropLast, t.getLast full, (List.dropLast_append_getLast full).symm, ?_⟩
    exact solid _ (List.getLast_mem full)

theorem Firm.between {t u : Text} (first : Firm t) (middle : Text) (last : Firm u) : Firm (t ++ (middle ++ u)) where
  begins := by
    obtain ⟨c, more, rfl, solid⟩ := first.begins
    exact ⟨c, _, rfl, solid⟩
  ends := by
    obtain ⟨more, c, rfl, solid⟩ := last.ends
    exact ⟨t ++ (middle ++ more), c, by simp, solid⟩

theorem IsBlanks.append {t u : Text} (h : IsBlanks t) (h' : IsBlanks u) : IsBlanks (t ++ u) :=
  List.forall_mem_append.mpr ⟨h, h'⟩

theorem trimLeft_blanks {before t : Text} (blanks : IsBlanks before) (firm : Firm t) (after : Text) :
    trimLeft (before ++ (t ++ after)) = t ++ after := by
  obtain ⟨c, more, rfl, solid⟩ := firm.begins
  exact Lexer.dropWhile_blanks blanks solid _

theorem trimRight_blanks {after t : Text} (firm : Firm t) (blanks : IsBlanks after) : trimRight (t ++ after) = t := by
  obtain ⟨more, c, rfl, solid⟩ := firm.ends
  have reversed : IsBlanks after.reverse := fun d member => blanks d (List.mem_reverse.mp member)
  rw [trimRight, List.append_assoc, List.reverse_append, List.reverse_append, List.reverse_singleton,
    List.append_assoc, List.singleton_append, Lexer.dropWhile_blanks reversed solid]
  simp

theorem trim_blanks {before t after : Text} (blanks : IsBlanks before) (firm : Firm t) (blanks' : IsBlanks after) :
    trim (before ++ (t ++ after)) = t := by
  rw [trim, trimLeft_blanks blanks firm, trimRight_blanks firm blanks']

theorem Firm.trim_before {before t : Text} (firm : Firm t) (blanks : IsBlanks before) : trim (before ++ t) = t := by
  have both := trim_blanks blanks firm isBlanks_nil
  rwa [List.append_nil] at both

theorem Firm.trim_behind {t after : Text} (firm : Firm t) (blanks : IsBlanks after) : trim (t ++ after) = t :=
  trim_blanks isBlanks_nil firm blanks

theorem Firm.trim_eq {t : Text} (firm : Firm t) : t.trim = t := firm.trim_before isBlanks_nil

theorem isQuote_iff {c : Char} : isQuote c = true ↔ c = '"' ∨ c = '\'' := by simp [isQuote]

theorem isBlank_of_isQuote {q : Char} (h : isQuote q = true) : isBlank q = false := by
  rcases isQuote_iff.mp h with rfl | rfl <;> decide

theorem quoteAfter_of_isQuote {q : Char} (quote : isQuote q = true) : quoteAfter q none = some q := if_pos quote

theorem quoteAfter_of_bare {c : Char} (bare : isQuote c = false) : quoteAfter c none = none := if_neg (by simp [bare])

/-- Texts that hold none of some characters outside quotes, and in which every quote is closed. -/
inductive Clear (avoid : List Char) : Text → Prop
  | nil : Clear avoid []
  | plain {c : Char} {t : Text} : c ∉ avoid → isQuote c = false → Clear avoid t → Clear avoid (c :: t)
  | quoted {q : Char} {content t : Text} : isQuote q = true → q ∉ content → Clear avoid t →
      Clear avoid (q :: (content ++ q :: t))

theorem Clear.append {avoid : List Char} {t u : Text} (h : Clear avoid t) (h' : Clear avoid u) :
    Clear avoid (t ++ u) := by
  induction h with
  | nil => exact h'
  | plain other bare _ ih => exact .plain other bare ih
  | @quoted q content t quote inside _ ih =>
      rw [List.cons_append, List.append_assoc, List.cons_append]
      exact .quoted quote inside ih

theorem Clear.mono {avoid fewer : List Char} {t : Text} (h : Clear avoid t) (sub : fewer ⊆ avoid) : Clear fewer t := by
  induction h with
  | nil => exact .nil
  | plain other bare _ ih => exact .plain (fun member => other (sub member)) bare ih
  | quoted quote inside _ ih => exact .quoted quote inside ih

theorem Clear.head_ne {avoid : List Char} {t : Text} (h : Clear avoid t) {c : Char} (member : c ∈ avoid)
    (bare : isQuote c = false) : t.head? ≠ some c := by
  cases h with
  | nil => exact nofun
  | plain other _ _ =>
      rintro ⟨⟩
      exact other member
  | quoted quote _ _ =>
      rintro ⟨⟩
      rw [quote] at bare
      cases bare

theorem clear_of_plain {avoid : List Char} {t : Text} (h : ∀ c ∈ t, c ∉ avoid ∧ isQuote c = false) : Clear avoid t := by
  induction t with
  | nil => exact .nil
  | cons c t ih =>
      obtain ⟨⟨other, bare⟩, rest⟩ := List.forall_mem_cons.mp h
      exact .plain other bare (ih rest)

def behind {α : Type} (t : Text) (found : Option (Text × α)) : Option (Text × α) :=
  found.map fun (before, rest) => (t ++ before, rest)

theorem behind_behind {α : Type} (t u : Text) (found : Option (Text × α)) :
    behind t (behind u found) = behind (t ++ u) found := by
  cases found <;> simp [behind]

section
variable {α : Type} {avoid : List Char} {scan : Nat → Option Char → Text → Option (Text × α)}

/-- What a search passes over in one step: what stands in quotes, quotes, and all it does not search for. -/
def Passes (avoid : List Char) (scan : Nat → Option Char → Text → Option (Text × α)) : Prop :=
  ∀ offset opened c rest, (opened = none → isQuote c = true ∨ c ∉ avoid) →
    scan offset opened (c :: rest) = behind [c] (scan (offset + c.utf8Size) (quoteAfter c opened) rest)

theorem Passes.quoted (passes : Passes avoid scan) {q : Char} {content : Text} (inside : q ∉ content) (offset : Nat)
    (rest : Text) : scan offset (some q) (content ++ q :: rest) =
      behind (content ++ [q]) (scan (offset + utf8Size (content ++ [q])) none rest) := by
  induction content generalizing offset with
  | nil =>
      rw [List.nil_append, passes offset (some q) q rest nofun]
      simp [quoteAfter]
  | cons c content ih =>
      rw [List.mem_cons, not_or] at inside
      obtain ⟨other, inside⟩ := inside
      have still : quoteAfter c (some q) = some q := if_neg (Ne.symm other)
      rw [List.cons_append, passes offset (some q) c _ nofun, still, ih inside, behind_behind]
      simp [Nat.add_assoc]

theorem Passes.clear (passes : Passes avoid scan) {t : Text} (clear : Clear avoid t) (offset : Nat) (rest : Text) :
    scan offset none (t ++ rest) = behind t (scan (offset + utf8Size t) none rest) := by
  induction clear generalizing offset with
  | nil => cases h : scan offset none rest <;> simp [behind, h]
  | @plain c t other bare _ ih =>
      rw [List.cons_append, passes offset none c _ fun _ => .inr other, quoteAfter_of_bare bare, ih, behind_behind]
      simp [Nat.add_assoc]
  | @quoted q content t quote inside _ ih =>
      rw [List.cons_append, List.append_assoc, List.cons_append, passes offset none q _ fun _ => .inl quote,
        quoteAfter_of_isQuote quote, passes.quoted inside, ih, behind_behind, behind_behind]
      simp [Nat.add_assoc]

end

theorem passes_cutOutside (c : Char) (start : Nat) :
    Passes [c] fun offset opened t => cutOutside [c] start offset opened t := by
  intro offset opened d rest other
  have passed : ¬ (opened = none ∧ ¬ isQuote d ∧ start ≤ offset ∧ [c].isPrefixOf (d :: rest)) := by
    rintro ⟨rfl, bare, -, same⟩
    have same : c = d := by simpa using same
    rcases other rfl with quote | apart
    · exact bare quote
    · exact apart (by simp [same])
  simp only [cutOutside]
  rw [if_neg passed]
  rfl

theorem cutOutside_clear {c : Char} {t : Text} (clear : Clear [c] t) (start : Nat) :
    cutOutside [c] start 0 none t = none := by
  have passed := (passes_cutOutside c start).clear clear 0 []
  rwa [List.append_nil] at passed

theorem cutOutside_append {c : Char} {t : Text} (clear : Clear [c] t) (bare : isQuote c = false) {start : Nat}
    (reached : start ≤ utf8Size t) (rest : Text) : cutOutside [c] start 0 none (t ++ c :: rest) = some (t, c :: rest) := by
  have found : cutOutside [c] start (0 + utf8Size t) none (c :: rest) = some ([], c :: rest) := by
    rw [cutOutside, if_pos ⟨rfl, by simp [bare], by omega, by simp⟩]
  have passed := (passes_cutOutside c start).clear clear 0 (c :: rest)
  rw [passed, found]
  simp [behind]

def quoteBehind (opened : Option Char) (t : Text) : Option Char := t.foldl (fun opened c => quoteAfter c opened) opened

theorem quoteBehind_of_not_mem {q : Char} {t : Text} (inside : q ∉ t) : quoteBehind (some q) t = some q := by
  induction t with
  | nil => rfl
  | cons c t ih =>
      rw [List.mem_cons, not_or] at inside
      have still : quoteAfter c (some q) = some q := if_neg (Ne.symm inside.1)
      rw [quoteBehind, List.foldl_cons, still]
      exact ih inside.2

theorem quoteBehind_closed {q : Char} {content : Text} (inside : q ∉ content) (t : Text) :
    quoteBehind (some q) (content ++ q :: t) = quoteBehind none t := by
  have open_ := quoteBehind_of_not_mem inside
  rw [quoteBehind] at open_ ⊢
  rw [List.foldl_append, open_, List.foldl_cons]
  simp [quoteAfter, quoteBehind]

theorem clear_nil_iff {t : Text} : Clear [] t ↔ quoteBehind none t = none := by
  constructor
  · intro clear
    induction clear with
    | nil => rfl
    | plain _ bare _ ih =>
        rw [quoteBehind, List.foldl_cons, quoteAfter_of_bare bare]
        exact ih
    | quoted quote inside _ ih =>
        rw [quoteBehind, List.foldl_cons, quoteAfter_of_isQuote quote, ← quoteBehind, quoteBehind_closed inside]
        exact ih
  · intro balanced
    match t with
    | [] => exact .nil
    | d :: rest =>
        by_cases quote : isQuote d = true
        · rw [quoteBehind, List.foldl_cons, quoteAfter_of_isQuote quote, ← quoteBehind] at balanced
          have closes : d ∈ rest := by
            by_contra inside
            rw [quoteBehind_of_not_mem inside] at balanced
            cases balanced
          obtain ⟨content, after, rfl, inside⟩ := List.eq_append_cons_of_mem closes
          rw [quoteBehind_closed inside] at balanced
          exact .quoted quote inside (clear_nil_iff.mpr balanced)
        · have bare := Bool.eq_false_iff.mpr quote
          rw [quoteBehind, List.foldl_cons, quoteAfter_of_bare bare, ← quoteBehind] at balanced
          exact .plain List.not_mem_nil bare (clear_nil_iff.mpr balanced)
termination_by t.length

theorem cutOutside_behind {c : Char} {t rest : Text} (clear : Clear [c] t) {offset : Nat}
    (missing : cutOutside [c] 0 offset none (t ++ rest) = none) :
    cutOutside [c] 0 (offset + utf8Size t) none rest = none := by
  have passed := (passes_cutOutside c 0).clear clear offset rest
  rw [missing] at passed
  simpa [behind] using passed.symm

theorem clear_of_balanced {c : Char} {t : Text} (offset : Nat) (balanced : quoteBehind none t = none)
    (missing : cutOutside [c] 0 offset none t = none) : Clear [c] t := by
  induction clear_nil_iff.mpr balanced generalizing offset with
  | nil => exact .nil
  | @plain d t _ bare clear ih =>
      have other : d ∉ [c] := by
        intro same
        rw [cutOutside, if_pos ⟨rfl, by simp [bare], Nat.zero_le _, by simp [List.mem_singleton.mp same]⟩] at missing
        cases missing
      have single : Clear [c] [d] := .plain other bare .nil
      exact .plain other bare (ih _ (clear_nil_iff.mp clear) (cutOutside_behind single missing))
  | @quoted q content t quote inside clear ih =>
      have quoted : Clear [c] (q :: (content ++ [q])) := .quoted quote inside .nil
      have whole : q :: (content ++ q :: t) = (q :: (content ++ [q])) ++ t := by simp
      rw [whole] at missing
      exact .quoted quote inside (ih _ (clear_nil_iff.mp clear) (cutOutside_behind quoted missing))

theorem isBlank_of_dropWhile {t more : Text} {c : Char} (h : t.dropWhile isBlank = c :: more) : isBlank c = false := by
  have first := List.head?_dropWhile_not isBlank t
  rw [h] at first
  simpa using first

theorem exists_firm {t : Text} (full : t.trim ≠ []) :
    ∃ before after, t = before ++ (t.trim ++ after) ∧ IsBlanks before ∧ Firm t.trim ∧ IsBlanks after := by
  have back : t.trimLeft = t.trim ++ (t.trimLeft.reverse.takeWhile isBlank).reverse := by
    rw [trim, trimRight, ← List.reverse_append, List.takeWhile_append_dropWhile, List.reverse_reverse]
  have front : t = t.takeWhile isBlank ++ t.trimLeft := List.takeWhile_append_dropWhile.symm
  refine ⟨t.takeWhile isBlank, _, front.trans (congrArg _ back), fun _ => List.mem_takeWhile_imp, ⟨?_, ?_⟩, ?_⟩
  · obtain ⟨c, more, begins⟩ := List.exists_cons_of_ne_nil full
    rw [begins, List.cons_append] at back
    exact ⟨c, more, begins, isBlank_of_dropWhile back⟩
  · rw [trim, trimRight] at full ⊢
    obtain ⟨c, more, ends⟩ := List.exists_cons_of_ne_nil (List.reverse_ne_nil_iff.mp full)
    exact ⟨more.reverse, c, by rw [ends, List.reverse_cons], isBlank_of_dropWhile ends⟩
  · exact fun c member => List.mem_takeWhile_imp (List.mem_reverse.mp member)

end TextTemplate.Text
