import TextTemplate.Proofs.Expr.Quoted

/-!
# Searches outside quotes

Two scans follow the quotes of a text: one looks for a given needle from a given byte on, the other for the operator of a
comparison. Both are searches of one kind, which look at the places outside quotes in turn and stop at the first one
where they find something (`Seeks`). So an operator is cut at the least of the bytes at which the first scan finds one of
the symbols (`searches_agree`).
-/

namespace TextTemplate
open Text.CharClass

namespace Text

def OutsideFrom (opened : Option Char) (before rest : Text) : Prop :=
  quoteBehind opened before = none ∧ ∃ c more, rest = c :: more ∧ isQuote c = false

theorem outsideFrom_cons {opened : Option Char} {c : Char} {before rest : Text} :
    OutsideFrom opened (c :: before) rest ↔ OutsideFrom (quoteAfter c opened) before rest := Iff.rfl

theorem outsideFrom_nil {opened : Option Char} {c : Char} {rest : Text} :
    OutsideFrom opened [] (c :: rest) ↔ opened = none ∧ isQuote c = false := by
  constructor
  · rintro ⟨closed, d, more, same, bare⟩
    obtain ⟨rfl, -⟩ := List.cons.inj same
    exact ⟨closed, bare⟩
  · rintro ⟨closed, bare⟩
    exact ⟨closed, c, rest, rfl, bare⟩

/-- A scan that looks at every place outside quotes, from the first one on, and stops where it finds something. -/
structure Seeks {α : Type} (look : Nat → Text → Option α) (scan : Nat → Option Char → Text → Option (Text × α)) :
    Prop where
  nil : ∀ offset opened, scan offset opened [] = none
  here : ∀ offset c rest found, isQuote c = false → look offset (c :: rest) = some found →
    scan offset none (c :: rest) = some ([], found)
  past : ∀ offset opened c rest, (opened = none → isQuote c = false → look offset (c :: rest) = none) →
    scan offset opened (c :: rest) = behind [c] (scan (offset + c.utf8Size) (quoteAfter c opened) rest)

section
variable {α : Type} {look : Nat → Text → Option α} {scan : Nat → Option Char → Text → Option (Text × α)}
  {opened : Option Char} {t before rest : Text} {found : α}

theorem behind_eq_some {c : Char} {tried : Option (Text × α)} (h : behind [c] tried = some (before, found)) :
    ∃ later, before = c :: later ∧ tried = some (later, found) := by
  obtain ⟨⟨later, found'⟩, tried, same⟩ := Option.map_eq_some_iff.mp h
  cases same
  exact ⟨later, rfl, tried⟩

theorem Seeks.step (seeks : Seeks look scan) (offset : Nat) (opened : Option Char) (c : Char) (rest : Text) :
    (∃ found, OutsideFrom opened [] (c :: rest) ∧ look offset (c :: rest) = some found ∧
      scan offset opened (c :: rest) = some ([], found)) ∨
    ((OutsideFrom opened [] (c :: rest) → look offset (c :: rest) = none) ∧
      scan offset opened (c :: rest) = behind [c] (scan (offset + c.utf8Size) (quoteAfter c opened) rest)) := by
  by_cases outside : OutsideFrom opened [] (c :: rest)
  · cases found : look offset (c :: rest) with
    | none => exact .inr ⟨fun _ => rfl, seeks.past _ _ _ _ fun _ _ => found⟩
    | some a =>
        obtain ⟨rfl, bare⟩ := outsideFrom_nil.mp outside
        exact .inl ⟨a, outside, rfl, seeks.here _ _ _ _ bare found⟩
  · refine .inr ⟨fun inside => absurd inside outside, seeks.past _ _ _ _ fun closed bare => ?_⟩
    exact absurd (outsideFrom_nil.mpr ⟨closed, bare⟩) outside

theorem Seeks.nothing (seeks : Seeks look scan) (offset : Nat) (h : scan offset opened t = none)
    (split : t = before ++ rest) (outside : OutsideFrom opened before rest) :
    look (offset + utf8Size before) rest = none := by
  induction t generalizing offset opened before with
  | nil =>
      obtain ⟨-, c, more, rfl, -⟩ := outside
      simp at split
  | cons c t ih =>
      rcases seeks.step offset opened c t with ⟨_, -, -, stops⟩ | ⟨empty, goes⟩
      · rw [stops] at h
        cases h
      · cases before with
        | nil =>
            obtain rfl : c :: t = rest := split
            exact empty outside
        | cons d before =>
            obtain ⟨rfl, behind⟩ := List.cons.inj split
            rw [goes] at h
            have later := ih _ (Option.map_eq_none_iff.mp h) behind (outsideFrom_cons.mp outside)
            rwa [Nat.add_assoc, ← utf8Size_cons] at later

theorem Seeks.first (seeks : Seeks look scan) (offset : Nat) (h : scan offset opened t = some (before, found)) :
    ∃ rest, t = before ++ rest ∧ OutsideFrom opened before rest ∧ look (offset + utf8Size before) rest = some found ∧
      ∀ before' rest', t = before' ++ rest' → OutsideFrom opened before' rest' →
        look (offset + utf8Size before') rest' ≠ none → utf8Size before ≤ utf8Size before' := by
  induction t generalizing offset opened before with
  | nil =>
      rw [seeks.nil] at h
      cases h
  | cons c t ih =>
      rcases seeks.step offset opened c t with ⟨_, outside, finds, stops⟩ | ⟨empty, goes⟩
      · rw [stops] at h
        cases h
        exact ⟨c :: t, rfl, outside, finds, fun _ _ _ _ _ => Nat.zero_le _⟩
      · rw [goes] at h
        obtain ⟨later, rfl, finds⟩ := behind_eq_some h
        obtain ⟨rest, rfl, outside, look_rest, least⟩ := ih _ finds
        rw [Nat.add_assoc, ← utf8Size_cons] at look_rest
        refine ⟨rest, rfl, outside, look_rest, fun before' rest' split outside' full => ?_⟩
        cases before' with
        | nil =>
            -- Found at once, it would have stopped the search there.
            obtain rfl : c :: (later ++ rest) = rest' := split
            exact absurd (empty outside') full
        | cons d before' =>
            obtain ⟨rfl, behind⟩ := List.cons.inj split
            have full' : look (offset + c.utf8Size + utf8Size before') rest' ≠ none := by
              rwa [utf8Size_cons, ← Nat.add_assoc] at full
            have later := least before' rest' behind (outsideFrom_cons.mp outside') full'
            simpa using later

end

/-! ## The search for a needle -/

theorem seeks_cutOutside (needle : Text) (start : Nat) :
    Seeks (fun offset rest => if start ≤ offset ∧ needle.isPrefixOf rest then some rest else none)
      (cutOutside needle start) where
  nil _ _ := rfl
  here offset c rest found bare finds := by
    split at finds
    · rename_i reached
      cases finds
      rw [cutOutside, if_pos ⟨rfl, by simp [bare], reached⟩]
    · cases finds
  past offset opened c rest empty := by
    rw [cutOutside, if_neg]
    · rfl
    · rintro ⟨closed, bare, reached⟩
      have empty := empty closed (Bool.eq_false_iff.mpr bare)
      rw [if_pos reached] at empty
      cases empty

/-- A needle begins at a byte of the text, at no quote and behind quotes that are all closed. -/
def StandsOutside (needle t : Text) (i : Nat) : Prop :=
  ∃ before c more, t = before ++ c :: more ∧ utf8Size before = i ∧ Clear [] before ∧ isQuote c = false ∧
    needle <+: c :: more

theorem standsOutside_iff {needle t : Text} {i : Nat} :
    StandsOutside needle t i ↔
      ∃ before rest, t = before ++ rest ∧ utf8Size before = i ∧ OutsideFrom none before rest ∧ needle <+: rest := by
  constructor
  · rintro ⟨before, c, more, split, size, closed, bare, begins⟩
    exact ⟨before, c :: more, split, size, ⟨clear_nil_iff.mp closed, c, more, rfl, bare⟩, begins⟩
  · rintro ⟨before, _, split, size, ⟨closed, c, more, rfl, bare⟩, begins⟩
    exact ⟨before, c, more, split, size, clear_nil_iff.mpr closed, bare, begins⟩

theorem findOutsideQuotes_eq_none {t needle : Text} {start : Nat} (h : findOutsideQuotes t needle start = none) {j : Nat}
    (reached : start ≤ j) : ¬ StandsOutside needle t j := by
  rw [standsOutside_iff]
  rintro ⟨before, rest, split, rfl, outside, begins⟩
  have missing := (seeks_cutOutside needle start).nothing _ (Option.map_eq_none_iff.mp h) split outside
  rw [Nat.zero_add, if_pos ⟨reached, List.isPrefixOf_iff_prefix.mpr begins⟩] at missing
  cases missing

theorem findOutsideQuotes_first {t needle : Text} {start i : Nat} (h : findOutsideQuotes t needle start = some i) :
    start ≤ i ∧ StandsOutside needle t i ∧ ∀ j, start ≤ j → StandsOutside needle t j → i ≤ j := by
  obtain ⟨⟨before, rest'⟩, found, rfl⟩ := Option.map_eq_some_iff.mp h
  obtain ⟨rest, split, outside, finds, least⟩ := (seeks_cutOutside needle start).first _ found
  rw [Nat.zero_add] at finds
  split at finds
  · rename_i here
    obtain ⟨reached, begins⟩ := here
    have begins := List.isPrefixOf_iff_prefix.mp begins
    refine ⟨reached, standsOutside_iff.mpr ⟨before, rest, split, rfl, outside, begins⟩, fun j reached' stands => ?_⟩
    obtain ⟨before', rest', split', rfl, outside', begins'⟩ := standsOutside_iff.mp stands
    refine least before' rest' split' outside' ?_
    rw [Nat.zero_add, if_pos ⟨reached', List.isPrefixOf_iff_prefix.mpr begins'⟩]
    exact Option.some_ne_none rest'
  · cases finds

theorem findOutsideQuotes_eq_none_iff {t needle : Text} {start : Nat} :
    findOutsideQuotes t needle start = none ↔ ∀ j, start ≤ j → ¬ StandsOutside needle t j := by
  constructor
  · exact fun missing j reached => findOutsideQuotes_eq_none missing reached
  · intro missing
    by_contra found
    obtain ⟨i, found⟩ := Option.ne_none_iff_exists'.mp found
    obtain ⟨reached, stands, -⟩ := findOutsideQuotes_first found
    exact missing i reached stands

theorem findOutsideQuotes_eq_some_iff {t needle : Text} {start i : Nat} :
    findOutsideQuotes t needle start = some i ↔
      start ≤ i ∧ StandsOutside needle t i ∧ ∀ j, start ≤ j → StandsOutside needle t j → i ≤ j := by
  refine ⟨findOutsideQuotes_first, fun ⟨reached, stands, least⟩ => ?_⟩
  cases found : findOutsideQuotes t needle start with
  | none => exact absurd stands (findOutsideQuotes_eq_none found reached)
  | some j =>
      obtain ⟨reached', stands', least'⟩ := findOutsideQuotes_first found
      have same : i = j := Nat.le_antisymm (least j reached' stands') (least' i reached stands)
      rw [same]

theorem eq_of_utf8Size {before before' rest rest' : Text} (same : before ++ rest = before' ++ rest')
    (size : utf8Size before = utf8Size before') : before = before' := by
  rcases List.append_eq_append_iff.mp same with ⟨more, rfl, -⟩ | ⟨more, rfl, -⟩
  all_goals
    cases more with
    | nil => simp
    | cons c more =>
        have positive := c.utf8Size_pos
        simp only [utf8Size_append, utf8Size_cons] at size
        omega

theorem cutOutside_eq_some_iff {needle t before rest : Text} {start : Nat} :
    cutOutside needle start 0 none t = some (before, rest) ↔
      t = before ++ rest ∧ findOutsideQuotes t needle start = some (utf8Size before) := by
  constructor
  · intro found
    refine ⟨(cutOutside_eq_some found).1, ?_⟩
    rw [findOutsideQuotes, found]
    rfl
  · rintro ⟨split, found⟩
    obtain ⟨⟨before', rest'⟩, cut, size⟩ := Option.map_eq_some_iff.mp found
    have split' := split.symm.trans (cutOutside_eq_some cut).1
    obtain rfl := eq_of_utf8Size split' size.symm
    rw [cut, List.append_cancel_left split']

theorem standsOutside_behind {needle front t : Text} (closed : quoteBehind none front = none) {j : Nat} :
    StandsOutside needle (front ++ t) (utf8Size front + j) ↔ StandsOutside needle t j := by
  simp only [standsOutside_iff]
  constructor
  · rintro ⟨before, rest, split, size, ⟨outside, bare⟩, begins⟩
    rcases List.append_eq_append_iff.mp split with ⟨later, rfl, rfl⟩ | ⟨more, rfl, rfl⟩
    · rw [quoteBehind_append, closed] at outside
      exact ⟨later, rest, rfl, by simpa using size, ⟨outside, bare⟩, begins⟩
    · obtain rfl : more = [] := by
        cases more with
        | nil => rfl
        | cons c more =>
            have positive := c.utf8Size_pos
            simp only [utf8Size_append, utf8Size_cons] at size
            omega
      obtain rfl : j = 0 := by simpa using size
      exact ⟨[], t, rfl, rfl, ⟨rfl, bare⟩, begins⟩
  · rintro ⟨before, rest, rfl, rfl, ⟨outside, bare⟩, begins⟩
    refine ⟨front ++ before, rest, (List.append_assoc ..).symm, utf8Size_append .., ⟨?_, bare⟩, begins⟩
    rw [quoteBehind_append, closed, outside]

theorem findOutsideQuotes_behind {needle front t : Text} (closed : quoteBehind none front = none) {i : Nat} :
    findOutsideQuotes (front ++ t) needle (utf8Size front) = some (utf8Size front + i) ↔
      findOutsideQuotes t needle 0 = some i := by
  simp only [findOutsideQuotes_eq_some_iff, standsOutside_behind closed]
  constructor
  · rintro ⟨-, stands, least⟩
    refine ⟨Nat.zero_le i, stands, fun j _ stands' => ?_⟩
    exact Nat.le_of_add_le_add_left (least _ (Nat.le_add_right _ j) ((standsOutside_behind closed).mpr stands'))
  · rintro ⟨-, stands, least⟩
    refine ⟨Nat.le_add_right _ i, stands, fun j reached stands' => ?_⟩
    obtain ⟨j, rfl⟩ := Nat.exists_eq_add_of_le reached
    exact Nat.add_le_add_left (least j (Nat.zero_le j) ((standsOutside_behind closed).mp stands')) _

end Text

namespace Comparison

theorem mem_all (op : Comparison) : op ∈ all := by
  cases op <;> decide

theorem symbol_injective {op op' : Comparison} (same : op.symbol = op'.symbol) : op = op' := by
  cases op <;> cases op' <;> first | rfl | cases same

theorem all_descending : all.Pairwise fun op op' => op'.symbol.length ≤ op.symbol.length := by decide

theorem isPrefixOf?_ne_none {op : Comparison} {t : Text} (begins : op.symbol <+: t) : op.symbol.isPrefixOf? t ≠ none := by
  obtain ⟨rest, rfl⟩ := begins
  rw [List.isPrefixOf?_eq_some_iff_append_eq.mpr rfl]
  exact Option.some_ne_none rest

theorem at?_ne_none {t : Text} {op : Comparison} (begins : op.symbol <+: t) : at? t ≠ none := by
  intro missing
  have skipped := List.findSome?_eq_none_iff.mp missing op op.mem_all
  exact isPrefixOf?_ne_none begins (Option.map_eq_none_iff.mp skipped)

theorem at?_longest {t rest : Text} {op : Comparison} (h : at? t = some (op, rest)) {other : Comparison}
    (begins : other.symbol <+: t) : other.symbol.length ≤ op.symbol.length := by
  obtain ⟨shorter, op', longer, split, found, skipped⟩ := List.findSome?_eq_some_iff.mp h
  obtain ⟨_, -, same⟩ := Option.map_eq_some_iff.mp found
  cases same
  have descending := all_descending
  rw [split, List.pairwise_append, List.pairwise_cons] at descending
  have member := other.mem_all
  rw [split, List.mem_append, List.mem_cons] at member
  rcases member with earlier | rfl | later
  · exact absurd (Option.map_eq_none_iff.mp (skipped other earlier)) (isPrefixOf?_ne_none begins)
  · exact Nat.le_refl _
  · exact descending.2.1.1 other later

theorem at?_eq_some_iff {t rest : Text} {op : Comparison} :
    at? t = some (op, rest) ↔
      t = op.symbol ++ rest ∧ ∀ other : Comparison, other.symbol <+: t → other.symbol.length ≤ op.symbol.length := by
  refine ⟨fun found => ⟨at?_eq_some found, fun _ => at?_longest found⟩, ?_⟩
  rintro ⟨rfl, longest⟩
  have begins : op.symbol <+: op.symbol ++ rest := List.prefix_append _ _
  obtain ⟨⟨op', rest'⟩, found⟩ := Option.ne_none_iff_exists'.mp (at?_ne_none begins)
  have split := at?_eq_some found
  have begins' : op'.symbol <+: op.symbol ++ rest := split ▸ List.prefix_append _ _
  have size : op'.symbol.length = op.symbol.length :=
    Nat.le_antisymm (longest op' begins') (at?_longest found begins)
  have same : op.symbol = op'.symbol := (List.append_inj split size.symm).1
  obtain rfl := symbol_injective same
  rw [found, (List.append_inj split rfl).2]

end Comparison

/-! ## The operator of a comparison -/

namespace Text

theorem standsOutside_cons {needle t : Text} {c : Char} {j : Nat} (reached : 1 ≤ j) :
    StandsOutside needle (c :: t) j ↔
      ∃ left rest, t = left ++ rest ∧ utf8Size (c :: left) = j ∧ OutsideFrom (quoteAfter c none) left rest ∧
        needle <+: rest := by
  rw [standsOutside_iff]
  constructor
  · rintro ⟨before, rest, split, rfl, outside, begins⟩
    cases before with
    | nil => cases reached
    | cons d left =>
        obtain ⟨rfl, behind⟩ := List.cons.inj split
        exact ⟨left, rest, behind, rfl, outsideFrom_cons.mp outside, begins⟩
  · rintro ⟨left, rest, rfl, size, outside, begins⟩
    exact ⟨c :: left, rest, rfl, size, outsideFrom_cons.mpr outside, begins⟩

theorem trim_ne_nil {c : Char} (solid : isBlank c = false) (t : Text) : trim (c :: t) ≠ [] := by
  intro blank
  rw [trim, trimLeft, List.dropWhile_cons_of_neg (by simp [solid]), trimRight, List.reverse_eq_nil_iff,
    List.dropWhile_eq_nil_iff] at blank
  rw [blank c (List.mem_reverse.mpr List.mem_cons_self)] at solid
  cases solid

end Text

namespace Condition
open Text

theorem seeks_cut : Seeks (fun _ rest => Comparison.at? rest) fun _ opened t => cut opened t where
  nil _ _ := rfl
  here offset c rest found bare finds := by simp [cut, bare, finds]
  past offset opened c rest empty := by
    have skipped : (if opened = none ∧ ¬ isQuote c then Comparison.at? (c :: rest) else none) = none := by
      split
      · rename_i outside
        exact empty outside.1 (Bool.eq_false_iff.mpr outside.2)
      · rfl
    simp only [cut, skipped]
    rfl

/--
The operator that a text is cut at: at the least of the bytes behind the first character where a symbol is found, the
longest one.
-/
structure CutAt (t before : Text) (op : Comparison) (after : Text) : Prop where
  split : t = before ++ (op.symbol ++ after)
  found : ∃ other : Comparison, findOutsideQuotes t other.symbol 1 = some (utf8Size before)
  least : ∀ (other : Comparison) i, findOutsideQuotes t other.symbol 1 = some i → utf8Size before ≤ i
  longest : ∀ other : Comparison, other.symbol <+: op.symbol ++ after → other.symbol.length ≤ op.symbol.length

section
variable {c : Char} {t before left after : Text} {op : Comparison}

theorem CutAt.unique {before' after' : Text} {op' : Comparison} (h : CutAt t before op after)
    (h' : CutAt t before' op' after') : before = before' ∧ op = op' ∧ after = after' := by
  obtain ⟨other, found⟩ := h.found
  obtain ⟨other', found'⟩ := h'.found
  have size : utf8Size before = utf8Size before' := Nat.le_antisymm (h.least _ _ found') (h'.least _ _ found)
  have split := h.split.symm.trans h'.split
  obtain rfl := eq_of_utf8Size split size
  have behind := List.append_cancel_left split
  have begins : op'.symbol <+: op.symbol ++ after := behind ▸ List.prefix_append _ _
  have begins' : op.symbol <+: op'.symbol ++ after' := behind ▸ List.prefix_append _ _
  obtain ⟨same, rest⟩ := List.append_inj behind (Nat.le_antisymm (h'.longest _ begins') (h.longest _ begins))
  exact ⟨rfl, Comparison.symbol_injective same, rest⟩

theorem findOutsideQuotes_of_cut_none (h : cut (quoteAfter c none) t = none) (op : Comparison) :
    findOutsideQuotes (c :: t) op.symbol 1 = none := by
  refine findOutsideQuotes_eq_none_iff.mpr fun j reached stands => ?_
  obtain ⟨left, rest, split, -, outside, begins⟩ := (standsOutside_cons reached).mp stands
  exact Comparison.at?_ne_none begins (seeks_cut.nothing 0 h split outside)

theorem cutAt_of_cut (h : cut (quoteAfter c none) t = some (left, op, after)) : CutAt (c :: t) (c :: left) op after := by
  obtain ⟨rest, rfl, outside, finds, least⟩ := seeks_cut.first 0 h
  obtain ⟨rfl, longest⟩ := Comparison.at?_eq_some_iff.mp finds
  have reached : 1 ≤ utf8Size (c :: left) := by
    have positive := c.utf8Size_pos
    rw [utf8Size_cons]
    omega
  have first {other : Comparison} {j : Nat} (reached : 1 ≤ j)
      (stands : StandsOutside other.symbol (c :: (left ++ (op.symbol ++ after))) j) : utf8Size (c :: left) ≤ j := by
    obtain ⟨left', rest', split, rfl, outside', begins⟩ := (standsOutside_cons reached).mp stands
    exact Nat.add_le_add_left (least left' rest' split outside' (Comparison.at?_ne_none begins)) _
  refine ⟨rfl, ⟨op, ?_⟩, fun other i found => ?_, longest⟩
  · refine findOutsideQuotes_eq_some_iff.mpr ⟨reached, ?_, fun _ => first⟩
    exact (standsOutside_cons reached).mpr ⟨left, _, rfl, rfl, outside, List.prefix_append _ _⟩
  · obtain ⟨reached, stands, -⟩ := findOutsideQuotes_first found
    exact first reached stands

theorem split?_cases (trimmed : t.trim = t) :
    (split? t = none ∧ ∀ op : Comparison, findOutsideQuotes t op.symbol 1 = none) ∨
    ∃ before op after, CutAt t before op after ∧
      split? t = if after.trim = [] then none else some (before.trim, op, after.trim) := by
  cases t with
  | nil => exact .inl ⟨rfl, fun _ => rfl⟩
  | cons c t =>
      cases found : cut (quoteAfter c none) t with
      | none => exact .inl ⟨by simp [split?, found], findOutsideQuotes_of_cut_none found⟩
      | some place =>
          obtain ⟨left, op, after⟩ := place
          have full : Text.trim (c :: t) ≠ [] := by
            rw [trimmed]
            exact List.cons_ne_nil c t
          obtain ⟨-, -, -, -, firm, -⟩ := exists_firm full
          obtain ⟨d, more, same, solid⟩ := firm.begins
          obtain ⟨rfl, -⟩ := List.cons.inj (trimmed.symm.trans same)
          refine .inr ⟨c :: left, op, after, cutAt_of_cut found, ?_⟩
          simp [split?, found, trim_ne_nil solid]

theorem CutAt.found_any (h : CutAt t before op after) :
    ¬ ∀ other : Comparison, findOutsideQuotes t other.symbol 1 = none := by
  intro missing
  obtain ⟨other, found⟩ := h.found
  rw [missing] at found
  cases found

theorem split?_eq_some_iff (trimmed : t.trim = t) {right : Text} :
    split? t = some (left, op, right) ↔
      ∃ before after, CutAt t before op after ∧ after.trim ≠ [] ∧ left = before.trim ∧ right = after.trim := by
  rcases split?_cases trimmed with ⟨none, missing⟩ | ⟨before, op', after, cut, gives⟩
  · rw [none]
    constructor
    · exact nofun
    · rintro ⟨before, after, cut, -⟩
      exact absurd missing cut.found_any
  · rw [gives]
    constructor
    · intro some
      split at some
      · cases some
      · rename_i full
        cases some
        exact ⟨before, after, cut, full, rfl, rfl⟩
    · rintro ⟨before', after', cut', full, rfl, rfl⟩
      obtain ⟨rfl, rfl, rfl⟩ := cut.unique cut'
      exact if_neg full

theorem split?_eq_none_iff (trimmed : t.trim = t) :
    split? t = none ↔ (∀ op : Comparison, findOutsideQuotes t op.symbol 1 = none) ∨
      ∃ before op after, CutAt t before op after ∧ after.trim = [] := by
  rcases split?_cases trimmed with ⟨none, missing⟩ | ⟨before, op, after, cut, gives⟩
  · exact iff_of_true none (.inl missing)
  · rw [gives]
    constructor
    · intro none
      split at none
      · rename_i blank
        exact .inr ⟨before, op, after, cut, blank⟩
      · cases none
    · rintro (missing | ⟨before', op', after', cut', blank⟩)
      · exact absurd missing cut.found_any
      · obtain ⟨-, -, rfl⟩ := cut.unique cut'
        exact if_pos blank

end

end Condition

/-! ## The marks of a ternary -/

theorem Expr.split?_eq_some_iff {t test yes no : Text} :
    split? t = some (test, yes, no) ↔
      ∃ before middle after : Text, t = before ++ '?' :: (middle ++ ':' :: after) ∧
        Text.findOutsideQuotes t ['?'] 1 = some (Text.utf8Size before) ∧
        Text.findOutsideQuotes t [':'] (Text.utf8Size (before ++ ['?'])) =
          some (Text.utf8Size (before ++ ['?']) + Text.utf8Size middle) ∧
        test = before.trim ∧ yes = middle.trim ∧ no = after.trim ∧ test ≠ [] ∧ yes ≠ [] ∧ no ≠ [] := by
  have behind {before : Text} (closed : Text.quoteBehind none before = none) :
      Text.quoteBehind none (before ++ ['?']) = none := by
    rw [Text.quoteBehind_append, closed]
    rfl
  have whole (before more : Text) : before ++ '?' :: more = (before ++ ['?']) ++ more := by simp
  constructor
  · intro h
    obtain ⟨⟨before, rest⟩, mark, h⟩ := Option.bind_eq_some_iff.mp h
    obtain ⟨⟨middle, rest'⟩, colon, kept⟩ := Option.bind_eq_some_iff.mp h
    obtain ⟨-, closed, more, rfl⟩ := Text.cutOutside_eq_some mark
    obtain ⟨-, -, after, rfl⟩ := Text.cutOutside_eq_some colon
    obtain ⟨rfl, found⟩ := Text.cutOutside_eq_some_iff.mp mark
    obtain ⟨split, found'⟩ := Text.cutOutside_eq_some_iff.mp colon
    obtain rfl : more = middle ++ ':' :: after := split
    simp only at kept
    split at kept
    · cases kept
    · rename_i full
      cases kept
      simp only [not_or] at full
      refine ⟨before, middle, after, rfl, found, ?_, rfl, rfl, rfl, full⟩
      rw [List.singleton_append, whole]
      exact (Text.findOutsideQuotes_behind (behind closed)).mpr found'
  · rintro ⟨before, middle, after, rfl, found, found', rfl, rfl, rfl, full⟩
    have mark := Text.cutOutside_eq_some_iff.mpr ⟨rfl, found⟩
    obtain ⟨-, closed, -⟩ := Text.cutOutside_eq_some mark
    rw [whole, Text.findOutsideQuotes_behind (behind closed)] at found'
    have colon := Text.cutOutside_eq_some_iff.mpr ⟨rfl, found'⟩
    simp [split?, mark, colon, full]

/--
The search for a needle finds the least byte from `start` on at which the needle begins outside the quotes of the whole
text, if there is any. The search for the operator of a comparison agrees with it: a trimmed text is cut at the least of
the bytes behind its first character at which the first search finds a symbol, at the longest symbol there, unless there
is no such byte or nothing but blanks behind the symbol.
-/
theorem searches_agree (source : Text) :
    (∀ t needle start,
      (∀ i, Text.findOutsideQuotes t needle start = some i ↔
        start ≤ i ∧ Text.StandsOutside needle t i ∧ ∀ j, start ≤ j → Text.StandsOutside needle t j → i ≤ j) ∧
      (Text.findOutsideQuotes t needle start = none ↔ ∀ j, start ≤ j → ¬ Text.StandsOutside needle t j)) ∧
    (∀ left op right, Condition.split? source.trim = some (left, op, right) ↔
      ∃ before after, Condition.CutAt source.trim before op after ∧ after.trim ≠ [] ∧
        left = before.trim ∧ right = after.trim) ∧
    (Condition.split? source.trim = none ↔
      (∀ op : Comparison, Text.findOutsideQuotes source.trim op.symbol 1 = none) ∨
        ∃ before op after, Condition.CutAt source.trim before op after ∧ after.trim = []) := by
  have trimmed := Text.trim_trim source
  refine ⟨fun t needle start => ⟨fun _ => ?_, ?_⟩, fun _ _ _ => ?_, ?_⟩
  · exact Text.findOutsideQuotes_eq_some_iff
  · exact Text.findOutsideQuotes_eq_none_iff
  · exact Condition.split?_eq_some_iff trimmed
  · exact Condition.split?_eq_none_iff trimmed

end TextTemplate
