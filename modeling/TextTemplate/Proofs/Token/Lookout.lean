import Mathlib.Data.List.Basic
import TextTemplate.Token.Lexer

namespace TextTemplate.Lexer

theorem search_cons (close c : Char) (t : Text) :
    search close (c :: t) = if c = close then some (t.length + 1) else search close t := by
  by_cases same : c = close <;> simp [search, same]

theorem search_append {close : Char} {before : Text} (fresh : close ∉ before) (behind : Text) :
    search close (before ++ close :: behind) = some (behind.length + 1) := by
  induction before with
  | nil => rw [List.nil_append, search_cons, if_pos rfl]
  | cons c before ih =>
      rw [List.mem_cons, not_or] at fresh
      rw [List.cons_append, search_cons, if_neg (Ne.symm fresh.1), ih fresh.2]

theorem search_eq_none {close : Char} {t : Text} (fresh : close ∉ t) : search close t = none := by
  induction t with
  | nil => rfl
  | cons c t ih =>
      rw [List.mem_cons, not_or] at fresh
      rw [search_cons, if_neg (Ne.symm fresh.1), ih fresh.2]

theorem search_suffix {close : Char} {whole body : Text} (part : body <:+ whole)
    (ahead : (search close whole).all (· ≤ body.length)) : search close body = search close whole := by
  induction whole with
  | nil => rw [List.suffix_nil.mp part]
  | cons c t ih =>
      rcases List.suffix_cons_iff.mp part with rfl | part
      · rfl
      · rw [search_cons] at ahead ⊢
        split at ahead
        · have := part.length_le
          simp only [Option.all_some, decide_eq_true_eq] at ahead
          omega
        · rw [if_neg ‹_›]
          exact ih part ahead

def Lookout.Holds (close : Char) (whole : Text) (lookout : Lookout) : Prop :=
  ∃ body, body <:+ whole ∧ body.length = lookout.searched ∧ lookout.found = search close body

theorem find_eq {close : Char} {whole body : Text} {last : Option Lookout} (holds : ∀ l ∈ last, l.Holds close whole)
    (part : body <:+ whole) :
    (Lookout.find close body body.length last).1 = search close body ∧
      ∀ l ∈ (Lookout.find close body body.length last).2, l.Holds close whole := by
  have fresh : ∀ l ∈ some (Lookout.mk body.length (search close body)), l.Holds close whole := by
    rintro _ ⟨⟩
    exact ⟨body, part, rfl, rfl⟩
  cases last with
  | none => exact ⟨rfl, fresh⟩
  | some lookout =>
      simp only [Lookout.find]
      split
      · rename_i still
        obtain ⟨earlier, part', searched, found⟩ := holds lookout rfl
        refine ⟨?_, holds⟩
        rw [found] at still ⊢
        exact (search_suffix (List.suffix_of_suffix_length_le part part' (by omega)) still.2).symm
      · exact ⟨rfl, fresh⟩

theorem enclosed_eq {close : Char} (suffix : Text) {whole body : Text} {last : Option Lookout}
    (holds : ∀ l ∈ last, l.Holds close whole) (part : body <:+ whole) :
    (enclosed close suffix body body.length last).1 = (enclosed close suffix body body.length none).1 ∧
      ∀ l ∈ (enclosed close suffix body body.length last).2, l.Holds close whole := by
  obtain ⟨same, holds'⟩ := find_eq holds part
  have plain : (Lookout.find close body body.length none).1 = search close body := rfl
  rcases found : Lookout.find close body body.length last with ⟨answer, after⟩
  rcases found' : Lookout.find close body body.length none with ⟨answer', after'⟩
  rw [found] at same holds'
  rw [found'] at plain
  obtain rfl : answer = answer' := same.trans plain.symm
  rw [enclosed, enclosed, found, found']
  cases answer with
  | none => exact ⟨rfl, holds'⟩
  | some at_ =>
      simp only
      split
      · exact ⟨rfl, holds'⟩
      · exact ⟨rfl, holds'⟩

structure Lookouts.Hold (whole : Text) (seen : Lookouts) : Prop where
  brace : ∀ l ∈ seen.brace, l.Holds '\x7d' whole
  paren : ∀ l ∈ seen.paren, l.Holds ')' whole

theorem Lookouts.Hold.nothing (whole : Text) : Lookouts.Hold whole ⟨none, none⟩ := ⟨nofun, nofun⟩

def tag? (t : Text) : Option (Lexeme × Text) := (tagAt t t.length ⟨none, none⟩).1

theorem word?_suffix {t name rest : Text} (h : word? t = some (name, rest)) : rest <:+ t := by
  rw [word?] at h
  split at h
  · cases h
  · cases h
    exact List.dropWhile_suffix _

theorem isPrefixOf?_suffix {opening t rest : Text} (h : opening.isPrefixOf? t = some rest) : rest <:+ t :=
  ⟨opening, List.isPrefixOf?_eq_some_iff_append_eq.mp h⟩

theorem letHead?_suffix {t name body : Text} (h : letHead? t = some (name, body)) : body <:+ t := by
  obtain ⟨first, opening, h⟩ := Option.bind_eq_some_iff.mp h
  obtain ⟨-, -, h⟩ := Option.bind_eq_some_iff.mp h
  obtain ⟨⟨word, second⟩, named, h⟩ := Option.bind_eq_some_iff.mp h
  obtain ⟨third, equals, h⟩ := Option.bind_eq_some_iff.mp h
  obtain ⟨fourth, brace, h⟩ := Option.bind_eq_some_iff.mp h
  cases h
  have fromThird : body <:+ third := (isPrefixOf?_suffix brace).trans (List.dropWhile_suffix _)
  have fromSecond : third <:+ second := (isPrefixOf?_suffix equals).trans (List.dropWhile_suffix _)
  have fromFirst : second <:+ first := (word?_suffix named).trans (List.dropWhile_suffix _)
  exact fromThird.trans (fromSecond.trans (fromFirst.trans (isPrefixOf?_suffix opening)))

theorem eq_of_isPrefixOf? {opening t rest : Text} (h : opening.isPrefixOf? t = some rest) : t = opening ++ rest :=
  (List.isPrefixOf?_eq_some_iff_append_eq.mp h).symm

/--
The tags whose end is searched for: what is at a place, the closing character, what must stand behind it, the text in
which it is looked for, and what the text before it and the rest are made into.
-/
inductive Searches : Text → Char → Text → Text → (Text × Text → Lexeme × Text) → Prop
  | interpolation (body : Text) :
      Searches ("$\x7b".toList ++ body) '\x7d' [] body fun found => (.interpolation found.1, found.2)
  | ifOpen (body : Text) : Searches ("<if(".toList ++ body) ')' ['>'] body fun found => (.ifOpen found.1, found.2)
  | elseIf (body : Text) : Searches ("<else-if(".toList ++ body) ')' ['>'] body fun found => (.elseIf found.1, found.2)
  | binding {t name body : Text} : letHead? t = some (name, body) →
      Searches t '\x7d' ['>'] body fun found => (.binding name found.1, found.2.dropFirstBreak)

theorem Searches.suffix {t suffix body : Text} {close : Char} {made : Text × Text → Lexeme × Text}
    (h : Searches t close suffix body made) : body <:+ t := by
  cases h with
  | interpolation => exact List.suffix_append _ _
  | ifOpen => exact List.suffix_append _ _
  | elseIf => exact List.suffix_append _ _
  | binding head => exact letHead?_suffix head

inductive Fixed : Lexeme → Text → Prop
  | forClose : Fixed .forClose "</for>".toList
  | ifClose : Fixed .ifClose "</if>".toList
  | otherwise : Fixed .otherwise "<else>".toList

/-- What can be done at a place, for whatever was searched before. -/
inductive Way (t : Text) : (Lookouts → Option (Lexeme × Text) × Lookouts) → Prop
  | fixed {l : Lexeme} {raw rest : Text} : Fixed l raw → t = raw ++ rest → Way t fun seen => (some (l, rest), seen)
  | loop {tag : Lexeme × Text} : for? t = some tag → Way t fun seen => (some tag, seen)
  | brace {suffix body : Text} {made : Text × Text → Lexeme × Text} : Searches t '\x7d' suffix body made →
      Way t fun seen => ((enclosed '\x7d' suffix body body.length seen.brace).1.map made,
        { seen with brace := (enclosed '\x7d' suffix body body.length seen.brace).2 })
  | paren {suffix body : Text} {made : Text × Text → Lexeme × Text} : Searches t ')' suffix body made →
      Way t fun seen => ((enclosed ')' suffix body body.length seen.paren).1.map made,
        { seen with paren := (enclosed ')' suffix body body.length seen.paren).2 })
  | nothing : Way t fun seen => (none, seen)

theorem tagAt_of_named {t : Text}
    (h : ∀ opening ∈ ["$\x7b", "</for>", "</if>", "<else>", "<if(", "<else-if("], opening.toList.isPrefixOf? t = none)
    (left : Nat) (seen : Lookouts) :
    tagAt t left seen =
      match for? t, letHead? t with
      | some tag, _ => (some tag, seen)
      | none, some (name, body) =>
          ((enclosed '\x7d' ['>'] body body.length seen.brace).1.map fun found =>
              (.binding name found.1, found.2.dropFirstBreak),
            { seen with brace := (enclosed '\x7d' ['>'] body body.length seen.brace).2 })
      | none, none => (none, seen) := by
  simp only [List.forall_mem_cons] at h
  obtain ⟨interpolation, forClose, ifClose, otherwise, ifOpen, elseIf, -⟩ := h
  rw [tagAt, interpolation, forClose, ifClose, otherwise, ifOpen, elseIf]
  cases for? t with
  | some tag => rfl
  | none => cases letHead? t <;> rfl

theorem way_of_named {t : Text}
    (h : ∀ opening ∈ ["$\x7b", "</for>", "</if>", "<else>", "<if(", "<else-if("],
      opening.toList.isPrefixOf? t = none) :
    Way t (tagAt t t.length) := by
  rw [funext (tagAt_of_named h t.length)]
  cases loop : for? t with
  | some tag => exact .loop loop
  | none =>
      cases head : letHead? t with
      | some found => exact .brace (.binding head)
      | none => exact .nothing

theorem tagAt_way (t : Text) : Way t (tagAt t t.length) := by
  cases interpolation : "$\x7b".toList.isPrefixOf? t with
  | some body =>
      rw [eq_of_isPrefixOf? interpolation]
      exact .brace (.interpolation body)
  | none =>
  cases forClose : "</for>".toList.isPrefixOf? t with
  | some rest =>
      rw [eq_of_isPrefixOf? forClose]
      exact .fixed .forClose rfl
  | none =>
  cases ifClose : "</if>".toList.isPrefixOf? t with
  | some rest =>
      rw [eq_of_isPrefixOf? ifClose]
      exact .fixed .ifClose rfl
  | none =>
  cases otherwise : "<else>".toList.isPrefixOf? t with
  | some rest =>
      rw [eq_of_isPrefixOf? otherwise]
      exact .fixed .otherwise rfl
  | none =>
  cases ifOpen : "<if(".toList.isPrefixOf? t with
  | some body =>
      rw [eq_of_isPrefixOf? ifOpen]
      exact .paren (.ifOpen body)
  | none =>
  cases elseIf : "<else-if(".toList.isPrefixOf? t with
  | some body =>
      rw [eq_of_isPrefixOf? elseIf]
      exact .paren (.elseIf body)
  | none =>
  refine way_of_named ?_
  simp only [List.forall_mem_cons]
  exact ⟨interpolation, forClose, ifClose, otherwise, ifOpen, elseIf, List.forall_mem_nil _⟩

theorem tagAt_eq {t whole : Text} {seen : Lookouts} (hold : seen.Hold whole) (part : t <:+ whole) :
    (tagAt t t.length seen).1 = tag? t ∧ (tagAt t t.length seen).2.Hold whole := by
  have way := tagAt_way t
  unfold tag?
  generalize tagAt t t.length = answer at way ⊢
  cases way with
  | fixed => exact ⟨rfl, hold⟩
  | loop => exact ⟨rfl, hold⟩
  | brace search =>
      obtain ⟨same, holds⟩ := enclosed_eq _ hold.brace (search.suffix.trans part)
      exact ⟨congrArg (Option.map _) same, holds, hold.paren⟩
  | paren search =>
      obtain ⟨same, holds⟩ := enclosed_eq _ hold.paren (search.suffix.trans part)
      exact ⟨congrArg (Option.map _) same, hold.brace, holds⟩
  | nothing => exact ⟨rfl, hold⟩

def cut (t : Text) : List Piece := pieces 0 t.length ⟨none, none⟩ t

theorem pieces_eq {whole whole' : Text} {t : Text} {seen seen' : Lookouts} (hold : seen.Hold whole)
    (hold' : seen'.Hold whole') (part : t <:+ whole) (part' : t <:+ whole') (inside : Nat) :
    pieces inside t.length seen t = pieces inside t.length seen' t := by
  induction t generalizing inside seen seen' with
  | nil => cases inside <;> rfl
  | cons c rest ih =>
      have next := (List.suffix_cons c rest).trans part
      have next' := (List.suffix_cons c rest).trans part'
      have shorter : (c :: rest).length - 1 = rest.length := rfl
      cases inside with
      | succ inside =>
          rw [pieces, pieces, shorter]
          exact ih hold hold' next next' inside
      | zero =>
          -- What is remembered is true of either text, so both give the tag that is found without it.
          obtain ⟨same, after⟩ := tagAt_eq hold part
          obtain ⟨same', after'⟩ := tagAt_eq hold' part'
          rw [pieces, pieces, shorter]
          rcases first : tagAt (c :: rest) (c :: rest).length seen with ⟨found, later⟩
          rcases second : tagAt (c :: rest) (c :: rest).length seen' with ⟨found', later'⟩
          rw [first] at same after
          rw [second] at same' after'
          obtain rfl : found = found' := same.trans same'.symm
          cases found with
          | none => exact congrArg _ (ih after after' next next' 0)
          | some tag => exact congrArg _ (ih after after' next next' _)

theorem pieces_eq_cut {whole t : Text} {seen : Lookouts} (hold : seen.Hold whole) (part : t <:+ whole) :
    pieces 0 t.length seen t = cut t :=
  pieces_eq hold (.nothing t) part List.suffix_rfl 0

theorem cut_of_char {c : Char} {rest : Text} (plain : tag? (c :: rest) = none) :
    cut (c :: rest) = .char c :: cut rest := by
  obtain ⟨same, after⟩ := tagAt_eq (.nothing (c :: rest)) List.suffix_rfl
  rw [cut, pieces]
  rcases found : tagAt (c :: rest) (c :: rest).length ⟨none, none⟩ with ⟨tag, later⟩
  rw [found] at same after
  obtain rfl : tag = none := same.trans plain
  exact congrArg _ (pieces_eq_cut after (List.suffix_cons c rest))

theorem pieces_skip (seen : Lookouts) {left : Nat} (raw behind : Text) (size : left = raw.length + behind.length) :
    pieces raw.length left seen (raw ++ behind) = pieces 0 behind.length seen behind := by
  induction raw generalizing left with
  | nil => rw [size, List.length_nil, Nat.zero_add, List.nil_append]
  | cons c raw ih =>
      rw [List.length_cons, List.cons_append, pieces]
      exact ih (by simp only [size, List.length_cons]; omega)

theorem cut_of_tag {t raw behind : Text} {l : Lexeme} (found : tag? t = some (l, behind)) (split : t = raw ++ behind)
    (full : raw ≠ []) : cut t = .tag l raw :: cut behind := by
  obtain ⟨c, raw, rfl⟩ := List.exists_cons_of_ne_nil full
  subst split
  obtain ⟨same, after⟩ := tagAt_eq (.nothing (c :: raw ++ behind)) List.suffix_rfl
  rw [cut, List.cons_append, pieces, ← List.cons_append]
  rcases at_ : tagAt (c :: raw ++ behind) (c :: raw ++ behind).length ⟨none, none⟩ with ⟨tag, later⟩
  rw [at_] at same after
  obtain rfl : tag = some (l, behind) := same.trans found
  have size : (c :: raw ++ behind).length - behind.length = (c :: raw).length := by
    rw [List.length_append, Nat.add_sub_cancel]
  have less : (c :: raw ++ behind).length - 1 = raw.length + behind.length := by simp
  have rest := pieces_skip later raw behind less
  rw [pieces_eq_cut after (List.suffix_append (c :: raw) behind)] at rest
  simp only [size, List.take_left]
  exact congrArg _ rest

end TextTemplate.Lexer
