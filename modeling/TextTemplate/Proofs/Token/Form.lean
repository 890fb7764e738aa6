import Mathlib.Data.List.TakeWhile
import Mathlib.Data.Option.Basic
import TextTemplate.Proofs.Token.Lookout

/-!
# The forms of tags

A tag can be written in more than one way: with blanks at certain places, with quotes around the path of a loop, with a
line break behind a binding. `Lexeme.Form` says which, of characters alone: a body ends at the first closing character
because it holds none, and nothing is said of how it is searched for. Each reader of a part has a lemma for either
direction: what it reads off a part that is written, and what is written where it reads something.
-/

namespace TextTemplate

namespace Text.CharClass

theorem within_apart {r s : List (Nat × Nat)}
    (apart : (r.all fun a => s.all fun b => a.2.blt b.1 || b.2.blt a.1) = true) {c : Char} (h : within r c = true) :
    within s c = false := by
  rw [Bool.eq_false_iff]
  intro h'
  simp only [within, List.any_eq_true, Bool.and_eq_true, decide_eq_true_eq] at h h'
  obtain ⟨a, member, low, high⟩ := h
  obtain ⟨b, member', low', high'⟩ := h'
  have less := List.all_eq_true.mp (List.all_eq_true.mp apart a member) b member'
  rw [Bool.or_eq_true, Nat.blt_eq, Nat.blt_eq] at less
  rcases less with less | less <;> omega

theorem within_of_within {r s : List (Nat × Nat)}
    (inside : (r.all fun a => s.any fun b => b.1.ble a.1 && a.2.ble b.2) = true) {c : Char} (h : within r c = true) :
    within s c = true := by
  simp only [within, List.any_eq_true, Bool.and_eq_true, decide_eq_true_eq] at h ⊢
  obtain ⟨a, member, low, high⟩ := h
  obtain ⟨b, member', wider⟩ := List.any_eq_true.mp (List.all_eq_true.mp inside a member)
  rw [Bool.and_eq_true, Nat.ble_eq, Nat.ble_eq] at wider
  exact ⟨b, member', wider.1.trans low, high.trans wider.2⟩

theorem not_mem_of_class {p : Char → Bool} {avoid : List Char} (apart : (avoid.all fun d => !p d) = true) {c : Char}
    (h : p c = true) : c ∉ avoid := by
  intro member
  have other := List.all_eq_true.mp apart c member
  rw [h] at other
  cases other

def ascii : List (Nat × Nat) := [('A'.toNat, 'Z'.toNat), ('a'.toNat, 'z'.toNat), ('0'.toNat, '9'.toNat)]

theorem isAlphanum_eq_within (c : Char) : c.isAlphanum = within ascii c := by
  have letter : c.isAlphanum = (decide ('A'.val ≤ c.val ∧ c.val ≤ 'Z'.val) ||
      ('a'.val ≤ c.val && c.val ≤ 'z'.val) || ('0'.val ≤ c.val && c.val ≤ '9'.val)) := rfl
  rw [Bool.eq_iff_iff, letter]
  simp only [within, ascii, UInt32.le_iff_toNat_le, Bool.or_eq_true, Bool.and_eq_true, decide_eq_true_eq, List.any_cons,
    List.any_nil, Bool.false_eq_true, or_false, or_assoc]
  rfl

theorem isAlphanumeric_eq_within (c : Char) : isAlphanumeric c = within (ascii ++ Ranges.alphanumeric) c := by
  rw [isAlphanumeric, isAlphanum_eq_within, within, within, within, List.any_append]

theorem isWord_eq_within (c : Char) :
    isWord c = within (ascii ++ ('_'.toNat, '_'.toNat) :: Ranges.word) c := by
  have line : c = '_' ↔ '_'.toNat ≤ c.toNat ∧ c.toNat ≤ '_'.toNat := by
    rw [← Char.toNat_inj]
    omega
  rw [Bool.eq_iff_iff, isWord, isAlphanum_eq_within, within, within, within, List.any_append, List.any_cons]
  simp only [Bool.or_eq_true, Bool.and_eq_true, decide_eq_true_eq, line, or_assoc]

theorem isBlank_eq_within (c : Char) :
    isBlank c = within ((' '.toNat, ' '.toNat) :: ('\t'.toNat, '\r'.toNat) :: Ranges.blank) c := by
  have space : c = ' ' ↔ ' '.toNat ≤ c.toNat ∧ c.toNat ≤ ' '.toNat := by
    rw [← Char.toNat_inj]
    omega
  rw [Bool.eq_iff_iff]
  simp only [isBlank, within, Char.le_def, UInt32.le_iff_toNat_le, Bool.or_eq_true, Bool.and_eq_true,
    decide_eq_true_eq, List.any_cons, space, or_assoc]
  rfl

theorem isBlank_of_isWord {c : Char} (h : isWord c = true) : isBlank c = false := by
  rw [isWord_eq_within] at h
  rw [isBlank_eq_within]
  exact within_apart (by decide +kernel) h

theorem isAlphanumeric_of_isDigit {c : Char} (h : isDigit c = true) : isAlphanumeric c = true := by
  rw [isDigit, Bool.or_eq_true] at h
  rw [isAlphanumeric, Bool.or_eq_true]
  rcases h with ascii | other
  · exact .inl (by simp [Char.isAlphanum, ascii])
  · exact .inr (within_of_within (by decide +kernel) other)

end Text.CharClass

open Text.CharClass

/-! ## The parts of tags -/

def IsName (t : Text) : Prop := t ≠ [] ∧ ∀ c ∈ t, isWord c = true

instance (t : Text) : Decidable (IsName t) :=
  decidable_of_decidable_of_iff (p := t ≠ [] ∧ t.all isWord = true) (by simp [IsName])

inductive IsSegments : Text → Prop
  | nil : IsSegments []
  | key {name rest : Text} : IsName name → IsSegments rest → IsSegments ('.' :: (name ++ rest))
  | index {digits rest : Text} : digits ≠ [] → (∀ c ∈ digits, isDigit c = true) → IsSegments rest →
      IsSegments ('[' :: (digits ++ ']' :: rest))

def IsPath (t : Text) : Prop := ∃ name segments, IsName name ∧ IsSegments segments ∧ t = name ++ segments

def IsBlanks (t : Text) : Prop := ∀ c ∈ t, isBlank c = true

instance (t : Text) : Decidable (IsBlanks t) :=
  decidable_of_decidable_of_iff (p := t.all isBlank = true) (by simp [IsBlanks])

theorem isBlanks_nil : IsBlanks [] := nofun

def IsQuote (t : Text) : Prop := t = [] ∨ t = ['"'] ∨ t = ['\'']

def IsBody (close : Char) (body : Text) : Prop := body ≠ [] ∧ close ∉ body

inductive IsNames : Option Text → Text → Text → Prop
  | item {item : Text} : IsName item → IsNames none item item
  | indexed {index gap item : Text} : IsName index → IsBlanks gap → IsName item →
      IsNames (some index) item (index ++ ',' :: (gap ++ item))

/-- The line break that a binding takes with it from the text behind its tag, if there is one. -/
inductive TakesBreak : Text → Text → Prop
  | pair (rest : Text) : TakesBreak ['\r', '\n'] rest
  | single (rest : Text) : TakesBreak ['\n'] rest
  | nothing {rest : Text} : (∀ more, rest ≠ '\r' :: '\n' :: more) → (∀ more, rest ≠ '\n' :: more) → TakesBreak [] rest

/-- The ways to write a tag with `rest` behind it. -/
inductive Lexeme.Form : Lexeme → Text → Text → Prop
  | interpolation {source rest : Text} : IsBody '\x7d' source →
      Form (.interpolation source) ("$\x7b".toList ++ (source ++ ['\x7d'])) rest
  | forOpen {index : Option Text} {item path gap names space opening closing rest : Text} :
      IsBlanks gap → IsNames index item names → IsBlanks space → space ≠ [] → IsQuote opening → IsPath path →
      IsQuote closing →
      Form (.forOpen index item path)
        ("<for".toList ++ (gap ++ '|' :: (names ++
          '|' :: (space ++ ("of=".toList ++ (opening ++ (path ++ (closing ++ ['>'])))))))) rest
  | forClose {rest : Text} : Form .forClose "</for>".toList rest
  | ifOpen {condition rest : Text} : IsBody ')' condition →
      Form (.ifOpen condition) ("<if(".toList ++ (condition ++ ")>".toList)) rest
  | elseIf {condition rest : Text} : IsBody ')' condition →
      Form (.elseIf condition) ("<else-if(".toList ++ (condition ++ ")>".toList)) rest
  | otherwise {rest : Text} : Form .otherwise "<else>".toList rest
  | ifClose {rest : Text} : Form .ifClose "</if>".toList rest
  | binding {name expression space gap gap' taken rest : Text} :
      IsBlanks space → space ≠ [] → IsName name → IsBlanks gap → IsBlanks gap' → IsBody '\x7d' expression →
      TakesBreak taken rest →
      Form (.binding name expression)
        ("<let".toList ++ (space ++ (name ++ (gap ++ '=' :: (gap' ++ ("$\x7b".toList ++ (expression ++
          ("\x7d>".toList ++ taken)))))))) rest

namespace Lexer

theorem isPrefixOf?_append (opening t : Text) : opening.isPrefixOf? (opening ++ t) = some t :=
  List.isPrefixOf?_eq_some_iff_append_eq.mpr rfl

theorem isPrefixOf?_cons (c : Char) (t : Text) : [c].isPrefixOf? (c :: t) = some t := isPrefixOf?_append [c] t

theorem exists_blanks (t : Text) : ∃ blanks, IsBlanks blanks ∧ t = blanks ++ t.dropWhile isBlank :=
  ⟨t.takeWhile isBlank, fun _ => List.mem_takeWhile_imp, List.takeWhile_append_dropWhile.symm⟩

theorem of_guard {p : Prop} [Decidable p] (h : (guard p : Option Unit) = some ()) : p := by
  by_contra fails
  rw [guard, if_neg fails] at h
  cases h

theorem exists_blanks_of_head {t : Text} (h : t.head?.map isBlank = some true) :
    ∃ blanks, IsBlanks blanks ∧ blanks ≠ [] ∧ t = blanks ++ t.dropWhile isBlank := by
  obtain ⟨c, first, blank⟩ := Option.map_eq_some_iff.mp h
  obtain ⟨rest, rfl⟩ := List.head?_eq_some_iff.mp first
  refine ⟨(c :: rest).takeWhile isBlank, fun _ => List.mem_takeWhile_imp, ?_, List.takeWhile_append_dropWhile.symm⟩
  rw [List.takeWhile_cons_of_pos blank]
  exact List.cons_ne_nil _ _

theorem head_of_blanks {blanks : Text} (h : IsBlanks blanks) (full : blanks ≠ []) (rest : Text) :
    (blanks ++ rest).head?.map isBlank = some true := by
  obtain ⟨c, more, rfl⟩ := List.exists_cons_of_ne_nil full
  simp [h c List.mem_cons_self]

theorem dropWhile_blanks {blanks : Text} (h : IsBlanks blanks) {c : Char} (solid : isBlank c = false) (rest : Text) :
    (blanks ++ c :: rest).dropWhile isBlank = c :: rest := by
  rw [List.dropWhile_append_of_pos h, List.dropWhile_cons_of_neg (by simp [solid])]

theorem dropWhile_blanks_name {blanks name : Text} (h : IsBlanks blanks) (named : IsName name) (rest : Text) :
    (blanks ++ (name ++ rest)).dropWhile isBlank = name ++ rest := by
  obtain ⟨c, more, rfl⟩ := List.exists_cons_of_ne_nil named.1
  exact dropWhile_blanks h (isBlank_of_isWord (named.2 c List.mem_cons_self)) _

def Apart (t : Text) : Prop := ∀ c rest, t = c :: rest → isWord c = false

theorem Apart.cons {c : Char} (h : isWord c = false) (rest : Text) : Apart (c :: rest) := by
  rintro _ _ ⟨⟩
  exact h

theorem word?_append {name rest : Text} (h : IsName name) (apart : Apart rest) :
    word? (name ++ rest) = some (name, rest) := by
  have stop : rest.takeWhile isWord = [] ∧ rest.dropWhile isWord = rest := by
    cases rest with
    | nil => exact ⟨rfl, rfl⟩
    | cons c rest => simp [apart c rest rfl]
  rw [word?, List.takeWhile_append_of_pos h.2, List.dropWhile_append_of_pos h.2, stop.1, stop.2, List.append_nil,
    if_neg h.1]

theorem word?_eq_some {t name rest : Text} (h : word? t = some (name, rest)) : IsName name ∧ t = name ++ rest := by
  rw [word?] at h
  split at h
  · cases h
  · rename_i full
    cases h
    exact ⟨⟨full, fun _ => List.mem_takeWhile_imp⟩, List.takeWhile_append_dropWhile.symm⟩

theorem segments_apart {segments rest : Text} (h : IsSegments segments) (apart : Apart rest) :
    Apart (segments ++ rest) := by
  cases h with
  | nil => exact apart
  | key => exact .cons (by decide +kernel) _
  | index => exact .cons (by decide +kernel) _

theorem segment?_key {name rest : Text} (h : IsName name) (apart : Apart rest) :
    segment? ('.' :: (name ++ rest)) = some rest := by
  rw [segment?, word?_append h apart]
  rfl

theorem segment?_index {digits : Text} (full : digits ≠ []) (h : ∀ c ∈ digits, isDigit c = true) (rest : Text) :
    segment? ('[' :: (digits ++ ']' :: rest)) = some rest := by
  have closes : isDigit ']' = false := by decide +kernel
  rw [segment?, List.takeWhile_append_of_pos h, List.dropWhile_append_of_pos h,
    List.takeWhile_cons_of_neg (by simp [closes]), List.dropWhile_cons_of_neg (by simp [closes]), List.append_nil,
    if_neg full]
  rfl

theorem segment?_eq_some {t rest : Text} (h : segment? t = some rest) :
    ∃ part, t = part ++ rest ∧ ∀ more, IsSegments more → IsSegments (part ++ more) := by
  rw [segment?.eq_def] at h
  split at h
  · rename_i behind
    obtain ⟨⟨name, _⟩, word, rfl⟩ := Option.map_eq_some_iff.mp h
    obtain ⟨named, rfl⟩ := word?_eq_some word
    exact ⟨'.' :: name, rfl, fun more => .key named⟩
  · rename_i behind
    split at h
    · cases h
    · rename_i full
      have digits : ∀ c ∈ behind.takeWhile isDigit, isDigit c = true := fun _ => List.mem_takeWhile_imp
      have split : behind = behind.takeWhile isDigit ++ ']' :: rest := by
        conv_lhs => rw [← List.takeWhile_append_dropWhile (p := isDigit) (l := behind), eq_of_isPrefixOf? h]
        rfl
      refine ⟨'[' :: (behind.takeWhile isDigit ++ [']']), ?_, fun more parts => ?_⟩
      · rw [List.cons_append, List.append_assoc, List.singleton_append, ← split]
      · rw [List.cons_append, List.append_assoc, List.singleton_append]
        exact .index full digits parts
  · cases h

theorem dropSegments_append {segments rest : Text} (h : IsSegments segments) (apart : Apart rest)
    (last : segment? rest = none) {limit : Nat} (enough : segments.length ≤ limit) :
    dropSegments limit (segments ++ rest) = rest := by
  induction h generalizing limit with
  | nil =>
      cases limit with
      | zero => rfl
      | succ limit => rw [List.nil_append, dropSegments, last]
  | key name more ih =>
      cases limit with
      | zero => simp at enough
      | succ limit =>
          simp only [List.length_cons, List.length_append] at enough
          rw [List.cons_append, List.append_assoc, dropSegments, segment?_key name (segments_apart more apart)]
          exact ih (by omega)
  | index full digits more ih =>
      cases limit with
      | zero => simp at enough
      | succ limit =>
          simp only [List.length_cons, List.length_append] at enough
          rw [List.cons_append, List.append_assoc, List.cons_append, dropSegments, segment?_index full digits]
          exact ih (by omega)

theorem exists_segments (limit : Nat) (t : Text) :
    ∃ segments, IsSegments segments ∧ t = segments ++ dropSegments limit t := by
  induction limit generalizing t with
  | zero => exact ⟨[], .nil, rfl⟩
  | succ limit ih =>
      rw [dropSegments]
      split
      · rename_i rest read
        obtain ⟨part, split, extend⟩ := segment?_eq_some read
        obtain ⟨segments, parts, same⟩ := ih rest
        refine ⟨part ++ segments, extend segments parts, ?_⟩
        rw [List.append_assoc, ← same]
        exact split
      · exact ⟨[], .nil, rfl⟩

theorem path?_append {path rest : Text} (h : IsPath path) (apart : Apart rest) (last : segment? rest = none) :
    path? (path ++ rest) = some (path, rest) := by
  obtain ⟨name, segments, named, parts, rfl⟩ := h
  have size : (name ++ (segments ++ rest)).length - rest.length = (name ++ segments).length := by
    simp only [List.length_append]
    omega
  have dropped : dropSegments (segments ++ rest).length (segments ++ rest) = rest :=
    dropSegments_append parts apart last (by simp)
  rw [path?, List.append_assoc, word?_append named (segments_apart parts apart), Option.bind_eq_bind, Option.bind_some]
  simp only
  rw [dropped, size, ← List.append_assoc, List.take_left]
  rfl

theorem path?_eq_some {t path rest : Text} (h : path? t = some (path, rest)) : IsPath path ∧ t = path ++ rest := by
  obtain ⟨⟨name, behind⟩, word, h⟩ := Option.bind_eq_some_iff.mp h
  obtain ⟨named, rfl⟩ := word?_eq_some word
  obtain ⟨segments, parts, split⟩ := exists_segments behind.length behind
  simp only at h
  generalize dropSegments behind.length behind = left at h split
  subst split
  have size : (name ++ (segments ++ left)).length - left.length = (name ++ segments).length := by
    simp only [List.length_append]
    omega
  rw [size, ← List.append_assoc, List.take_left] at h
  cases h
  exact ⟨⟨name, segments, named, parts, rfl⟩, (List.append_assoc _ _ _).symm⟩

theorem exists_quote (t : Text) : ∃ quote, IsQuote quote ∧ t = quote ++ dropQuote t := by
  cases t with
  | nil => exact ⟨[], .inl rfl, rfl⟩
  | cons c rest =>
      rw [dropQuote]
      split
      · rename_i mark
        refine ⟨[c], ?_, rfl⟩
        rcases mark with rfl | rfl
        · exact .inr (.inl rfl)
        · exact .inr (.inr rfl)
      · exact ⟨[], .inl rfl, rfl⟩

theorem dropQuote_append {quote : Text} (h : IsQuote quote) {c : Char} (plain : c ≠ '"' ∧ c ≠ '\'') (rest : Text) :
    dropQuote (quote ++ c :: rest) = c :: rest := by
  rcases h with rfl | rfl | rfl
  · rw [List.nil_append, dropQuote, if_neg (not_or.mpr plain)]
  · rfl
  · rfl

theorem dropQuote_path {quote path : Text} (h : IsQuote quote) (named : IsPath path) (rest : Text) :
    dropQuote (quote ++ (path ++ rest)) = path ++ rest := by
  obtain ⟨name, segments, named, -, rfl⟩ := named
  obtain ⟨c, more, rfl⟩ := List.exists_cons_of_ne_nil named.1
  have word := named.2 c List.mem_cons_self
  refine dropQuote_append h ⟨?_, ?_⟩ _
  · rintro rfl
    exact absurd word (by decide +kernel)
  · rintro rfl
    exact absurd word (by decide +kernel)

theorem quote_ends {quote : Text} (h : IsQuote quote) (rest : Text) :
    Apart (quote ++ '>' :: rest) ∧ segment? (quote ++ '>' :: rest) = none := by
  rcases h with rfl | rfl | rfl <;> exact ⟨.cons (by decide +kernel) _, rfl⟩

theorem forTail?_append {index : Option Text} {item path space opening closing : Text} (blank : IsBlanks space)
    (full : space ≠ []) (opens : IsQuote opening) (h : IsPath path) (closes : IsQuote closing) (rest : Text) :
    forTail? index item
        ('|' :: (space ++ ("of=".toList ++ (opening ++ (path ++ (closing ++ '>' :: rest)))))) =
      some (.forOpen index item path, rest) := by
  obtain ⟨apart, last⟩ := quote_ends closes rest
  have of : (space ++ ("of=".toList ++ (opening ++ (path ++ (closing ++ '>' :: rest))))).dropWhile isBlank =
      "of=".toList ++ (opening ++ (path ++ (closing ++ '>' :: rest))) :=
    dropWhile_blanks blank (by decide +kernel) _
  rw [forTail?, isPrefixOf?_cons]
  simp only [Option.bind_eq_bind, Option.bind_some]
  rw [head_of_blanks blank full, of, isPrefixOf?_append, Option.bind_some, dropQuote_path opens h,
    path?_append h apart last, Option.bind_some]
  simp only
  rw [dropQuote_append closes (by decide), isPrefixOf?_cons]
  rfl

theorem forTail?_eq_some {index : Option Text} {item t rest : Text} {l : Lexeme}
    (h : forTail? index item t = some (l, rest)) :
    ∃ path space opening closing, l = .forOpen index item path ∧ IsBlanks space ∧ space ≠ [] ∧ IsQuote opening ∧
      IsPath path ∧ IsQuote closing ∧
      t = '|' :: (space ++ ("of=".toList ++ (opening ++ (path ++ (closing ++ '>' :: rest))))) := by
  obtain ⟨first, bar, h⟩ := Option.bind_eq_some_iff.mp h
  obtain ⟨⟨⟩, apart, h⟩ := Option.bind_eq_some_iff.mp h
  obtain ⟨second, of, h⟩ := Option.bind_eq_some_iff.mp h
  obtain ⟨⟨path, third⟩, read, h⟩ := Option.bind_eq_some_iff.mp h
  obtain ⟨fourth, ends, h⟩ := Option.bind_eq_some_iff.mp h
  cases h
  obtain ⟨space, blank, full, behindBar⟩ := exists_blanks_of_head (of_guard apart)
  obtain ⟨opening, opens, behindOf⟩ := exists_quote second
  obtain ⟨isPath, behindQuote⟩ := path?_eq_some read
  obtain ⟨closing, closes, behindPath⟩ := exists_quote third
  refine ⟨path, space, opening, closing, rfl, blank, full, opens, isPath, closes, ?_⟩
  rw [eq_of_isPrefixOf? ends] at behindPath
  rw [behindQuote, behindPath] at behindOf
  rw [eq_of_isPrefixOf? of, behindOf] at behindBar
  rw [eq_of_isPrefixOf? bar, behindBar]
  rfl

theorem for?_append {index : Option Text} {item names gap t rest : Text} {l : Lexeme} (blank : IsBlanks gap)
    (named : IsNames index item names) (tail : forTail? index item ('|' :: t) = some (l, rest)) :
    for? ("<for".toList ++ (gap ++ '|' :: (names ++ '|' :: t))) = some (l, rest) := by
  have bar (t : Text) : (gap ++ '|' :: t).dropWhile isBlank = '|' :: t := dropWhile_blanks blank (by decide +kernel) t
  have apart (c : Char) (solid : isWord c = false) (t : Text) : Apart (c :: t) := .cons solid t
  rw [for?, isPrefixOf?_append]
  simp only [Option.bind_eq_bind, Option.bind_some]
  rw [bar, isPrefixOf?_cons, Option.bind_some]
  cases named with
  | item named =>
      rw [word?_append named (apart '|' (by decide +kernel) t)]
      exact tail
  | @indexed index gap' item first blank' second =>
      rw [List.append_assoc, List.cons_append, List.append_assoc,
        word?_append first (apart ',' (by decide +kernel) _)]
      simp only [Option.bind_some]
      rw [dropWhile_blanks_name blank' second, word?_append second (apart '|' (by decide +kernel) t)]
      exact tail

theorem for?_eq_some {t rest : Text} {l : Lexeme} (h : for? t = some (l, rest)) :
    ∃ raw, t = raw ++ rest ∧ l.Form raw rest := by
  obtain ⟨first, opening, h⟩ := Option.bind_eq_some_iff.mp h
  obtain ⟨second, bar, h⟩ := Option.bind_eq_some_iff.mp h
  obtain ⟨⟨name, third⟩, word, h⟩ := Option.bind_eq_some_iff.mp h
  obtain ⟨gap, blank, behindFor⟩ := exists_blanks first
  obtain ⟨named, behindBar⟩ := word?_eq_some word
  have whole : t = "<for".toList ++ (gap ++ '|' :: (name ++ third)) := by
    rw [eq_of_isPrefixOf? opening, behindFor, eq_of_isPrefixOf? bar, behindBar]
    rfl
  simp only at h
  split at h
  · rename_i fourth
    obtain ⟨⟨item, fifth⟩, word', h⟩ := Option.bind_eq_some_iff.mp h
    obtain ⟨gap', blank', behindComma⟩ := exists_blanks fourth
    obtain ⟨named', behindGap⟩ := word?_eq_some word'
    obtain ⟨path, space, opening, closing, rfl, blank'', full, opens, isPath, closes, rfl⟩ := forTail?_eq_some h
    refine ⟨_, ?_, .forOpen blank (.indexed named blank' named') blank'' full opens isPath closes⟩
    rw [whole, behindComma, behindGap]
    simp
  · obtain ⟨path, space, opening, closing, rfl, blank', full, opens, isPath, closes, rfl⟩ := forTail?_eq_some h
    refine ⟨_, ?_, .forOpen blank (.item named) blank' full opens isPath closes⟩
    rw [whole]
    simp

theorem letHead?_append {space name gap gap' : Text} (blank : IsBlanks space) (full : space ≠ []) (named : IsName name)
    (blank' : IsBlanks gap) (blank'' : IsBlanks gap') (body : Text) :
    letHead? ("<let".toList ++ (space ++ (name ++ (gap ++ '=' :: (gap' ++ ("$\x7b".toList ++ body)))))) =
      some (name, body) := by
  have apart : Apart (gap ++ '=' :: (gap' ++ ("$\x7b".toList ++ body))) := by
    cases gap with
    | nil => exact .cons (by decide +kernel) _
    | cons c more =>
        refine .cons (Bool.eq_false_iff.mpr fun word => ?_) _
        have solid := isBlank_of_isWord word
        rw [blank' c List.mem_cons_self] at solid
        cases solid
  have equals : (gap ++ '=' :: (gap' ++ ("$\x7b".toList ++ body))).dropWhile isBlank =
      '=' :: (gap' ++ ("$\x7b".toList ++ body)) := dropWhile_blanks blank' (by decide +kernel) _
  have brace : (gap' ++ ("$\x7b".toList ++ body)).dropWhile isBlank = "$\x7b".toList ++ body :=
    dropWhile_blanks blank'' (by decide +kernel) _
  rw [letHead?, isPrefixOf?_append]
  simp only [Option.bind_eq_bind, Option.bind_some]
  rw [head_of_blanks blank full, dropWhile_blanks_name blank named, word?_append named apart]
  simp only [Option.bind_some]
  rw [equals, isPrefixOf?_cons, Option.bind_some, brace, isPrefixOf?_append]
  rfl

theorem letHead?_eq_some {t name body : Text} (h : letHead? t = some (name, body)) :
    ∃ space gap gap', IsBlanks space ∧ space ≠ [] ∧ IsName name ∧ IsBlanks gap ∧ IsBlanks gap' ∧
      t = "<let".toList ++ (space ++ (name ++ (gap ++ '=' :: (gap' ++ ("$\x7b".toList ++ body))))) := by
  obtain ⟨first, opening, h⟩ := Option.bind_eq_some_iff.mp h
  obtain ⟨⟨⟩, apart, h⟩ := Option.bind_eq_some_iff.mp h
  obtain ⟨⟨word, second⟩, read, h⟩ := Option.bind_eq_some_iff.mp h
  obtain ⟨third, equals, h⟩ := Option.bind_eq_some_iff.mp h
  obtain ⟨fourth, brace, h⟩ := Option.bind_eq_some_iff.mp h
  cases h
  obtain ⟨space, blank, full, behindLet⟩ := exists_blanks_of_head (of_guard apart)
  obtain ⟨named, behindSpace⟩ := word?_eq_some read
  obtain ⟨gap, blank', behindName⟩ := exists_blanks second
  obtain ⟨gap', blank'', behindEquals⟩ := exists_blanks third
  refine ⟨space, gap, gap', blank, full, named, blank', blank'', ?_⟩
  rw [eq_of_isPrefixOf? brace] at behindEquals
  rw [eq_of_isPrefixOf? equals, behindEquals] at behindName
  rw [behindSpace, behindName] at behindLet
  rw [eq_of_isPrefixOf? opening, behindLet]
  rfl

theorem dropFirstBreak_append {taken rest : Text} (h : TakesBreak taken rest) :
    (taken ++ rest).dropFirstBreak = rest := by
  cases h with
  | pair => rfl
  | single => rfl
  | nothing pair single => exact Text.dropFirstBreak_eq_iff.mpr (.inr (.inr ⟨pair, single, rfl⟩))

theorem exists_break (t : Text) : ∃ taken, TakesBreak taken t.dropFirstBreak ∧ t = taken ++ t.dropFirstBreak := by
  rcases Text.dropFirstBreak_eq_iff.mp (rfl : t.dropFirstBreak = _) with split | split | ⟨pair, single, same⟩
  · exact ⟨_, .pair _, split⟩
  · exact ⟨_, .single _, split⟩
  · rw [← same]
    exact ⟨[], .nothing pair single, rfl⟩

theorem search_eq_some {close : Char} {t : Text} {left : Nat} (h : search close t = some left) :
    ∃ before behind, close ∉ before ∧ t = before ++ close :: behind ∧ left = behind.length + 1 := by
  induction t with
  | nil => cases h
  | cons c t ih =>
      rw [search_cons] at h
      split at h
      · rename_i same
        cases h
        exact ⟨[], t, List.not_mem_nil, by rw [same]; rfl, rfl⟩
      · rename_i differs
        obtain ⟨before, behind, fresh, rfl, rfl⟩ := ih h
        exact ⟨c :: before, behind, by simp [Ne.symm differs, fresh], rfl, rfl⟩

theorem enclosed_append {close : Char} {body : Text} (suffix rest : Text) (h : IsBody close body) :
    (enclosed close suffix (body ++ close :: (suffix ++ rest)) (body ++ close :: (suffix ++ rest)).length none).1 =
      some (body, rest) := by
  have some_ : 0 < body.length := List.length_pos_iff.mpr h.1
  have size : (body ++ close :: (suffix ++ rest)).length = body.length + ((suffix ++ rest).length + 1) := by simp
  rw [enclosed, Lookout.find, search_append h.2, size]
  simp only
  rw [if_neg (by omega), Nat.add_sub_cancel, List.take_left, List.append_cons, List.drop_left' (by simp),
    isPrefixOf?_append]
  rfl

theorem enclosed_eq_some {close : Char} {suffix body inner rest : Text}
    (h : (enclosed close suffix body body.length none).1 = some (inner, rest)) :
    IsBody close inner ∧ body = inner ++ close :: (suffix ++ rest) := by
  rw [enclosed, Lookout.find] at h
  cases found : search close body with
  | none =>
      rw [found] at h
      cases h
  | some left =>
      obtain ⟨before, behind, fresh, rfl, rfl⟩ := search_eq_some found
      have size : (before ++ close :: behind).length = before.length + (behind.length + 1) := by simp
      rw [found, size] at h
      simp only at h
      split at h
      · cases h
      · rename_i some_
        rw [Nat.add_sub_cancel, List.take_left, List.append_cons, List.drop_left' (by simp)] at h
        obtain ⟨_, closed, same⟩ := Option.map_eq_some_iff.mp h
        cases same
        rw [eq_of_isPrefixOf? closed]
        refine ⟨⟨?_, fresh⟩, rfl⟩
        rintro rfl
        simp at some_

/-! ## Whole tags -/

theorem tag?_of_named {t : Text}
    (h : ∀ opening ∈ ["$\x7b", "</for>", "</if>", "<else>", "<if(", "<else-if("], opening.toList.isPrefixOf? t = none) :
    tag? t = (for? t).or ((letHead? t).bind fun (name, body) =>
      (enclosed '\x7d' ['>'] body body.length none).1.map fun (expression, rest) =>
        (.binding name expression, rest.dropFirstBreak)) := by
  rw [tag?, tagAt_of_named h]
  cases for? t with
  | some tag => rfl
  | none => cases letHead? t <;> rfl

theorem tag?_of_searches {t suffix body : Text} {close : Char} {made : Text × Text → Lexeme × Text}
    (h : Searches t close suffix body made) : tag? t = (enclosed close suffix body body.length none).1.map made := by
  cases h with
  | interpolation => rfl
  | ifOpen => rfl
  | elseIf => rfl
  | binding head =>
      obtain ⟨space, gap, gap', -, -, -, -, -, rfl⟩ := letHead?_eq_some head
      rw [tag?_of_named, head]
      · rfl
      · simp only [List.forall_mem_cons]
        exact ⟨rfl, rfl, rfl, rfl, rfl, rfl, List.forall_mem_nil _⟩

theorem tag?_of_searches_append {t suffix inner rest : Text} {close : Char} {made : Text × Text → Lexeme × Text}
    (h : Searches t close suffix (inner ++ close :: (suffix ++ rest)) made) (body : IsBody close inner) :
    tag? t = some (made (inner, rest)) := by
  rw [tag?_of_searches h, enclosed_append suffix rest body]
  rfl

theorem tag?_of_form {l : Lexeme} {raw rest : Text} (h : l.Form raw rest) : tag? (raw ++ rest) = some (l, rest) := by
  cases h with
  | forClose => rfl
  | otherwise => rfl
  | ifClose => rfl
  | interpolation body =>
      rw [List.append_assoc, List.append_assoc]
      exact tag?_of_searches_append (.interpolation _) body
  | ifOpen body =>
      rw [List.append_assoc, List.append_assoc]
      exact tag?_of_searches_append (.ifOpen _) body
  | elseIf body =>
      rw [List.append_assoc, List.append_assoc]
      exact tag?_of_searches_append (.elseIf _) body
  | forOpen blank named blank' full opens isPath closes =>
      rw [tag?_of_named]
      · simp only [List.append_assoc, List.cons_append, List.nil_append]
        rw [for?_append blank named (forTail?_append blank' full opens isPath closes rest)]
        rfl
      · simp only [List.forall_mem_cons]
        exact ⟨rfl, rfl, rfl, rfl, rfl, rfl, List.forall_mem_nil _⟩
  | @binding name expression space gap gap' taken _ blank full named blank' blank'' body takes =>
      have head := letHead?_append blank full named blank' blank'' (expression ++ '\x7d' :: (['>'] ++ (taken ++ rest)))
      have found := tag?_of_searches_append (.binding head) body
      rw [dropFirstBreak_append takes] at found
      simpa using found

theorem Fixed.form {l : Lexeme} {raw : Text} (h : Fixed l raw) (rest : Text) : l.Form raw rest := by
  cases h with
  | forClose => exact .forClose
  | ifClose => exact .ifClose
  | otherwise => exact .otherwise

theorem Searches.form {t suffix body inner behind : Text} {close : Char} {made : Text × Text → Lexeme × Text}
    (h : Searches t close suffix body made) (isBody : IsBody close inner)
    (split : body = inner ++ close :: (suffix ++ behind)) :
    ∃ raw, t = raw ++ (made (inner, behind)).2 ∧ (made (inner, behind)).1.Form raw (made (inner, behind)).2 := by
  subst split
  cases h with
  | interpolation => exact ⟨_, by simp, .interpolation isBody⟩
  | ifOpen => exact ⟨_, by simp, .ifOpen isBody⟩
  | elseIf => exact ⟨_, by simp, .elseIf isBody⟩
  | binding head =>
      obtain ⟨space, gap, gap', blank, full, named, blank', blank'', rfl⟩ := letHead?_eq_some head
      obtain ⟨taken, takes, split⟩ := exists_break behind
      refine ⟨_, ?_, .binding blank full named blank' blank'' isBody takes⟩
      conv_lhs => rw [split]
      simp

theorem Searches.exists_form {t suffix body rest : Text} {close : Char} {made : Text × Text → Lexeme × Text} {l : Lexeme}
    (search : Searches t close suffix body made)
    (h : (enclosed close suffix body body.length none).1.map made = some (l, rest)) :
    ∃ raw, t = raw ++ rest ∧ l.Form raw rest := by
  obtain ⟨⟨inner, behind⟩, found, same⟩ := Option.map_eq_some_iff.mp h
  obtain ⟨isBody, split⟩ := enclosed_eq_some found
  have formed := search.form isBody split
  rwa [same] at formed

theorem exists_form {t rest : Text} {l : Lexeme} (h : tag? t = some (l, rest)) :
    ∃ raw, t = raw ++ rest ∧ l.Form raw rest := by
  have way := tagAt_way t
  unfold tag? at h
  generalize tagAt t t.length = answer at way h
  cases way with
  | fixed spelled split =>
      cases h
      exact ⟨_, split, spelled.form rest⟩
  | loop found =>
      cases h
      exact for?_eq_some found
  | brace search => exact search.exists_form h
  | paren search => exact search.exists_form h
  | nothing => cases h

end Lexer

end TextTemplate
