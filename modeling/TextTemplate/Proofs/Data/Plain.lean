import Mathlib.Data.List.Infix
import TextTemplate.Data.Document
import TextTemplate.Proofs.Json.Literals

namespace TextTemplate
open Text.CharClass

namespace ShellLiteral

def names : List Text :=
  ["ObjectId".toList, "ISODate".toList, "NumberLong".toList, "NumberInt".toList, "Timestamp".toList]

/-- Whether the name of a constructor stands in a text with an opening parenthesis behind it. -/
def invites (t : Text) : Bool := t.tails.any fun u => names.any fun name => (opening? [name] u).isSome

inductive Opens (names : List Text) : Text → Prop
  | mk {name blanks : Text} (more : Text) : name ∈ names → IsBlanks blanks → Opens names (name ++ (blanks ++ '(' :: more))

theorem opens_of_opening? {names : List Text} {t rest : Text} (h : opening? names t = some rest) : Opens names t := by
  obtain ⟨behind, named, h⟩ := Option.bind_eq_some_iff.mp h
  obtain ⟨more, opened, -⟩ := Option.bind_eq_some_iff.mp h
  obtain ⟨name, member, front⟩ := List.exists_of_findSome?_eq_some named
  obtain ⟨blanks, blank, split⟩ := Lexer.exists_blanks behind
  rw [Lexer.eq_of_isPrefixOf? front, split, Lexer.eq_of_isPrefixOf? opened]
  exact .mk more member blank

theorem opening?_of_opens {name t : Text} (h : Opens [name] t) : (opening? [name] t).isSome = true := by
  obtain ⟨more, member, blank⟩ := h
  obtain rfl := List.mem_singleton.mp member
  have opened := Lexer.dropWhile_blanks blank (c := '(') (by decide) more
  simp [opening?, Lexer.isPrefixOf?_append, opened, List.isPrefixOf?]

theorem not_opens_of_invites {t u : Text} (h : invites t = false) (suffix : u <:+ t) : ¬ Opens names u := by
  intro opens
  obtain ⟨more, member, blank⟩ := opens
  rename_i name blanks
  have single := opening?_of_opens (.mk more (List.mem_singleton.mpr (rfl : name = name)) blank)
  simp only [invites, List.any_eq_false, List.mem_tails, Bool.not_eq_true] at h
  rw [h _ suffix name member] at single
  cases single

theorem Opens.before_quote {raw t : Text} (h : Opens names (raw ++ '"' :: t)) : Opens names raw := by
  generalize whole : raw ++ '"' :: t = u at h
  obtain ⟨more, member, blank⟩ := h
  rename_i name blanks
  have noQuote : '"' ∉ name ++ (blanks ++ ['(']) := by
    have unquoted : ∀ name ∈ names, '"' ∉ name := by decide
    have solid : isBlank '"' = false := by decide
    simp only [List.mem_append, not_or]
    refine ⟨unquoted name member, fun inside => ?_, by decide⟩
    rw [blank '"' inside] at solid
    cases solid
  have split : raw ++ '"' :: t = (name ++ (blanks ++ ['('])) ++ more := by simp [whole]
  rcases List.append_eq_append_iff.mp split with ⟨excess, front, behind⟩ | ⟨rest, front, -⟩
  · cases excess with
    | nil =>
        rw [List.append_nil] at front
        exact front ▸ .mk [] member blank
    | cons q excess =>
        obtain ⟨rfl, -⟩ := List.cons.inj behind
        exact absurd (front ▸ by simp) noQuote
  · have opens := Opens.mk rest member blank
    simpa [front] using opens

theorem Opens.ne_nil {names : List Text} {t : Text} (h : Opens names t) : t ≠ [] := by
  cases h
  simp

theorem Opens.initial {c : Char} {t : Text} (h : Opens names (c :: t)) : c ∈ ['O', 'I', 'N', 'T'] := by
  generalize whole : c :: t = u at h
  obtain ⟨more, member, -⟩ := h
  have initials : ∀ name ∈ names, name ≠ [] ∧ name.headD ' ' ∈ ['O', 'I', 'N', 'T'] := by decide
  obtain ⟨full, isInitial⟩ := initials _ member
  obtain ⟨first, rest, rfl⟩ := List.exists_cons_of_ne_nil full
  obtain ⟨rfl, -⟩ := List.cons.inj whole
  exact isInitial

theorem replace_of_none {rule : Text → Option (Text × Text)} {t : Text} (h : ∀ u, u <:+ t → rule u = none) :
    replace rule 0 t = t := by
  induction t with
  | nil => rfl
  | cons c t ih =>
      rw [replace, h _ (List.suffix_refl _), ih fun u suffix => h u (suffix.trans (List.suffix_cons c t))]

theorem opening?_eq_none {some : List Text} (sub : some ⊆ names) {u : Text} (closed : ¬ Opens names u) :
    opening? some u = none := by
  by_contra opens
  obtain ⟨rest, opens⟩ := Option.ne_none_iff_exists'.mp opens
  obtain ⟨more, member, blank⟩ := opens_of_opening? opens
  exact closed (.mk more (sub member) blank)

theorem clean_of_not_opens {t : Text} (closed : ∀ u, u <:+ t → ¬ Opens names u) : clean t = t := by
  have strings : replace string? 0 t = t := replace_of_none fun u suffix => by
    rw [string?, opening?_eq_none (by decide) (closed u suffix)]
    rfl
  have integers : replace integer? 0 t = t := replace_of_none fun u suffix => by
    rw [integer?, opening?_eq_none (by decide) (closed u suffix)]
    rfl
  have timestamps : replace timestamp? 0 t = t := replace_of_none fun u suffix => by
    rw [timestamp?, opening?_eq_none (by decide) (closed u suffix)]
    rfl
  rw [clean, strings, integers, timestamps]

end ShellLiteral

open ShellLiteral in
theorem Json.Laid.not_opens {raws : List Text} {t : Text} (laid : Laid raws t)
    (plain : ∀ raw ∈ raws, invites raw = false) : ∀ u, u <:+ t → ¬ Opens names u := by
  have outside {c : Char} {u : Text} (other : c ∉ ['O', 'I', 'N', 'T']) : ¬ Opens names (c :: u) :=
    fun opens => other opens.initial
  induction laid with
  | nil =>
      intro u suffix opens
      rw [List.suffix_nil.mp suffix] at opens
      exact opens.ne_nil rfl
  | structural mark _ ih =>
      intro u suffix
      rcases List.suffix_cons_iff.mp suffix with rfl | suffix
      · exact outside (not_mem_of_class (by decide) mark)
      · exact ih plain u suffix
  | @literal raw raws t inside _ ih =>
      obtain ⟨here, later⟩ := List.forall_mem_cons.mp plain
      intro u suffix
      rcases List.suffix_cons_iff.mp suffix with rfl | suffix
      · exact outside (by decide)
      · rcases List.suffix_or_suffix_of_suffix suffix (List.suffix_append raw ('"' :: t)) with behind | ⟨front, rfl⟩
        · rcases List.suffix_cons_iff.mp behind with rfl | behind
          · exact outside (by decide)
          · exact ih later u behind
        · have within := ((List.suffix_append_inj_of_length_eq rfl).mp suffix).1
          exact fun opens => not_opens_of_invites here within opens.before_quote

/-- A document without openings of constructors in its strings is loaded as it is read. -/
theorem readDocument_plain {t : Text} {entries : Entries} (valid : Json.read? t = some (.object entries))
    (plain : ∀ raw ∈ Json.literals none t, ShellLiteral.invites raw = false) :
    readDocument .json t = .ok (.object entries) := by
  have laid := Json.read?_laid valid
  have clean := ShellLiteral.clean_of_not_opens (laid.not_opens plain)
  simp only [readDocument, clean, valid]

def separated : Text := "\x7b\"NumberInt\":\"(\\\"5\\\")\"\x7d".toList

theorem readDocument_plain_separated :
    (∀ raw ∈ Json.literals none separated, ShellLiteral.invites raw = false) ∧
    readDocument .json separated = .ok (.object [("NumberInt".toList, .text "(\"5\")".toList)]) := by
  have valid : Json.read? separated = some (.object [("NumberInt".toList, .text "(\"5\")".toList)]) := by
    decide +kernel
  have plain : ∀ raw ∈ Json.literals none separated, ShellLiteral.invites raw = false := by decide
  exact ⟨plain, readDocument_plain valid plain⟩

theorem readDocument_rewrites :
    Json.read? "\x7b\"a\":\"NumberInt(5)\"\x7d".toList = some (.object [("a".toList, .text "NumberInt(5)".toList)]) ∧
    readDocument .json "\x7b\"a\":\"NumberInt(5)\"\x7d".toList = .ok (.object [("a".toList, .text "5".toList)]) := by
  have rewritten : Json.read? (ShellLiteral.clean "\x7b\"a\":\"NumberInt(5)\"\x7d".toList) =
      some (.object [("a".toList, .text "5".toList)]) := by decide +kernel
  refine ⟨by decide +kernel, ?_⟩
  simp only [readDocument, rewritten]

end TextTemplate
