import Mathlib.Data.List.Chain
import TextTemplate.Proofs.Expr.Spelling

namespace TextTemplate
open Text.CharClass TextTemplate.Expr

namespace Path

def pieces (t : Text) : List Text := (normalize t).splitOn '.'

theorem pieces_ne_nil (t : Text) : pieces t ≠ [] := List.splitOn_ne_nil _ _

theorem pieces_nil : pieces [] = [[]] := List.splitOn_nil _

theorem pieces_dot (t : Text) : pieces ('.' :: t) = [] :: pieces t := by
  rw [pieces, normalize, dotIndices, if_neg (by simp), if_neg (by simp), List.splitOn_cons_eq_if_modifyHead,
    if_pos (by simp)]
  rfl

theorem pieces_cons {c : Char} {t : Text} (undotted : c ≠ '.') (unopened : ¬ (c = '[' ∧ opensIndex t = true)) :
    pieces (c :: t) = (pieces t).modifyHead (c :: ·) := by
  rw [pieces, normalize, dotIndices, if_neg (by simp), if_neg unopened, List.splitOn_cons_eq_if_modifyHead,
    if_neg (by simp [undotted])]
  rfl

theorem dotIndices_segment {segment : Text} (chars : ∀ c ∈ segment, isSegmentChar c = true) (inside : Bool) (t : Text) :
    dotIndices inside (segment ++ t) = segment ++ dotIndices inside t := by
  induction segment with
  | nil => rfl
  | cons c segment ih =>
      obtain ⟨char, chars⟩ := List.forall_mem_cons.mp chars
      have other := not_mem_of_isSegmentChar char
      simp only [List.mem_cons, not_or] at other
      obtain ⟨-, -, -, noOpening, noClosing, -⟩ := other
      rw [List.cons_append, dotIndices, if_neg (fun closes => noClosing closes.2),
        if_neg (fun opens => noOpening opens.1), ih chars, List.cons_append]

theorem splitOn_segment {segment : Text} (chars : ∀ c ∈ segment, isSegmentChar c = true) (t : Text) :
    (segment ++ t).splitOn '.' = (t.splitOn '.').modifyHead (segment ++ ·) := by
  induction segment with
  | nil => exact (congrFun List.modifyHead_id _).symm
  | cons c segment ih =>
      obtain ⟨char, chars⟩ := List.forall_mem_cons.mp chars
      have undotted : c ≠ '.' := by
        rintro rfl
        exact not_mem_of_isSegmentChar char (by decide)
      rw [List.cons_append, List.splitOn_cons_eq_if_modifyHead, if_neg (by simp [undotted]), ih chars,
        List.modifyHead_modifyHead]
      rfl

theorem pieces_segment {segment : Text} (chars : ∀ c ∈ segment, isSegmentChar c = true) (t : Text) :
    pieces (segment ++ t) = (pieces t).modifyHead (segment ++ ·) := by
  rw [pieces, normalize, dotIndices_segment chars, splitOn_segment chars]
  rfl

theorem isSegmentChar_of_isDigit {c : Char} (h : isDigit c = true) : isSegmentChar c = true := by
  rw [isSegmentChar, isAlphanumeric_of_isDigit h, Bool.true_or]

theorem opensIndex_of_digits {digits : Text} (full : digits ≠ []) (all : ∀ c ∈ digits, isDigit c = true) (t : Text) :
    opensIndex (digits ++ ']' :: t) = true := by
  have bracket : ¬ isDigit ']' = true := by decide
  have front : (digits ++ ']' :: t).takeWhile isDigit = digits := by
    rw [List.takeWhile_append_of_pos all, List.takeWhile_cons_of_neg bracket, List.append_nil]
  have back : (digits ++ ']' :: t).dropWhile isDigit = ']' :: t := by
    rw [List.dropWhile_append_of_pos all, List.dropWhile_cons_of_neg bracket]
  simp [opensIndex, front, back, full]

theorem exists_of_opensIndex {t : Text} (h : opensIndex t = true) :
    ∃ digits rest, t = digits ++ ']' :: rest ∧ digits ≠ [] ∧ ∀ c ∈ digits, isDigit c = true := by
  rw [opensIndex, Bool.and_eq_true, decide_eq_true_eq, decide_eq_true_eq] at h
  obtain ⟨full, closes⟩ := h
  obtain ⟨rest, closed⟩ := List.head?_eq_some_iff.mp closes
  refine ⟨t.takeWhile isDigit, rest, ?_, full, fun c => List.mem_takeWhile_imp⟩
  rw [← closed, List.takeWhile_append_dropWhile]

theorem pieces_index {digits : Text} (full : digits ≠ []) (all : ∀ c ∈ digits, isDigit c = true) (t : Text) :
    pieces ('[' :: (digits ++ ']' :: t)) = [] :: (pieces t).modifyHead (digits ++ ·) := by
  have chars : ∀ c ∈ digits, isSegmentChar c = true := fun c member => isSegmentChar_of_isDigit (all c member)
  have closes : dotIndices true (']' :: t) = dotIndices false t := by rw [dotIndices, if_pos ⟨rfl, rfl⟩]
  rw [pieces, normalize, dotIndices, if_neg (by simp), if_pos ⟨rfl, opensIndex_of_digits full all t⟩,
    dotIndices_segment chars, closes, List.splitOn_cons_eq_if_modifyHead, if_pos (by simp), splitOn_segment chars]
  rfl

/-- How a path that is read goes on: as in the grammar, but characters behind an index belong to its segment. -/
inductive RunsOn : List Text → Text → Prop
  | ends : RunsOn [] []
  | dotted {segment t : Text} {rest : List Text} : isSegment segment = true → RunsOn rest t →
      RunsOn (segment :: rest) ('.' :: (segment ++ t))
  | indexed {digits more t : Text} {rest : List Text} : digits ≠ [] → (∀ c ∈ digits, isDigit c = true) →
      (∀ c ∈ more, isSegmentChar c = true) → RunsOn rest t →
      RunsOn ((digits ++ more) :: rest) ('[' :: (digits ++ ']' :: (more ++ t)))

inductive ReadFrom : Path → Text → Prop
  | mk {first t : Text} {rest : List Text} : isSegment first = true → RunsOn rest t →
      ReadFrom ⟨first :: rest⟩ (first ++ t)

theorem isSegment_iff {segment : Text} :
    isSegment segment = true ↔ segment ≠ [] ∧ ∀ c ∈ segment, isSegmentChar c = true := by
  simp [isSegment]

theorem RunsOn.segments {rest : List Text} {t : Text} (h : RunsOn rest t) :
    ∀ segment ∈ rest, isSegment segment = true := by
  induction h with
  | ends => exact List.forall_mem_nil _
  | dotted valid _ ih => exact List.forall_mem_cons.mpr ⟨valid, ih⟩
  | indexed full all chars _ ih =>
      refine List.forall_mem_cons.mpr ⟨isSegment_iff.mpr ⟨List.append_ne_nil_of_left_ne_nil full _, ?_⟩, ih⟩
      exact List.forall_mem_append.mpr ⟨fun c member => isSegmentChar_of_isDigit (all c member), chars⟩

theorem RunsOn.pieces {rest : List Text} {t : Text} (h : RunsOn rest t) : Path.pieces t = [] :: rest := by
  induction h with
  | ends => exact pieces_nil
  | dotted valid _ ih =>
      rw [pieces_dot, pieces_segment (chars_of_isSegment valid), ih]
      simp
  | indexed full all chars _ ih =>
      rw [pieces_index full all, pieces_segment chars, ih]
      simp

theorem runsOn_of_pieces {t first : Text} {rest : List Text} (cut : pieces t = first :: rest)
    (segments : ∀ segment ∈ rest, isSegment segment = true) : ∃ u, t = first ++ u ∧ RunsOn rest u := by
  -- An index is passed over whole, with its brackets.
  induction size : t.length using Nat.strong_induction_on generalizing t first rest with
  | _ size ih =>
      subst size
      cases t with
      | nil =>
          rw [pieces_nil] at cut
          obtain ⟨rfl, rfl⟩ := List.cons.inj cut
          exact ⟨[], rfl, .ends⟩
      | cons c t =>
          by_cases dot : c = '.'
          · rw [dot, pieces_dot] at cut
            obtain ⟨rfl, found⟩ := List.cons.inj cut
            obtain ⟨head, others, rfl⟩ := List.exists_cons_of_ne_nil (found ▸ pieces_ne_nil t)
            obtain ⟨valid, segments⟩ := List.forall_mem_cons.mp segments
            obtain ⟨u, rfl, goes⟩ := ih t.length (by simp) found segments rfl
            exact ⟨'.' :: (head ++ u), by rw [dot]; rfl, .dotted valid goes⟩
          · by_cases opens : c = '[' ∧ opensIndex t = true
            · obtain ⟨digits, t, rfl, full, all⟩ := exists_of_opensIndex opens.2
              obtain ⟨head, others, found⟩ := List.exists_cons_of_ne_nil (pieces_ne_nil t)
              rw [opens.1, pieces_index full all, found, List.modifyHead_cons] at cut
              obtain ⟨rfl, rfl⟩ := List.cons.inj cut
              obtain ⟨valid, segments⟩ := List.forall_mem_cons.mp segments
              obtain ⟨u, rfl, goes⟩ := ih t.length (by simp; omega) found segments rfl
              have chars := (List.forall_mem_append.mp (chars_of_isSegment valid)).2
              exact ⟨'[' :: (digits ++ ']' :: (head ++ u)), by rw [opens.1]; rfl, .indexed full all chars goes⟩
            · obtain ⟨head, others, found⟩ := List.exists_cons_of_ne_nil (pieces_ne_nil t)
              rw [pieces_cons dot opens, found, List.modifyHead_cons] at cut
              obtain ⟨rfl, rfl⟩ := List.cons.inj cut
              obtain ⟨u, rfl, goes⟩ := ih t.length (by simp) found segments rfl
              exact ⟨u, rfl, goes⟩

theorem ReadFrom.ne_nil {p : Path} {t : Text} (h : p.ReadFrom t) : t ≠ [] := by
  obtain ⟨valid, -⟩ := h
  exact List.append_ne_nil_of_left_ne_nil (ne_nil_of_isSegment valid) _

theorem readFrom_iff {p : Path} {t : Text} :
    p.ReadFrom t ↔ p.segments = pieces t ∧ ∀ segment ∈ pieces t, isSegment segment = true := by
  constructor
  · rintro ⟨valid, goes⟩
    rename_i first t rest
    have cut : pieces (first ++ t) = first :: rest := by
      rw [pieces_segment (chars_of_isSegment valid), goes.pieces]
      simp
    rw [cut]
    exact ⟨rfl, List.forall_mem_cons.mpr ⟨valid, goes.segments⟩⟩
  · rintro ⟨same, segments⟩
    obtain ⟨first, rest, cut⟩ := List.exists_cons_of_ne_nil (pieces_ne_nil t)
    rw [cut] at same segments
    obtain ⟨valid, segments⟩ := List.forall_mem_cons.mp segments
    obtain ⟨u, rfl, goes⟩ := runsOn_of_pieces cut segments
    cases p
    cases same
    exact .mk valid goes

theorem read_eq (source : Text) :
    read source = if source.trim = [] then .error .emptyPath
      else if (pieces source.trim).all isSegment then .ok ⟨pieces source.trim⟩
      else .error (.malformedPath source.trim) := rfl

theorem read_iff {source : Text} {p : Path} : read source = .ok p ↔ p.ReadFrom source.trim := by
  constructor
  · intro reads
    rw [read_eq] at reads
    split at reads
    · cases reads
    · split at reads
      · rename_i segments
        obtain rfl := Except.ok.inj reads
        exact readFrom_iff.mpr ⟨rfl, List.all_eq_true.mp segments⟩
      · cases reads
  · intro h
    obtain ⟨same, segments⟩ := readFrom_iff.mp h
    rw [read_eq, if_neg h.ne_nil, if_pos (List.all_eq_true.mpr segments), ← same]

def BracketsApart (t : Text) : Prop := t.IsChain fun c d => c = ']' → isSegmentChar d = false

instance (t : Text) : Decidable (BracketsApart t) :=
  inferInstanceAs (Decidable (t.IsChain fun c d => c = ']' → isSegmentChar d = false))

theorem bracketsApart_cons {c : Char} (other : c ≠ ']') {t : Text} : BracketsApart (c :: t) ↔ BracketsApart t := by
  rw [BracketsApart, List.isChain_cons]
  exact and_iff_right fun _ _ closing => absurd closing other

theorem bracketsApart_segment {segment : Text} (chars : ∀ c ∈ segment, isSegmentChar c = true) {t : Text} :
    BracketsApart (segment ++ t) ↔ BracketsApart t := by
  induction segment with
  | nil => rfl
  | cons c segment ih =>
      obtain ⟨char, chars⟩ := List.forall_mem_cons.mp chars
      have other : c ≠ ']' := by
        rintro rfl
        exact not_mem_of_isSegmentChar char (by decide)
      rw [List.cons_append, bracketsApart_cons other, ih chars]

theorem bracketsApart_closing {t : Text} :
    BracketsApart (']' :: t) ↔ (∀ c ∈ t.head?, isSegmentChar c = false) ∧ BracketsApart t := by
  rw [BracketsApart, List.isChain_cons]
  simp only [true_implies]
  rfl

theorem Continues.head {rest : List Text} {t : Text} (h : Continues rest t) :
    ∀ c ∈ t.head?, isSegmentChar c = false := by
  cases h with
  | ends => exact nofun
  | dotted =>
      rintro _ ⟨⟩
      decide +kernel
  | indexed =>
      rintro _ ⟨⟩
      decide +kernel

theorem continues_iff {rest : List Text} {t : Text} : Continues rest t ↔ RunsOn rest t ∧ BracketsApart t := by
  constructor
  · intro goes
    induction goes with
    | ends => exact ⟨.ends, .nil⟩
    | dotted valid _ ih =>
        obtain ⟨runs, apart⟩ := ih
        refine ⟨.dotted valid runs, ?_⟩
        rwa [bracketsApart_cons (by decide), bracketsApart_segment (chars_of_isSegment valid)]
    | indexed valid all goes ih =>
        obtain ⟨runs, apart⟩ := ih
        constructor
        · have more := RunsOn.indexed (ne_nil_of_isSegment valid) all (List.forall_mem_nil _) runs
          rwa [List.append_nil] at more
        · rw [bracketsApart_cons (by decide), bracketsApart_segment (chars_of_isSegment valid)]
          exact bracketsApart_closing.mpr ⟨goes.head, apart⟩
  · rintro ⟨runs, apart⟩
    induction runs with
    | ends => exact .ends
    | dotted valid _ ih =>
        rw [bracketsApart_cons (by decide), bracketsApart_segment (chars_of_isSegment valid)] at apart
        exact .dotted valid (ih apart)
    | @indexed digits more t rest full all chars _ ih =>
        have digitChars : ∀ c ∈ digits, isSegmentChar c = true := fun c member => isSegmentChar_of_isDigit (all c member)
        rw [bracketsApart_cons (by decide), bracketsApart_segment digitChars] at apart
        obtain ⟨head, apart⟩ := bracketsApart_closing.mp apart
        -- A character behind the index would stand right behind its bracket.
        obtain rfl : more = [] := by
          cases more with
          | nil => rfl
          | cons c more =>
              have char := chars c List.mem_cons_self
              rw [head c rfl] at char
              cases char
        rw [List.append_nil, List.nil_append]
        exact .indexed (isSegment_iff.mpr ⟨full, digitChars⟩) all (ih apart)

theorem spelled_iff {p : Path} {t : Text} : p.Spelled t ↔ p.ReadFrom t ∧ BracketsApart t := by
  constructor
  · rintro ⟨valid, goes⟩
    obtain ⟨runs, apart⟩ := continues_iff.mp goes
    exact ⟨.mk valid runs, (bracketsApart_segment (chars_of_isSegment valid)).mpr apart⟩
  · rintro ⟨⟨valid, runs⟩, apart⟩
    rw [bracketsApart_segment (chars_of_isSegment valid)] at apart
    exact .mk valid (continues_iff.mpr ⟨runs, apart⟩)

/--
A path is read from a text if and only if the trimmed text holds it, where characters behind an index count as a part of
its segment. By the grammar such a text spells the path if and only if there are no such characters.
-/
theorem path_grammar (source : Text) (p : Path) :
    (read source = .ok p ↔ p.ReadFrom source.trim) ∧
    (p.Spelled source.trim ↔ read source = .ok p ∧ BracketsApart source.trim) := by
  refine ⟨read_iff, ?_⟩
  rw [read_iff]
  exact spelled_iff

theorem read_unspelled :
    read "a[0]b".toList = .ok ⟨["a".toList, "0b".toList]⟩ ∧ ¬ ∃ p : Path, p.Spelled "a[0]b".toList := by
  refine ⟨by decide +kernel, ?_⟩
  rintro ⟨p, spelled⟩
  have apart := (spelled_iff.mp spelled).2
  revert apart
  decide +kernel

theorem read_between {p : Path} {t before after : Text} (h : p.Spelled t) (blanks : IsBlanks before)
    (blanks' : IsBlanks after) : read (before ++ (t ++ after)) = .ok p := by
  rw [read_iff, Text.trim_blanks blanks h.firm blanks']
  exact (spelled_iff.mp h).1

theorem read_behind {p : Path} {t before : Text} (h : p.Spelled t) (blanks : IsBlanks before) :
    read (before ++ t) = .ok p := by
  have path := read_between h blanks isBlanks_nil
  rwa [List.append_nil] at path

theorem read_spelled {p : Path} {t : Text} (h : p.Spelled t) : read t = .ok p := read_behind h isBlanks_nil

end Path

end TextTemplate
