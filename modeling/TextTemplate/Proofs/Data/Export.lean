import TextTemplate.Proofs.Data.Plain

/-!
# Documents as a shell writes them

A shell writes some strings and numbers of a document as calls of constructors. Each of the three passes over such a
text puts back the values of its own calls and leaves all else as it is: outside strings only a call can begin with the
name of a constructor, and no name begins within another one. So a document whose strings hold no such name is loaded
however a shell writes it (`readDocument_exported`). All its strings count, also those of entries that a later entry of
the same key replaces (`readDocument_replaced`).
-/

namespace TextTemplate
open Text.CharClass

namespace ShellLiteral

/-! ## Passes -/

/-- What a pass makes of a text: what its rule does not find is kept, what it finds is swapped. -/
inductive Rewrites (rule : Text → Option (Text × Text)) : Text → Text → Prop
  | nil : Rewrites rule [] []
  | keep {c : Char} {t u : Text} : rule (c :: t) = none → Rewrites rule t u → Rewrites rule (c :: t) (c :: u)
  | swap {found new t u : Text} : found ≠ [] → rule (found ++ t) = some (new, t) → Rewrites rule t u →
      Rewrites rule (found ++ t) (new ++ u)

theorem replace_behind (rule : Text → Option (Text × Text)) (front t : Text) :
    replace rule front.length (front ++ t) = replace rule 0 t := by
  induction front with
  | nil => rfl
  | cons c front ih => rw [List.cons_append, List.length_cons, replace, ih]

theorem Rewrites.replace_eq {rule : Text → Option (Text × Text)} {t u : Text} (h : Rewrites rule t u) :
    replace rule 0 t = u := by
  induction h with
  | nil => rfl
  | keep unfound _ ih => rw [replace, unfound, ih]
  | @swap found new t u full finds _ ih =>
      obtain ⟨c, found, rfl⟩ := List.exists_cons_of_ne_nil full
      have passed : (found ++ t).length - t.length = found.length := by simp
      rw [List.cons_append] at finds ⊢
      simp only [replace, finds, passed, replace_behind, ih]

def Silent (wanted : List Text) (t : Text) : Prop :=
  ∀ u rest, u ≠ [] → u <:+ t → ∀ name ∈ wanted, ¬ name <+: u ++ rest

theorem Silent.mono {wanted fewer : List Text} {t : Text} (h : Silent wanted t) (sub : fewer ⊆ wanted) : Silent fewer t :=
  fun u rest full suffix name member => h u rest full suffix name (sub member)

theorem Silent.append {wanted : List Text} {t t' : Text} (h : Silent wanted t) (h' : Silent wanted t') :
    Silent wanted (t ++ t') := by
  intro u rest full suffix name member
  rcases List.suffix_or_suffix_of_suffix suffix (List.suffix_append t t') with inside | ⟨front, rfl⟩
  · exact h' u rest full inside name member
  · have inside := ((List.suffix_append_inj_of_length_eq rfl).mp suffix).1
    by_cases empty : front = []
    · subst empty
      exact h' _ rest full (List.suffix_refl _) name member
    · rw [List.append_assoc]
      exact h front _ empty inside name member

def initials : List Char := ['O', 'I', 'N', 'T']

theorem exists_initial {name : Text} (h : name ∈ names) :
    ∃ c more, name = c :: more ∧ c ∈ initials ∧ Json.isEscape c = false ∧ '\\' ∉ name ∧ '"' ∉ name := by
  simp only [names, List.mem_cons, List.not_mem_nil, or_false] at h
  rcases h with rfl | rfl | rfl | rfl | rfl <;> exact ⟨_, _, rfl, by decide, by decide, by decide, by decide⟩

theorem silent_of_plain {t : Text} (plain : ∀ c ∈ t, c ∉ initials) : Silent names t := by
  intro u rest full suffix name member front
  obtain ⟨c, more, rfl, initial, -⟩ := exists_initial member
  obtain ⟨d, u, rfl⟩ := List.exists_cons_of_ne_nil full
  obtain ⟨rfl, -⟩ := List.cons_prefix_cons.mp front
  exact plain c (suffix.subset List.mem_cons_self) initial

theorem prefix_before {name front rest : Text} {c : Char} (other : c ∉ name) (h : name <+: front ++ c :: rest) :
    name <+: front := by
  rcases List.prefix_or_prefix_of_prefix h (List.prefix_append front _) with before | ⟨more, rfl⟩
  · exact before
  · cases more with
    | nil => exact ⟨[], by simp⟩
    | cons d more =>
        obtain ⟨rfl, -⟩ := List.cons_prefix_cons.mp ((List.prefix_append_right_inj front).mp h)
        exact absurd (by simp) other

theorem silent_literal {raw : Text} (plain : ∀ name ∈ names, ¬ name <:+: raw) :
    Silent names ('"' :: (raw ++ ['"'])) := by
  have quote : Silent names ['"'] := silent_of_plain (List.forall_mem_singleton.mpr (by decide))
  intro u rest full suffix name member front
  rcases List.suffix_cons_iff.mp suffix with rfl | inside
  · exact quote ['"'] _ (List.cons_ne_nil _ _) (List.suffix_refl _) name member front
  · rcases List.suffix_or_suffix_of_suffix inside (List.suffix_append raw ['"']) with last | ⟨before, rfl⟩
    · exact quote u rest full last name member front
    · obtain ⟨-, -, -, -, -, -, noQuote⟩ := exists_initial member
      have within := ((List.suffix_append_inj_of_length_eq rfl).mp inside).1
      rw [List.append_assoc] at front
      exact plain name member ((prefix_before noQuote front).isInfix.trans within.isInfix)

theorem eq_of_comparable {name other u : Text} (member : name ∈ names) (suffix : u <:+ name) (full : u ≠ [])
    (member' : other ∈ names) (comparable : other <+: u ∨ u <+: other) : other = name := by
  have apart : ∀ name ∈ names, ∀ u ∈ name.tails, u ≠ [] → ∀ other ∈ names, other <+: u ∨ u <+: other → other = name := by
    decide
  exact apart name member u ((List.mem_tails _ _).mpr suffix) full other member' comparable

theorem silent_name {wanted : List Text} (sub : wanted ⊆ names) {name : Text} (member : name ∈ names)
    (other : name ∉ wanted) : Silent wanted name := by
  intro u rest full suffix found foundMember front
  have comparable := List.prefix_or_prefix_of_prefix front (List.prefix_append u rest)
  exact other (eq_of_comparable member suffix full (sub foundMember) comparable ▸ foundMember)

/-! ## Calls -/

inductive Call (wanted : List Text) (arguments : Text) : Text → Prop
  | mk {name before inside behind : Text} : name ∈ wanted → IsBlanks before → IsBlanks inside → IsBlanks behind →
      Call wanted arguments (name ++ (before ++ '(' :: (inside ++ (arguments ++ (behind ++ [')'])))))

theorem plain_blanks {t : Text} (blanks : IsBlanks t) : ∀ c ∈ t, c ∉ initials :=
  fun c member => not_mem_of_class (by decide) (blanks c member)

theorem Call.silent {wanted others : List Text} {arguments call : Text} (h : Call others arguments call)
    (sub : wanted ⊆ names) (known : others ⊆ names) (apart : ∀ name ∈ others, name ∉ wanted)
    (plain : ∀ c ∈ arguments, c ∉ initials) : Silent wanted call := by
  obtain ⟨member, blanks, blanks', blanks''⟩ := h
  rename_i name before inside behind
  refine (silent_name sub (known member) (apart _ member)).append ((silent_of_plain ?_).mono sub)
  have parenthesis : '(' ∉ initials ∧ ')' ∉ initials := by decide
  simp only [List.forall_mem_append, List.forall_mem_cons]
  exact ⟨plain_blanks blanks, parenthesis.1, plain_blanks blanks', plain, plain_blanks blanks'', parenthesis.2, nofun⟩

theorem findSome?_name {wanted : List Text} (sub : wanted ⊆ names) {name : Text} (member : name ∈ wanted) (t : Text) :
    (wanted.findSome? fun found => found.isPrefixOf? (name ++ t)) = some t := by
  cases search : wanted.findSome? fun found => found.isPrefixOf? (name ++ t) with
  | none =>
      have missed := List.findSome?_eq_none_iff.mp search name member
      rw [Lexer.isPrefixOf?_append] at missed
      cases missed
  | some rest =>
      obtain ⟨found, foundMember, front⟩ := List.exists_of_findSome?_eq_some search
      have whole := Lexer.eq_of_isPrefixOf? front
      have comparable : found <+: name ∨ name <+: found :=
        List.prefix_or_prefix_of_prefix (whole ▸ List.prefix_append found rest) (List.prefix_append name t)
      obtain ⟨c, more, named, -⟩ := exists_initial (sub member)
      have full : name ≠ [] := named ▸ List.cons_ne_nil c more
      obtain rfl := eq_of_comparable (sub member) (List.suffix_refl name) full (sub foundMember) comparable
      rw [List.append_cancel_left whole]

theorem opening?_call {wanted : List Text} (sub : wanted ⊆ names) {c : Char} {more call : Text}
    (h : Call wanted (c :: more) call) (solid : isBlank c = false) (rest : Text) :
    ∃ behind, IsBlanks behind ∧ opening? wanted (call ++ rest) = some (c :: (more ++ (behind ++ ')' :: rest))) := by
  obtain ⟨member, blanks, blanks', blanks''⟩ := h
  rename_i name before inside behind
  refine ⟨behind, blanks'', ?_⟩
  have found := findSome?_name sub member (before ++ '(' :: (inside ++ (c :: (more ++ (behind ++ ')' :: rest)))))
  have opens := Lexer.dropWhile_blanks blanks (c := '(') (by decide)
    (inside ++ (c :: (more ++ (behind ++ ')' :: rest))))
  have begins := Lexer.dropWhile_blanks blanks' solid (more ++ (behind ++ ')' :: rest))
  simp only [List.append_assoc, List.cons_append, List.nil_append]
  rw [opening?, found]
  simp only [Option.bind_eq_bind, Option.bind_some]
  rw [opens, Lexer.isPrefixOf?_cons, Option.bind_some, begins]
  rfl

theorem closing?_behind {behind : Text} (blanks : IsBlanks behind) (rest : Text) :
    closing? (behind ++ ')' :: rest) = some rest := by
  rw [closing?, Lexer.dropWhile_blanks blanks (by decide), Lexer.isPrefixOf?_cons]

theorem cut_at {p : Char → Bool} {front : Text} (all : ∀ c ∈ front, p c = true) {c : Char} (stop : p c = false)
    (rest : Text) : (front ++ c :: rest).takeWhile p = front ∧ (front ++ c :: rest).dropWhile p = c :: rest := by
  have stops : ¬ p c = true := by simp [stop]
  rw [List.takeWhile_append_of_pos all, List.takeWhile_cons_of_neg stops, List.append_nil,
    List.dropWhile_append_of_pos all, List.dropWhile_cons_of_neg stops]
  exact ⟨rfl, rfl⟩

theorem quoted?_append {q q' : Char} {content : Text} (quote : Text.isQuote q = true) (quote' : Text.isQuote q' = true)
    (full : content ≠ []) (bare : ∀ c ∈ content, Text.isQuote c = false) (rest : Text) :
    quoted? (q :: (content ++ q' :: rest)) = some (content, rest) := by
  have unquoted : ∀ c ∈ content, (!Text.isQuote c) = true := fun c member => by rw [bare c member]; rfl
  obtain ⟨front, back⟩ := cut_at (p := (!Text.isQuote ·)) unquoted (by rw [quote']; rfl) rest
  simp only [quoted?, front, back]
  rw [if_pos ⟨quote, full⟩]

theorem isBlank_of_isDigit {c : Char} (h : isDigit c = true) : isBlank c = false := by
  have alphanumeric := isAlphanumeric_of_isDigit h
  rw [isAlphanumeric_eq_within] at alphanumeric
  rw [isBlank_eq_within]
  exact within_apart (by decide +kernel) alphanumeric

theorem isDigit_of_isBlank {c : Char} (h : isBlank c = true) : isDigit c = false := by
  by_contra digit
  rw [isBlank_of_isDigit (Bool.of_not_eq_false digit)] at h
  cases h

theorem digits?_append {digits : Text} (full : digits ≠ []) (all : ∀ c ∈ digits, isDigit c = true) {c : Char}
    (ends : isDigit c = false) (rest : Text) : digits? (digits ++ c :: rest) = some (digits, c :: rest) := by
  obtain ⟨front, back⟩ := cut_at all ends rest
  rw [digits?, front, back, if_neg full]

theorem digits?_before {digits gap : Text} (full : digits ≠ []) (all : ∀ c ∈ digits, isDigit c = true)
    (blanks : IsBlanks gap) {mark : Char} (ends : isDigit mark = false) (rest : Text) :
    digits? (digits ++ (gap ++ mark :: rest)) = some (digits, gap ++ mark :: rest) := by
  cases gap with
  | nil => exact digits?_append full all ends rest
  | cons c gap => exact digits?_append full all (isDigit_of_isBlank (blanks c List.mem_cons_self)) _

def stringNames : List Text := ["ObjectId".toList, "ISODate".toList]

def integerNames : List Text := ["NumberLong".toList, "NumberInt".toList]

def timestampNames : List Text := ["Timestamp".toList]

section
variable {t : Text}

theorem opening?_eq_none_of_front {wanted : List Text} (apart : ∀ name ∈ wanted, ¬ name <+: t) :
    opening? wanted t = none := by
  by_contra opens
  obtain ⟨rest, opens⟩ := Option.ne_none_iff_exists'.mp opens
  obtain ⟨more, member, -⟩ := opens_of_opening? opens
  exact apart _ member (List.prefix_append _ _)

theorem string?_eq_none (apart : ∀ name ∈ stringNames, ¬ name <+: t) : string? t = none := by
  rw [string?, ← stringNames, opening?_eq_none_of_front apart]
  rfl

theorem integer?_eq_none (apart : ∀ name ∈ integerNames, ¬ name <+: t) : integer? t = none := by
  rw [integer?, ← integerNames, opening?_eq_none_of_front apart]
  rfl

theorem timestamp?_eq_none (apart : ∀ name ∈ timestampNames, ¬ name <+: t) : timestamp? t = none := by
  rw [timestamp?, ← timestampNames, opening?_eq_none_of_front apart]
  rfl

end

section
variable {call digits : Text}

theorem string?_call {q q' : Char} {content : Text} (quote : Text.isQuote q = true) (quote' : Text.isQuote q' = true)
    (full : content ≠ []) (bare : ∀ c ∈ content, Text.isQuote c = false)
    (h : Call stringNames (q :: (content ++ [q'])) call) (rest : Text) :
    string? (call ++ rest) = some ('"' :: content ++ ['"'], rest) := by
  obtain ⟨behind, blanks, opens⟩ := opening?_call (by decide) h (Text.isBlank_of_isQuote quote) rest
  have argument := quoted?_append quote quote' full bare (behind ++ ')' :: rest)
  rw [List.append_assoc, List.singleton_append] at opens
  rw [string?, ← stringNames, opens]
  simp only [Option.bind_eq_bind, Option.bind_some]
  rw [argument, Option.bind_some]
  simp only
  rw [closing?_behind blanks]
  rfl

theorem opening?_digits {wanted : List Text} (sub : wanted ⊆ names) {behind : Text} (full : digits ≠ [])
    (all : ∀ c ∈ digits, isDigit c = true) (h : Call wanted (digits ++ behind) call) (rest : Text) :
    ∃ gap, IsBlanks gap ∧ opening? wanted (call ++ rest) = some (digits ++ (behind ++ (gap ++ ')' :: rest))) := by
  obtain ⟨c, more, rfl⟩ := List.exists_cons_of_ne_nil full
  obtain ⟨gap, blanks, opens⟩ := opening?_call sub h (isBlank_of_isDigit (all c List.mem_cons_self)) rest
  refine ⟨gap, blanks, ?_⟩
  rw [opens]
  simp

theorem integer?_call (full : digits ≠ []) (all : ∀ c ∈ digits, isDigit c = true) (h : Call integerNames digits call)
    (rest : Text) : integer? (call ++ rest) = some (digits, rest) := by
  rw [← List.append_nil digits] at h
  obtain ⟨gap, blanks, opens⟩ := opening?_digits (by decide) full all h rest
  rw [integer?, ← integerNames, opens]
  simp only [Option.bind_eq_bind, Option.bind_some]
  rw [List.nil_append, digits?_before full all blanks (by decide), Option.bind_some]
  simp only
  rw [closing?_behind blanks]
  rfl

theorem timestamp?_call {gap gap' more : Text} (full : digits ≠ []) (all : ∀ c ∈ digits, isDigit c = true)
    (blanks : IsBlanks gap) (blanks' : IsBlanks gap') (full' : more ≠ []) (all' : ∀ c ∈ more, isDigit c = true)
    (h : Call timestampNames (digits ++ (gap ++ ',' :: (gap' ++ more))) call) (rest : Text) :
    timestamp? (call ++ rest) = some (digits, rest) := by
  obtain ⟨gap'', blanks'', opens⟩ := opening?_digits (by decide) full all h rest
  have comma := Lexer.dropWhile_blanks blanks (c := ',') (by decide) (gap' ++ (more ++ (gap'' ++ ')' :: rest)))
  have second : (gap' ++ (more ++ (gap'' ++ ')' :: rest))).dropWhile isBlank = more ++ (gap'' ++ ')' :: rest) := by
    obtain ⟨c, more, rfl⟩ := List.exists_cons_of_ne_nil full'
    exact Lexer.dropWhile_blanks blanks' (isBlank_of_isDigit (all' c List.mem_cons_self)) _
  simp only [List.append_assoc, List.cons_append] at opens
  rw [timestamp?, ← timestampNames, opens]
  simp only [Option.bind_eq_bind, Option.bind_some]
  rw [digits?_before full all blanks (by decide), Option.bind_some]
  simp only
  rw [comma, Lexer.isPrefixOf?_cons, Option.bind_some, second, digits?_before full' all' blanks'' (by decide),
    Option.bind_some]
  simp only
  rw [closing?_behind blanks'']
  rfl

end

/-! ## Exported documents -/

/--
Texts that a shell writes for a document, with what stands in the strings of the document. Any string that is not empty
and holds no quotes may be the argument of a call, and so may any digits; a time stamp has a second number.
-/
inductive Exported : List Text → Text → Text → Prop
  | nil : Exported [] [] []
  | structural {front : Text} {raws : List Text} {t w : Text} : (∀ c ∈ front, Json.isStructural c = true) →
      Exported raws t w → Exported raws (front ++ t) (front ++ w)
  | literal {raw : Text} {raws : List Text} {t w : Text} : Json.IsRaw raw → Exported raws t w →
      Exported (raw :: raws) ('"' :: (raw ++ '"' :: t)) ('"' :: (raw ++ '"' :: w))
  | string {q q' : Char} {raw call : Text} {raws : List Text} {t w : Text} : Text.isQuote q = true →
      Text.isQuote q' = true → Json.IsRaw raw → Json.contents raw ≠ [] →
      (∀ c ∈ Json.contents raw, Text.isQuote c = false) → Call stringNames (q :: (raw ++ [q'])) call →
      Exported raws t w → Exported (raw :: raws) ('"' :: (raw ++ '"' :: t)) (call ++ w)
  | integer {digits call : Text} {raws : List Text} {t w : Text} : digits ≠ [] → (∀ c ∈ digits, c.isDigit = true) →
      Call integerNames digits call → Exported raws t w → Exported raws (digits ++ t) (call ++ w)
  | timestamp {digits gap gap' more call : Text} {raws : List Text} {t w : Text} : digits ≠ [] →
      (∀ c ∈ digits, c.isDigit = true) → IsBlanks gap → IsBlanks gap' → more ≠ [] → (∀ c ∈ more, isDigit c = true) →
      Call timestampNames (digits ++ (gap ++ ',' :: (gap' ++ more))) call → Exported raws t w →
      Exported raws (digits ++ t) (call ++ w)

theorem laid_structural {front t : Text} {raws : List Text} (all : ∀ c ∈ front, Json.isStructural c = true)
    (laid : Json.Laid raws t) : Json.Laid raws (front ++ t) := by
  induction front with
  | nil => exact laid
  | cons c front ih =>
      obtain ⟨first, others⟩ := List.forall_mem_cons.mp all
      exact .structural first (ih others)

theorem Exported.laid {raws : List Text} {t w : Text} (h : Exported raws t w) : Json.Laid raws t := by
  induction h with
  | nil => exact .nil
  | structural all _ ih => exact laid_structural all ih
  | literal inside _ ih => exact .literal inside ih
  | string _ _ inside _ _ _ _ ih => exact .literal inside ih
  | integer _ all _ _ ih => exact laid_structural (fun c member => Json.structural_of_digit (all c member)) ih
  | timestamp _ all _ _ _ _ _ _ ih => exact laid_structural (fun c member => Json.structural_of_digit (all c member)) ih

theorem Rewrites.behind {rule : Text → Option (Text × Text)} {wanted : List Text}
    (needs : ∀ {t : Text}, (∀ name ∈ wanted, ¬ name <+: t) → rule t = none) {front t u : Text}
    (silent : Silent wanted front) (h : Rewrites rule t u) : Rewrites rule (front ++ t) (front ++ u) := by
  induction front with
  | nil => exact h
  | cons c front ih =>
      have here : rule (c :: (front ++ t)) = none :=
        needs (silent (c :: front) t (List.cons_ne_nil _ _) (List.suffix_refl _))
      refine .keep here (ih fun v rest full suffix => ?_)
      exact silent v rest full (suffix.trans (List.suffix_cons c front))

def Restores (w t : Text) : Prop :=
  ∃ u v, Rewrites string? w u ∧ Rewrites integer? u v ∧ Rewrites timestamp? v t

theorem Restores.clean_eq {w t : Text} (h : Restores w t) : clean w = t := by
  obtain ⟨u, v, strings, integers, timestamps⟩ := h
  rw [clean, strings.replace_eq, integers.replace_eq, timestamps.replace_eq]

section
variable {w t : Text}

theorem string_names : stringNames ⊆ names := by decide

theorem integer_names : integerNames ⊆ names := by decide

theorem timestamp_names : timestampNames ⊆ names := by decide

theorem Restores.behind {front : Text} (silent : Silent names front) (h : Restores w t) :
    Restores (front ++ w) (front ++ t) := by
  obtain ⟨u, v, strings, integers, timestamps⟩ := h
  exact ⟨front ++ u, front ++ v, strings.behind string?_eq_none (silent.mono string_names),
    integers.behind integer?_eq_none (silent.mono integer_names),
    timestamps.behind timestamp?_eq_none (silent.mono timestamp_names)⟩

theorem Call.ne_nil {wanted : List Text} {arguments call : Text} (h : Call wanted arguments call) : call ≠ [] := by
  cases h
  simp

theorem Restores.string {q q' : Char} {raw call : Text} (quote : Text.isQuote q = true)
    (quote' : Text.isQuote q' = true) (full : raw ≠ []) (bare : ∀ c ∈ raw, Text.isQuote c = false)
    (plain : ∀ name ∈ names, ¬ name <:+: raw) (called : Call stringNames (q :: (raw ++ [q'])) call)
    (h : Restores w t) : Restores (call ++ w) ('"' :: (raw ++ ['"']) ++ t) := by
  obtain ⟨u, v, strings, integers, timestamps⟩ := h
  have silent := silent_literal plain
  exact ⟨_, _, .swap called.ne_nil (string?_call quote quote' full bare called w) strings,
    integers.behind integer?_eq_none (silent.mono integer_names),
    timestamps.behind timestamp?_eq_none (silent.mono timestamp_names)⟩

theorem plain_digits {digits : Text} (all : ∀ c ∈ digits, isDigit c = true) : ∀ c ∈ digits, c ∉ initials :=
  fun c member => not_mem_of_class (by decide +kernel) (all c member)

theorem Restores.integer {digits call : Text} (full : digits ≠ []) (all : ∀ c ∈ digits, isDigit c = true)
    (called : Call integerNames digits call) (h : Restores w t) : Restores (call ++ w) (digits ++ t) := by
  obtain ⟨u, v, strings, integers, timestamps⟩ := h
  have plain := plain_digits all
  have silent := called.silent string_names integer_names (by decide) plain
  exact ⟨call ++ u, digits ++ v, strings.behind string?_eq_none silent,
    .swap called.ne_nil (integer?_call full all called u) integers,
    timestamps.behind timestamp?_eq_none ((silent_of_plain plain).mono timestamp_names)⟩

theorem Restores.timestamp {digits gap gap' more call : Text} (full : digits ≠ [])
    (all : ∀ c ∈ digits, isDigit c = true) (blanks : IsBlanks gap) (blanks' : IsBlanks gap') (full' : more ≠ [])
    (all' : ∀ c ∈ more, isDigit c = true) (called : Call timestampNames (digits ++ (gap ++ ',' :: (gap' ++ more))) call)
    (h : Restores w t) : Restores (call ++ w) (digits ++ t) := by
  obtain ⟨u, v, strings, integers, timestamps⟩ := h
  have plain : ∀ c ∈ digits ++ (gap ++ ',' :: (gap' ++ more)), c ∉ initials := by
    simp only [List.forall_mem_append, List.forall_mem_cons]
    exact ⟨plain_digits all, plain_blanks blanks, by decide, plain_blanks blanks', plain_digits all'⟩
  have silent {wanted : List Text} (sub : wanted ⊆ names) (apart : ∀ name ∈ timestampNames, name ∉ wanted) :
      Silent wanted call := called.silent sub timestamp_names apart plain
  exact ⟨call ++ u, call ++ v, strings.behind string?_eq_none (silent string_names (by decide)),
    integers.behind integer?_eq_none (silent integer_names (by decide)),
    .swap called.ne_nil (timestamp?_call full all blanks blanks' full' all' called v) timestamps⟩

end

theorem ne_nil_of_contents {raw : Text} (full : Json.contents raw ≠ []) : raw ≠ [] := by
  rintro rfl
  exact full rfl

theorem bare_of_contents {raw : Text} (inside : Json.IsRaw raw)
    (bare : ∀ c ∈ Json.contents raw, Text.isQuote c = false) : ∀ c ∈ raw, Text.isQuote c = false := by
  intro c member
  rcases Json.spells_contents inside with same | spells
  · rw [same] at bare
    exact bare c member
  · by_contra quote
    have quote : Text.isQuote c = true := Bool.of_not_eq_false quote
    rw [bare c (spells.quote_mem quote member)] at quote
    cases quote

theorem plain_of_contents {raw : Text} (inside : Json.IsRaw raw)
    (plain : ∀ name ∈ names, ¬ name <:+: Json.contents raw) : ∀ name ∈ names, ¬ name <:+: raw := by
  intro name member within
  refine plain name member ?_
  rcases Json.spells_contents inside with same | spells
  · rw [same]
    exact within
  · obtain ⟨c, more, rfl, -, solid, noEscape, -⟩ := exists_initial member
    exact spells.infix_of_raw solid noEscape within

theorem isDigit_of_ascii {digits : Text} (all : ∀ c ∈ digits, c.isDigit = true) : ∀ c ∈ digits, isDigit c = true :=
  fun c member => by rw [isDigit, all c member, Bool.true_or]

theorem Exported.restores {raws : List Text} {t w : Text} (h : Exported raws t w)
    (plain : ∀ raw ∈ raws, ∀ name ∈ names, ¬ name <:+: raw) : Restores w t := by
  have literal (raw t : Text) : '"' :: (raw ++ '"' :: t) = '"' :: (raw ++ ['"']) ++ t := by simp
  induction h with
  | nil => exact ⟨[], [], .nil, .nil, .nil⟩
  | @structural front raws t w all _ ih =>
      have silent : Silent names front :=
        silent_of_plain fun c member => not_mem_of_class (by decide) (all c member)
      exact (ih plain).behind silent
  | @literal raw raws t w _ _ ih =>
      obtain ⟨here, later⟩ := List.forall_mem_cons.mp plain
      rw [literal raw t, literal raw w]
      exact (ih later).behind (silent_literal here)
  | string quote quote' inside full bare called _ ih =>
      obtain ⟨here, later⟩ := List.forall_mem_cons.mp plain
      rw [literal]
      exact (ih later).string quote quote' (ne_nil_of_contents full) (bare_of_contents inside bare) here called
  | integer full all called _ ih => exact (ih plain).integer full (isDigit_of_ascii all) called
  | timestamp full all blanks blanks' full' all' called _ ih =>
      exact (ih plain).timestamp full (isDigit_of_ascii all) blanks blanks' full' all' called

end ShellLiteral

open ShellLiteral in
/-- A document whose strings hold no name of a constructor is loaded as it is read, however a shell writes it. -/
theorem readDocument_exported {raws : List Text} {t w : Text} {entries : Entries}
    (valid : Json.read? t = some (.object entries))
    (plain : ∀ raw ∈ raws, ∀ name ∈ names, ¬ name <:+: Json.contents raw) (exported : Exported raws t w) :
    readDocument .json w = .ok (.object entries) := by
  have plain' : ∀ raw ∈ raws, ∀ name ∈ names, ¬ name <:+: raw :=
    fun raw member => plain_of_contents (exported.laid.isRaw raw member) (plain raw member)
  have clean := (exported.restores plain').clean_eq
  simp only [readDocument, clean, valid]

def shelf : Text := "\x7b\"id\":\"5f\",\"on\":[\"a\\n\"]\x7d".toList

def shelfExport : Text := "\x7b\"id\":ObjectId ( '5f\" ),\"on\":[ISODate(\"a\\n\")]\x7d".toList

def shelfEntries : Entries := [("id".toList, .text "5f".toList), ("on".toList, .array [.text "a\n".toList])]

open ShellLiteral in
theorem exported_shelf : Exported ["id".toList, "5f".toList, "on".toList, "a\\n".toList] shelf shelfExport := by
  have space : IsBlanks [' '] := by decide
  have none := isBlanks_nil
  have structural {front : Text} (h : front.all Json.isStructural = true) : ∀ c ∈ front, Json.isStructural c = true :=
    List.all_eq_true.mp h
  have raw {t : Text} (h : (t.all fun c => c ≠ '"' ∧ c ≠ '\\') = true) : Json.IsRaw t := by
    induction t with
    | nil => exact .nil
    | cons c t ih =>
        simp only [List.all_cons, Bool.and_eq_true, decide_eq_true_eq] at h
        exact .plain h.1.1 h.1.2 (ih h.2)
  have five : Json.contents "5f".toList = "5f".toList := rfl
  have line : Json.contents "a\\n".toList = "a\n".toList := rfl
  have unquoted {t s : Text} (same : Json.contents t = s) (h : (s.all fun c => !Text.isQuote c) = true) :
      ∀ c ∈ Json.contents t, Text.isQuote c = false := by
    rw [same]
    simpa using h
  have called : Call stringNames ('\'' :: ("5f".toList ++ ['"'])) _ :=
    .mk (by decide : "ObjectId".toList ∈ stringNames) space space space
  have dated : Call stringNames ('"' :: ("a\\n".toList ++ ['"'])) _ :=
    .mk (by decide : "ISODate".toList ∈ stringNames) none none none
  have closes : Exported [] ("]\x7d".toList ++ []) ("]\x7d".toList ++ []) := .structural (structural (by decide)) .nil
  have escaped : Json.IsRaw "a\\n".toList := .plain (by decide) (by decide) (.escaped .nil)
  have last := Exported.string rfl rfl escaped (by decide) (unquoted line (by decide)) dated closes
  have opens := Exported.structural (structural (by decide : ":[".toList.all Json.isStructural = true)) last
  have on := Exported.literal (raw (by decide : ("on".toList.all fun c => c ≠ '"' ∧ c ≠ '\\') = true)) opens
  have comma := Exported.structural (structural (by decide : ",".toList.all Json.isStructural = true)) on
  have first := Exported.string rfl rfl (raw (by decide)) (by decide) (unquoted five (by decide)) called comma
  have colon := Exported.structural (structural (by decide : ":".toList.all Json.isStructural = true)) first
  have id := Exported.literal (raw (by decide : ("id".toList.all fun c => c ≠ '"' ∧ c ≠ '\\') = true)) colon
  have whole := Exported.structural (structural (by decide : "\x7b".toList.all Json.isStructural = true)) id
  convert whole using 1
  · decide +kernel
  · decide +kernel

theorem readDocument_exported_shelf :
    (Json.read? shelf = some (.object shelfEntries) ∧
      (∀ raw ∈ ["id".toList, "5f".toList, "on".toList, "a\\n".toList], ∀ name ∈ ShellLiteral.names,
        ¬ name <:+: Json.contents raw) ∧
      ShellLiteral.Exported ["id".toList, "5f".toList, "on".toList, "a\\n".toList] shelf shelfExport) ∧
    readDocument .json shelfExport = .ok (.object shelfEntries) := by
  have valid : Json.read? shelf = some (.object shelfEntries) := by decide +kernel
  have plain : ∀ raw ∈ ["id".toList, "5f".toList, "on".toList, "a\\n".toList], ∀ name ∈ ShellLiteral.names,
      ¬ name <:+: Json.contents raw := by decide
  exact ⟨⟨valid, plain, exported_shelf⟩, readDocument_exported valid plain exported_shelf⟩

theorem readDocument_replaced :
    Json.read? "\x7b\"a\":\"ObjectId('x')\",\"a\":\"y\"\x7d".toList = some (.object [("a".toList, .text "y".toList)]) ∧
    readDocument .json "\x7b\"a\":\"ObjectId('x')\",\"a\":\"y\"\x7d".toList = .error (.format .jsonData) := by
  have spoiled : Json.read? (ShellLiteral.clean "\x7b\"a\":\"ObjectId('x')\",\"a\":\"y\"\x7d".toList) = none := by
    decide +kernel
  refine ⟨by decide +kernel, ?_⟩
  simp only [readDocument, spoiled]

end TextTemplate
