import TextTemplate.Proofs.Token.Form

namespace TextTemplate

def Lexeme.Spellable : Lexeme → Prop
  | .text _ => False
  | .interpolation source => source ≠ [] ∧ '\x7d' ∉ source
  | .forOpen index item path => (∀ name ∈ index, IsName name) ∧ IsName item ∧ IsPath path
  | .forClose => True
  | .ifOpen condition => condition ≠ [] ∧ ')' ∉ condition
  | .elseIf condition => condition ≠ [] ∧ ')' ∉ condition
  | .otherwise => True
  | .ifClose => True
  | .binding name expression => IsName name ∧ expression ≠ [] ∧ '\x7d' ∉ expression
  | .endOfText => False

namespace Lexer

theorem isBlanks_space : IsBlanks [' '] := by
  intro c member
  rw [List.mem_singleton.mp member]
  decide +kernel

theorem form_forOpen {index : Option Text} {item path : Text} (h : (Lexeme.forOpen index item path).Spellable)
    (rest : Text) : (Lexeme.forOpen index item path).Form (Lexeme.forOpen index item path).shown rest := by
  obtain ⟨indexed, named, isPath⟩ := h
  have form {names : Text} (spelled : IsNames index item names) :
      (Lexeme.forOpen index item path).Form ("<for|".toList ++ (names ++ ("| of=".toList ++ (path ++ ['>'])))) rest :=
    .forOpen isBlanks_nil spelled isBlanks_space (List.cons_ne_nil _ _) (.inl rfl) isPath (.inl rfl)
  cases index with
  | none =>
      have parts : (Lexeme.forOpen none item path).shown =
          "<for|".toList ++ item ++ "| of=".toList ++ path ++ ['>'] := rfl
      simp only [parts, List.append_assoc]
      exact form (.item named)
  | some name =>
      rw [show (Lexeme.forOpen (some name) item path).shown =
        "<for|".toList ++ name ++ ", ".toList ++ item ++ "| of=".toList ++ path ++ ['>'] from rfl]
      have whole := form (.indexed (indexed name rfl) isBlanks_space named)
      simp only [List.append_assoc] at whole ⊢
      exact whole

theorem form_binding {name expression taken rest : Text} (h : (Lexeme.binding name expression).Spellable)
    (takes : TakesBreak taken rest) :
    (Lexeme.binding name expression).Form ((Lexeme.binding name expression).shown ++ taken) rest := by
  rw [show (Lexeme.binding name expression).shown =
    "<let ".toList ++ name ++ "=$\x7b".toList ++ expression ++ "\x7d>".toList from rfl]
  simp only [List.append_assoc]
  exact .binding isBlanks_space (List.cons_ne_nil _ _) h.1 isBlanks_nil isBlanks_nil h.2 takes

theorem tag?_shown {l : Lexeme} (h : l.Spellable) (rest : Text) :
    tag? (l.shown ++ rest) =
      some (l, match l with
        | .binding _ _ => rest.dropFirstBreak
        | _ => rest) := by
  cases l with
  | text content => cases h
  | endOfText => cases h
  | forClose => exact tag?_of_form .forClose
  | otherwise => exact tag?_of_form .otherwise
  | ifClose => exact tag?_of_form .ifClose
  | interpolation source =>
      have form : (Lexeme.interpolation source).Form _ rest := .interpolation h
      rw [← List.append_assoc] at form
      exact tag?_of_form form
  | ifOpen condition =>
      have form : (Lexeme.ifOpen condition).Form _ rest := .ifOpen h
      rw [← List.append_assoc] at form
      exact tag?_of_form form
  | elseIf condition =>
      have form : (Lexeme.elseIf condition).Form _ rest := .elseIf h
      rw [← List.append_assoc] at form
      exact tag?_of_form form
  | forOpen index item path => exact tag?_of_form (form_forOpen h rest)
  | binding name expression =>
      obtain ⟨taken, takes, split⟩ := exists_break rest
      have found := tag?_of_form (form_binding h takes)
      rwa [List.append_assoc, ← split] at found

def isMark (c : Char) : Bool := c = '<' || c = '$'

theorem tag?_plain {c : Char} (plain : isMark c = false) (rest : Text) : tag? (c :: rest) = none := by
  obtain ⟨angle, dollar⟩ : c ≠ '<' ∧ c ≠ '$' := by simpa [isMark] using plain
  have other : ∀ opening more, opening ≠ c → (opening :: more).isPrefixOf? (c :: rest) = none := by
    intro opening more different
    simp [List.isPrefixOf?, different]
  have noLoop : for? (c :: rest) = none := by
    rw [for?, show "<for".toList.isPrefixOf? (c :: rest) = none from other _ _ angle.symm]
    rfl
  have noBinding : letHead? (c :: rest) = none := by
    rw [letHead?, show "<let".toList.isPrefixOf? (c :: rest) = none from other _ _ angle.symm]
    rfl
  rw [tag?_of_named, noLoop, noBinding]
  · rfl
  · simp only [List.forall_mem_cons]
    exact ⟨other _ _ dollar.symm, other _ _ angle.symm, other _ _ angle.symm, other _ _ angle.symm,
      other _ _ angle.symm, other _ _ angle.symm, List.forall_mem_nil _⟩

theorem cut_plain {t : Text} (plain : ∀ c ∈ t, isMark c = false) (rest : Text) :
    cut (t ++ rest) = t.map .char ++ cut rest := by
  induction t with
  | nil => rfl
  | cons c t ih =>
      rw [List.forall_mem_cons] at plain
      rw [List.cons_append, cut_of_char (tag?_plain plain.1 _), ih plain.2]
      rfl

end Lexer

end TextTemplate
