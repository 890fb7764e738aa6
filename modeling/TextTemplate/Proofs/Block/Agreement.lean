import TextTemplate.Proofs.Block.Lossless
import TextTemplate.Proofs.Token.Tiling

namespace TextTemplate
open Token

namespace Builder

variable {b c inner : Builder} {tokens left rest : List Token} {token : Token}

theorem run_of_refused {strict : Bool} {e : TemplateError} (before : Reads strict b tokens inner (token :: rest))
    (refused : inner.step strict token (opened token rest).isSome = .error e) :
    run strict b (marked tokens) = .error e := by
  generalize stop : token :: rest = left at before
  induction before with
  | refl =>
      subst stop
      rw [marked_cons]
      exact bind_eq_error.mpr (.inl refused)
  | step taken _ ih =>
      rw [marked_cons]
      exact bind_eq_error.mpr (.inr ⟨_, taken, ih refused stop⟩)

theorem Reads.demoted_suffix {strict : Bool} (run : Reads strict b tokens c left) : b.demoted <:+ c.demoted := by
  induction run with
  | refl => exact List.suffix_rfl
  | step taken _ ih =>
      rcases step_eq_ok.mp taken with ⟨-, rfl⟩ | ⟨problem, -, -, rfl⟩
      · rwa [accept_demoted] at ih
      · exact (List.suffix_cons _ _).trans ih

inductive Agrees (b : Builder) (tokens : List Token) (c : Builder) (left : List Token) : Prop
  | same : Reads true b tokens c left → c.demoted = b.demoted → Agrees b tokens c left
  | apart {inner : Builder} {token : Token} {rest : List Token} {problem : TagProblem} :
      Reads true b tokens inner (token :: rest) →
      inner.problem? (opened token rest).isSome token.lexeme = some problem →
      ⟨token, problem⟩ :: b.demoted <:+ c.demoted → Agrees b tokens c left

theorem Reads.agrees (run : Reads false b tokens c left) : Agrees b tokens c left := by
  induction run with
  | refl => exact .same (.refl _ _) rfl
  | @step b next c token rest left taken more ih =>
      rcases step_eq_ok.mp taken with ⟨fine, rfl⟩ | ⟨problem, found, -, rfl⟩
      · -- This step is the same in both modes, so the runs agree as they do behind it.
        have strictly : b.step true token (opened token rest).isSome = .ok (b.accept token) :=
          step_eq_ok.mpr (.inl ⟨fine, rfl⟩)
        cases ih with
        | same run quiet =>
            rw [accept_demoted] at quiet
            exact .same (.step strictly run) quiet
        | apart run found first =>
            rw [accept_demoted] at first
            exact .apart (.step strictly run) found first
      · exact .apart (.refl _ _) found more.demoted_suffix

end Builder

open Builder

def Block.unlessDemoted (block : Block) : List Demotion → Except TemplateError (Block × List Demotion)
  | [] => .ok (block, [])
  | ⟨token, problem⟩ :: _ => .error (.parse token.position token.lexeme problem)

theorem Block.ofTokens_strict {tokens : List Token} {block : Block} {demoted : List Demotion}
    (lenient : Block.ofTokens false tokens = .ok (block, demoted)) :
    Block.ofTokens true tokens = block.unlessDemoted demoted := by
  obtain ⟨c, run, rfl, rfl⟩ := Block.ofTokens_eq_ok.mp lenient
  cases run.agrees with
  | same strictly quiet =>
      have none_demoted : c.demoted = [] := quiet
      rw [none_demoted]
      refine Block.ofTokens_eq_ok.mpr ⟨c, strictly, rfl, ?_⟩
      rw [none_demoted, List.reverse_nil]
  | @apart inner token rest problem before found first =>
      obtain ⟨later, split⟩ := first
      have refused : inner.step true token (opened token rest).isSome =
          .error (.parse token.position token.lexeme problem) := by
        rw [step, found]
        rfl
      have reversed : c.demoted.reverse = ⟨token, problem⟩ :: later.reverse := by
        rw [← split, List.reverse_append]
        rfl
      rw [reversed]
      exact bind_eq_error.mpr (.inl (run_of_refused before refused))

structure Block.Standing (tokens : List Token) (block : Block) (demoted : List Demotion)
    (standing : List (Token × Bool)) : Prop where
  all : standing.map Prod.fst = upToEnd tokens
  tags : ∀ token, (token, true) ∈ standing → token.lexeme.isLeaf = false
  texts : (standing.filter Prod.snd).map Prod.fst = demoted.map Demotion.token
  spelled : Node.scripts block = (Script.ofTokens standing).trimmed

theorem Block.exists_standing (tokens : List Token) :
    ∃ block demoted standing, Block.ofTokens false tokens = .ok (block, demoted) ∧
      Standing tokens block demoted standing := by
  obtain ⟨c, run⟩ := reads_lenient .empty (upToEnd tokens)
  obtain ⟨standing, all, told⟩ := run.told told_empty
  rw [List.append_nil] at all
  rw [List.nil_append] at told
  have spells := told.spells
  rw [run.levels_eq_nil rfl] at spells
  cases spells with
  | top _ _ same =>
      exact ⟨_, _, standing, Block.ofTokens_eq_ok.mpr ⟨c, run, rfl, rfl⟩, all, told.tags, told.demoted, same⟩

namespace Block.Standing

variable {tokens : List Token} {block : Block} {demoted : List Demotion} {standing : List (Token × Bool)}

theorem demoted_eq_nil_iff (h : Standing tokens block demoted standing) :
    demoted = [] ↔ ∀ token, (token, true) ∉ standing := by
  rw [← List.map_eq_nil_iff, ← h.texts, List.map_eq_nil_iff, List.filter_eq_nil_iff]
  constructor
  · exact fun quiet token member => quiet (token, true) member rfl
  · rintro quiet ⟨token, asText⟩ member rfl
    exact quiet token member

theorem head_eq {before after : List (Token × Bool)} {token : Token}
    (h : Standing tokens block demoted (before ++ (token, true) :: after)) (quiet : ∀ entry ∈ before, entry.2 = false) :
    ∃ problem later, demoted = ⟨token, problem⟩ :: later := by
  have nothing : before.filter Prod.snd = [] := by
    rw [List.filter_eq_nil_iff]
    intro entry member
    rw [quiet entry member]
    exact Bool.false_ne_true
  have texts := h.texts
  rw [List.filter_append, nothing, List.nil_append] at texts
  cases demoted with
  | nil => cases texts
  | cons first later =>
      have same : token = first.token := (List.cons.inj texts).1
      exact ⟨first.problem, later, by rw [same]⟩

theorem place {template : Text} {before after : List (Token × Bool)} {token : Token}
    (h : Standing (Token.scan template) block demoted (before ++ (token, true) :: after)) :
    token.position = .behind ((before.map Prod.fst).flatMap source) ∧
      ∃ behind, template = (before.map Prod.fst).flatMap source ++ (token.raw ++ behind) := by
  obtain ⟨later, whole⟩ : upToEnd (Token.scan template) <+: Token.scan template := List.takeWhile_prefix _
  rw [← h.all, List.map_append, List.map_cons, List.append_assoc, List.cons_append] at whole
  have tag := h.tags token (List.mem_append_right _ List.mem_cons_self)
  have own : token.source = token.raw := by
    obtain ⟨l, position, raw⟩ := token
    cases l <;> first | rfl | cases tag
  rw [← own]
  exact ⟨Lexer.position_scan whole.symm, _, Lexer.source_scan whole.symm⟩

end Block.Standing

/--
Where strict reading gives a block it is the one that lenient reading gives. It fails exactly if a tag stands as its
characters there, and then with the place and the spelling of the first such tag, which for the tokens of a template is
where its characters begin.
-/
theorem strict_agrees_lenient (tokens : List Token) :
    ∃ block demoted standing, Block.ofTokens false tokens = .ok (block, demoted) ∧
      Block.Standing tokens block demoted standing ∧
      (∀ tree notes, Block.ofTokens true tokens = .ok (tree, notes) → tree = block ∧ notes = []) ∧
      ((∃ e, Block.ofTokens true tokens = .error e) ↔ ∃ token, (token, true) ∈ standing) ∧
      ∀ before token after, standing = before ++ (token, true) :: after → (∀ entry ∈ before, entry.2 = false) →
        ∃ problem, demoted.head? = some ⟨token, problem⟩ ∧
          Block.ofTokens true tokens = .error (.parse token.position token.lexeme problem) ∧
          (TemplateError.parse token.position token.lexeme problem).message =
            "Parse error at line " ++ toString token.position.line ++ ", column " ++ toString token.position.column ++
              ": " ++ (String.ofList token.lexeme.shown ++ " " ++ problem.message) ∧
          ∀ template, tokens = Token.scan template →
            token.position = .behind ((before.map Prod.fst).flatMap source) ∧
              ∃ behind, template = (before.map Prod.fst).flatMap source ++ (token.raw ++ behind) := by
  obtain ⟨block, demoted, standing, lenient, stand⟩ := Block.exists_standing tokens
  have strictly := Block.ofTokens_strict lenient
  refine ⟨block, demoted, standing, lenient, stand, ?_, ?_, ?_⟩
  · intro tree notes parsed
    rw [strictly] at parsed
    cases demoted with
    | nil =>
        cases parsed
        exact ⟨rfl, rfl⟩
    | cons first later => cases parsed
  · rw [← not_iff_not, not_exists, not_exists, ← stand.demoted_eq_nil_iff, strictly]
    cases demoted with
    | nil => exact iff_of_true (fun e failed => nomatch failed) rfl
    | cons first later => exact iff_of_false (fun fine => fine _ rfl) (List.cons_ne_nil first later)
  · rintro before token after rfl quiet
    obtain ⟨problem, later, rfl⟩ := stand.head_eq quiet
    refine ⟨problem, rfl, strictly, rfl, ?_⟩
    rintro template rfl
    exact stand.place

end TextTemplate
