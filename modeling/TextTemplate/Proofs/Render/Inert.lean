import TextTemplate.Proofs.Block.Agreement
import TextTemplate.Proofs.Block.Extent
import TextTemplate.Proofs.Render.Lenient

namespace TextTemplate
open Token

def Lexeme.isInert : Lexeme → Bool
  | .interpolation _ => false
  | .binding _ _ => false
  | _ => true

namespace Builder

theorem step_inert {b c : Builder} {token : Token} (top : b.levels = []) (inert : token.lexeme.isInert = true)
    (inside : token.lexeme ≠ .endOfText) (taken : b.step false token false = .ok c) :
    c.levels = [] ∧ c.nodes = pushText token.source b.nodes := by
  obtain ⟨nodes, levels, demoted⟩ := b
  obtain ⟨l, position, raw⟩ := token
  subst top
  cases l with
  | interpolation source => cases inert
  | binding name expression => cases inert
  | endOfText => exact absurd rfl inside
  | _ =>
      cases taken
      exact ⟨rfl, rfl⟩

theorem Reads.inert {b c : Builder} {tokens left : List Token} (run : Reads false b tokens c left) :
    left = [] → b.levels = [] → (∀ token ∈ tokens, token.lexeme.isInert = true ∧ token.lexeme ≠ .endOfText) →
      (∀ token rest, token :: rest <:+ tokens → opened token rest = none) →
      c.nodes = pushText (tokens.flatMap Token.source) b.nodes := by
  induction run with
  | refl b tokens =>
      rintro rfl - - -
      rw [List.flatMap_nil, pushText_nil]
  | @step b next c token rest left taken _ ih =>
      intro done top inert unclosed
      rw [unclosed token rest List.suffix_rfl] at taken
      obtain ⟨own, inside⟩ := inert token List.mem_cons_self
      obtain ⟨top', nodes⟩ := step_inert top own inside taken
      have later := ih done top' (fun other member => inert other (.tail _ member))
        fun other more part => unclosed other more (part.trans (List.suffix_cons token rest))
      rw [later, nodes, List.flatMap_cons, pushText_append]

end Builder

open Builder Descent

theorem Lexer.Tiles.source_end {p : Position} {tokens : List Token} {t : Text} (h : Tiles p tokens t) :
    ∀ token ∈ tokens, token.lexeme = .endOfText → token.source = [] := by
  induction h with
  | stop p =>
      rintro token member -
      rw [List.mem_singleton.mp member]
      rfl
  | text _ _ _ ih => exact List.forall_mem_cons.mpr ⟨nofun, ih⟩
  | tag isTag _ ih =>
      refine List.forall_mem_cons.mpr ⟨?_, ih⟩
      rintro rfl
      cases isTag

theorem source_upToEnd (template : Text) : (upToEnd (Token.scan template)).flatMap Token.source = template := by
  have tiles := Lexer.tiles_scan template
  obtain ⟨front, stop, split, ends, inside⟩ := tiles.ends
  have nothing : stop.source = [] := tiles.source_end stop (by rw [split]; exact List.mem_concat_self) ends
  have before : upToEnd (Token.scan template) = front := by
    rw [upToEnd, split, List.takeWhile_append_of_pos fun token member => by simpa using inside token member]
    simp [ends]
  have whole := tiles.source_eq
  rw [split, List.flatMap_append, List.flatMap_singleton, nothing, List.append_nil] at whole
  rw [before, whole]

theorem opened_of_unclosed {tokens rest : List Token} {token : Token}
    (unclosed : ∀ found ∈ closings tokens, found = none) (part : token :: rest <:+ upToEnd tokens) :
    opened token rest = none := by
  have at_ := List.suffix_iff_eq_drop.mp part
  have inside := lt_length_of_drop at_.symm
  refine Option.eq_none_iff_forall_ne_some.mpr fun us found => ?_
  have record := closings_getElem? at_.symm
  rw [← closings_upToEnd inside, found] at record
  cases unclosed _ (List.mem_of_getElem? record)

theorem pushText_single {t : Text} (full : t ≠ []) : pushText t [] = [.text t] := by simp [pushText, full]

theorem reverse_pushText (t : Text) : (pushText t []).reverse = pushText t [] := by
  by_cases empty : t = []
  · rw [empty, pushText_nil, List.reverse_nil]
  · rw [pushText_single empty, List.reverse_singleton]

theorem ofTokens_inert {template : Text} (inert : ∀ token ∈ Token.scan template, token.lexeme.isInert = true)
    (unclosed : ∀ found ∈ closings (Token.scan template), found = none) :
    ∃ demoted, Block.ofTokens false (Token.scan template) = .ok (pushText template [], demoted) := by
  obtain ⟨c, run⟩ := reads_lenient .empty (upToEnd (Token.scan template))
  have members : ∀ token ∈ upToEnd (Token.scan template),
      token.lexeme.isInert = true ∧ token.lexeme ≠ .endOfText := fun token member =>
    ⟨inert token ((List.takeWhile_prefix _).subset member), upToEnd_inside _ token member⟩
  have nodes := run.inert rfl rfl members fun token rest part => opened_of_unclosed unclosed part
  rw [source_upToEnd] at nodes
  have block := (congrArg List.reverse nodes).trans (reverse_pushText template)
  exact ⟨_, Block.ofTokens_eq_ok.mpr ⟨c, run, block, rfl⟩⟩

/--
A template that holds no interpolation and no binding, and in which no opening tag is closed, passes through unchanged
for any data: texts, unfinished tags, opening tags without an end and all tags that belong inside directives stay as
they are written.
-/
theorem render_inert {template : Text} (inert : ∀ token ∈ Token.scan template, token.lexeme.isInert = true)
    (unclosed : ∀ found ∈ closings (Token.scan template), found = none) (data : Value) :
    render template data = template := by
  obtain ⟨demoted, read⟩ := ofTokens_inert inert unclosed
  rw [render_eq read, Lenient.text_block]
  by_cases empty : template = []
  · rw [empty, pushText_nil]
    rfl
  · rw [pushText_single empty]
    exact Lenient.text_nodes_single (.text template)

def misplaced : Text := "<if(a <for|x| of=xs>\r\n</if><else>$\x7b\x7d<else-if(b)>".toList

theorem render_inert_misplaced :
    (∀ token ∈ Token.scan misplaced, token.lexeme.isInert = true) ∧
      (∀ found ∈ closings (Token.scan misplaced), found = none) ∧ render misplaced (.array []) = misplaced := by
  have inert : ∀ token ∈ Token.scan misplaced, token.lexeme.isInert = true := by decide
  have unclosed : ∀ found ∈ closings (Token.scan misplaced), found = none := by decide
  exact ⟨inert, unclosed, render_inert inert unclosed (.array [])⟩

end TextTemplate
