import TextTemplate.Proofs.Render.Inert
import TextTemplate.Proofs.Render.Origin

namespace TextTemplate
open Lexer Builder Token

def Text.Begins (t : Text) (l : Lexeme) : Prop :=
  ∃ u more rest, u ≠ [] ∧ u <:+ t ∧ tag? (u ++ more) = some (l, rest)

namespace Text.Begins
variable {t : Text} {l : Lexeme}

theorem cons_iff {c : Char} :
    Begins (c :: t) l ↔ (∃ more rest, tag? (c :: t ++ more) = some (l, rest)) ∨ t.Begins l := by
  constructor
  · rintro ⟨u, more, rest, full, part, found⟩
    rcases List.suffix_cons_iff.mp part with rfl | part
    · exact .inl ⟨more, rest, found⟩
    · exact .inr ⟨u, more, rest, full, part, found⟩
  · rintro (⟨more, rest, found⟩ | ⟨u, more, rest, full, part, found⟩)
    · exact ⟨_, more, rest, List.cons_ne_nil c t, List.suffix_rfl, found⟩
    · exact ⟨u, more, rest, full, part.trans (List.suffix_cons c t), found⟩

theorem not_of_unmarked (h : t.Unmarked) : ¬ t.Begins l := by
  rintro ⟨u, more, rest, full, part, found⟩
  obtain ⟨c, u, rfl⟩ := List.exists_cons_of_ne_nil full
  rw [List.cons_append, tag?_plain (h c (part.subset List.mem_cons_self))] at found
  cases found

end Text.Begins

theorem Text.MadeOf.begins {own : List Text} {t : Text} (h : t.MadeOf own) {u rest : Text} {l : Lexeme}
    (part : u <:+ t) (found : tag? u = some (l, rest)) : ∃ s ∈ own, s.Begins l := by
  induction h with
  | nil =>
      rw [List.suffix_nil.mp part] at found
      cases found
  | @whole s t member _ ih =>
      obtain ⟨front, split⟩ := part
      rcases List.append_eq_append_iff.mp split with ⟨begun, rfl, rfl⟩ | ⟨later, rfl, rfl⟩
      · by_cases full : begun = []
        · rw [full] at ih
          exact ih List.suffix_rfl
        · exact ⟨front ++ begun, member, begun, t, rest, full, List.suffix_append front begun, found⟩
      · exact ih (List.suffix_append later u)
  | @char c t plain _ ih =>
      rcases List.suffix_cons_iff.mp part with rfl | part
      · rw [tag?_plain plain] at found
        cases found
      · exact ih part

theorem begins_of_scan {own : List Text} {template : Text} (made : template.MadeOf own) {token : Token}
    (scanned : token ∈ Token.scan template) (tag : token.lexeme.isTag = true) :
    ∃ s ∈ own, s.Begins token.lexeme := by
  obtain ⟨rest, form, part⟩ := exists_form_of_scan scanned tag
  exact made.begins part (tag?_of_form form)

namespace Builder

def Textual (b : Builder) : Prop := b.levels = [] ∧ b.nodes.any Node.isDirective = false

theorem any_pushText (t : Text) (nodes : List Node) :
    (pushText t nodes).any Node.isDirective = nodes.any Node.isDirective := by
  unfold pushText
  split
  · rfl
  · split
    · rfl
    · exact List.any_cons

theorem step_textual {b c : Builder} {token : Token} {closed : Bool} (taken : b.step false token closed = .ok c)
    (inside : token.lexeme ≠ .endOfText) (h : c.Textual) :
    b.Textual ∧ c.nodes = pushText token.source b.nodes := by
  obtain ⟨nodes, levels, demoted⟩ := b
  obtain ⟨l, position, raw⟩ := token
  obtain ⟨top, texts⟩ := h
  rcases step_eq_ok.mp taken with ⟨fine, rfl⟩ | ⟨problem, found, -, rfl⟩
  · cases l with
    | text content => exact ⟨⟨top, (any_pushText content nodes).symm.trans texts⟩, rfl⟩
    | endOfText => exact absurd rfl inside
    | interpolation source => cases texts
    | binding name expression => cases texts
    | forOpen index item path => cases top
    | ifOpen condition => cases top
    | _ =>
        -- What divides or closes belongs to an open directive, which stays open or becomes a node.
        rcases levels with _ | ⟨⟨_ | _, _, _⟩, _⟩ <;>
          first | cases fine; done | cases top; done | cases texts
  · have source : Token.source ⟨l, position, raw⟩ = raw := by
      cases l with
      | text content => cases found
      | _ => rfl
    rw [source]
    exact ⟨⟨top, (any_pushText raw nodes).symm.trans texts⟩, rfl⟩

theorem Reads.textual {b c : Builder} {tokens left : List Token} (run : Reads false b tokens c left) :
    left = [] → (∀ token ∈ tokens, token.lexeme ≠ .endOfText) → c.Textual →
      b.Textual ∧ c.nodes = pushText (tokens.flatMap Token.source) b.nodes := by
  induction run with
  | refl b tokens =>
      rintro rfl - textual
      rw [List.flatMap_nil, pushText_nil]
      exact ⟨textual, rfl⟩
  | @step b next c token rest left taken _ ih =>
      intro done inside textual
      obtain ⟨own, others⟩ := List.forall_mem_cons.mp inside
      obtain ⟨before, later⟩ := ih done others textual
      obtain ⟨begun, nodes⟩ := step_textual taken own before
      rw [later, nodes, List.flatMap_cons, pushText_append]
      exact ⟨begun, rfl⟩

end Builder

theorem Lenient.text_pushText (depth : Nat) (ctx : Context) (t : Text) : (nodes depth ctx (pushText t [])).text = t := by
  by_cases empty : t = []
  · rw [empty, pushText_nil]
    rfl
  · rw [pushText_single empty]
    exact text_nodes_single (.text t)

theorem Template.block_of_texts {template : Text} {t : Template} (parsed : parse false template = .ok t)
    (texts : t.hasDirectives = false) : t.block = pushText template [] := by
  obtain ⟨c, run, block, -⟩ := Block.ofTokens_eq_ok.mp (parse_eq_ok.mp parsed).1
  rw [hasDirectives, ← block, List.any_reverse] at texts
  have textual : c.Textual := ⟨run.levels_eq_nil rfl, texts⟩
  obtain ⟨-, nodes⟩ := run.textual rfl (upToEnd_inside _) textual
  rw [← block, nodes, source_upToEnd]
  exact reverse_pushText template

theorem render_of_texts {template : Text} {t : Template} (parsed : Template.parse false template = .ok t)
    (texts : t.hasDirectives = false) (data : Value) : render template data = template := by
  rw [render_eq (Template.parse_eq_ok.mp parsed).1, Lenient.text_block, Template.block_of_texts parsed texts]
  exact Lenient.text_pushText 0 _ template

/-- Texts in which no tag begins that takes effect by itself, and no two that take effect together. -/
structure Text.Idle (own : List Text) : Prop where
  inert : ∀ s ∈ own, ∀ l, s.Begins l → l.isInert = true
  unclosed : ∀ s ∈ own, ∀ t ∈ own, ∀ l, s.Begins l → l.awaits.isSome = true → ¬ t.Begins (closingOf l)

theorem isTag_of_awaits {l : Lexeme} (h : l.awaits.isSome = true) : l.isTag = true := by
  cases l <;> first | rfl | cases h

theorem isTag_closingOf (l : Lexeme) : (closingOf l).isTag = true := by cases l <;> rfl

theorem isInert_of_text {l : Lexeme} (h : l.isTag = false) : l.isInert = true := by
  cases l <;> first | rfl | cases h

theorem Text.MadeOf.texts {own : List Text} {template : Text} (made : template.MadeOf own) (idle : Text.Idle own)
    {t : Template} (parsed : Template.parse false template = .ok t) : t.hasDirectives = false := by
  have inert : ∀ token ∈ Token.scan template, token.lexeme.isInert = true := by
    intro token scanned
    cases tag : token.lexeme.isTag with
    | false => exact isInert_of_text tag
    | true =>
        obtain ⟨s, member, begins⟩ := begins_of_scan made scanned tag
        exact idle.inert s member _ begins
  have unclosed : ∀ found ∈ closings (Token.scan template), found = none := by
    intro found member
    by_contra closed
    obtain ⟨e, rfl⟩ := Option.ne_none_iff_exists'.mp closed
    obtain ⟨i, at_⟩ := List.mem_iff_getElem?.mp member
    obtain ⟨-, -, opening, closer, here, opens, there, closes⟩ := closer_of_closings at_
    obtain ⟨s, mem, begins⟩ := begins_of_scan made (List.mem_of_getElem? here) (isTag_of_awaits opens)
    obtain ⟨s', mem', ends⟩ := begins_of_scan made (List.mem_of_getElem? there) (closes ▸ isTag_closingOf _)
    exact idle.unclosed s mem s' mem' _ begins opens (closes ▸ ends)
  obtain ⟨demoted, read⟩ := ofTokens_inert inert unclosed
  have same := (Template.parse_eq_ok.mp parsed).1.symm.trans read
  rw [Except.ok.injEq, Prod.mk.injEq] at same
  rw [Template.hasDirectives, same.1, any_pushText]
  rfl

theorem Template.parse_lenient_ok (source : Text) : ∃ t, parse false source = .ok t := by
  obtain ⟨block, demoted, read⟩ := Block.ofTokens_lenient_ok (Token.scan source)
  exact ⟨⟨block, demoted, source.utf8Size⟩, parse_eq_ok.mpr ⟨read, rfl⟩⟩

/--
From data without marks, an output is made of texts of its template and characters that are no marks. So every tag in it
begins in a text of the template, never in a value, and rendering it again, with any data, returns it unchanged if it is
read without a directive. This is so whenever no tag that takes effect can begin in a text of the template.
-/
theorem render_again (template : Text) {data : Entries} (plain : Value.entriesUnmarked data = true) :
    ∃ first again, Template.parse false template = .ok first ∧
      Template.parse false (render template (.object data)) = .ok again ∧
      (render template (.object data)).MadeOf first.texts ∧
      (∀ token ∈ Token.scan (render template (.object data)), token.lexeme.isTag = true →
        ∃ s ∈ first.texts, s.Begins token.lexeme) ∧
      (again.hasDirectives = false →
        ∀ other, render (render template (.object data)) other = render template (.object data)) ∧
      (Text.Idle first.texts → again.hasDirectives = false) := by
  obtain ⟨first, parsed⟩ := Template.parse_lenient_ok template
  obtain ⟨again, reparsed⟩ := Template.parse_lenient_ok (render template (.object data))
  have made := render_madeOf parsed plain
  refine ⟨first, again, parsed, reparsed, made, fun token scanned tag => begins_of_scan made scanned tag, ?_, ?_⟩
  · exact fun texts other => render_of_texts reparsed texts other
  · exact fun idle => made.texts idle reparsed

def tom : Entries := [("name".toList, .text "Tom".toList)]

def stray : Text := "Hi $\x7bname\x7d</if>".toList

theorem idle_stray : Text.Idle ["Hi ".toList, "</if>".toList] := by
  have only : ∀ s ∈ ["Hi ".toList, "</if>".toList], ∀ l, Text.Begins s l → l = .ifClose := by
    intro s member l begins
    rcases List.mem_pair.mp member with rfl | rfl
    · exact absurd begins (Text.Begins.not_of_unmarked (by decide))
    · rcases Text.Begins.cons_iff.mp begins with ⟨more, rest, found⟩ | later
      · have closing := tag?_shown (l := .ifClose) trivial more
        exact (Prod.mk.inj (Option.some.inj (found.symm.trans closing))).1
      · exact absurd later (Text.Begins.not_of_unmarked (by decide))
  constructor
  · intro s member l begins
    rw [only s member l begins]
    rfl
  · intro s member t _ l begins opens
    rw [only s member l begins] at opens
    cases opens

theorem render_again_stray :
    Value.entriesUnmarked tom = true ∧ render stray (.object tom) = "Hi Tom</if>".toList ∧
      ∀ other, render "Hi Tom</if>".toList other = "Hi Tom</if>".toList := by
  have plain : Value.entriesUnmarked tom = true := by decide
  have shown : render stray (.object tom) = "Hi Tom</if>".toList := by decide +kernel
  have held : (Template.parse false stray).toOption.map Template.texts = some ["Hi ".toList, "</if>".toList] := by
    decide +kernel
  obtain ⟨first, again, parsed, -, -, -, unchanged, idle⟩ := render_again stray plain
  rw [parsed] at held
  have texts : first.texts = ["Hi ".toList, "</if>".toList] := Option.some.inj held
  rw [shown] at unchanged
  exact ⟨plain, shown, unchanged (idle (texts ▸ idle_stray))⟩

def seam : Text := "$<let v=$\x7bx\x7d>\x7bname\x7d".toList

theorem render_seam :
    Value.entriesUnmarked tom = true ∧ render seam (.object tom) = "$\x7bname\x7d".toList ∧
      render (render seam (.object tom)) (.object tom) = "Tom".toList := by
  exact ⟨by decide, by decide +kernel, by decide +kernel⟩

end TextTemplate
