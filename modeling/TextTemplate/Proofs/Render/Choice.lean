import TextTemplate.Proofs.Block.Print
import TextTemplate.Proofs.Expr.Reading
import TextTemplate.Proofs.Render.Lenient

namespace TextTemplate
open Lexer

namespace Text

theorem Clear.behind_blanks {avoid : List Char} {before t : Text} (clear : Clear avoid (before ++ t))
    (blanks : IsBlanks before) : Clear avoid t := by
  induction before with
  | nil => exact clear
  | cons c before ih =>
      obtain ⟨blank, blanks⟩ := List.forall_mem_cons.mp blanks
      rw [List.cons_append] at clear
      generalize same : before ++ t = rest at clear
      cases clear with
      | plain _ _ clear =>
          rw [← same] at clear
          exact ih clear blanks
      | quoted quote _ _ =>
          rw [isBlank_of_isQuote quote] at blank
          cases blank

def quoted (t : Text) : Text := '\'' :: (t ++ ['\''])

theorem firm_quoted (t : Text) : Firm t.quoted :=
  ⟨⟨'\'', _, rfl, isBlank_of_isQuote rfl⟩, ⟨'\'' :: t, '\'', rfl, isBlank_of_isQuote rfl⟩⟩

end Text

theorem Operand.read_quoted (t : Text) : Operand.read t.quoted = .ok (.literal (.text t)) := by
  rw [Operand.read, Text.quoted, Operand.literal?_quoted rfl t.firm_quoted]

theorem Condition.read_trim {source : Text} (full : source.trim ≠ []) :
    Condition.read source.trim = Condition.read source := by
  obtain ⟨-, -, -, -, firm, -⟩ := Text.exists_firm full
  rw [Condition.read, firm.trim_eq, Condition.read]

theorem Expr.read_choice {condition yes : Text} (full : condition.trim ≠ []) (clear : condition.Clear ['?'])
    (plain : '\'' ∉ yes) (no : Text) :
    Expr.read (condition ++ (" ? ".toList ++ (yes.quoted ++ (" : ".toList ++ no.quoted)))) =
      (Condition.read condition).map fun test => .ternary test (.literal (.text yes)) (.literal (.text no)) := by
  -- The blanks before the condition are trimmed with the expression, those behind it with what stands before the `?`.
  obtain ⟨before, after, split, blanks, firm, blanks'⟩ := Text.exists_firm full
  have same := Condition.read_trim full
  generalize condition.trim = test at split firm same
  have space : IsBlanks [' '] := Lexer.isBlanks_space
  have behind : IsBlanks (after ++ [' ']) := Text.IsBlanks.append blanks' space
  have outside : (test ++ (after ++ [' '])).Clear ['?'] := by
    rw [split] at clear
    rw [← List.append_assoc]
    exact (clear.behind_blanks blanks).append ((Text.clear_blanks space).mono (by decide))
  have inside : yes.quoted.Clear [':'] := .quoted rfl plain .nil
  have parts := split?_choice firm behind outside space yes.firm_quoted inside space space no.firm_quoted
  generalize tailed : (after ++ [' ']) ++ '?' :: ([' '] ++ (yes.quoted ++ ([' '] ++ ':' :: ([' '] ++ no.quoted)))) =
    tail at parts
  have whole : condition ++ (" ? ".toList ++ (yes.quoted ++ (" : ".toList ++ no.quoted))) =
      before ++ (test ++ tail) := by
    rw [split, ← tailed]
    simp
  have solid : Text.Firm (test ++ tail) := by
    have joined : tail = (after ++ " ? ".toList ++ yes.quoted ++ " : ".toList) ++ no.quoted := by
      rw [← tailed]
      simp
    rw [joined]
    exact firm.between _ no.firm_quoted
  rw [whole, Expr.read]
  simp only [solid.trim_before blanks, parts, same, Operand.read_quoted]
  rw [if_neg solid.ne_nil]
  cases Condition.read condition <;> rfl

theorem Expr.render_texts (test : Condition) (ctx : Context) (yes no : Text) :
    (Expr.ternary test (.literal (.text yes)) (.literal (.text no))).render ctx =
      .ok (if test.eval ctx then yes else no) := by
  rw [Expr.render]
  split <;> rfl

def asConditional (condition whenTrue whenFalse : Text) : Text :=
  "<if(".toList ++ condition ++ ")>".toList ++ whenTrue ++ "<else>".toList ++ whenFalse ++ "</if>".toList

def asChoice (condition whenTrue whenFalse : Text) : Text :=
  "$\x7b".toList ++ condition ++ " ? '".toList ++ whenTrue ++ "' : '".toList ++ whenFalse ++ "'\x7d".toList

def Context.pick (ctx : Context) (condition whenTrue whenFalse : Text) : Text :=
  match Condition.read condition with
  | .ok test => if test.eval ctx then whenTrue else whenFalse
  | .error _ => []

theorem Lenient.text_alternative (ctx : Context) (condition : Text) (yes no : Block) (line place place' : Nat) :
    (branches 0 ctx line [.mk .first (some condition) yes place, .mk .otherwise none no place']).text =
      ctx.pick condition (block 1 ctx.enterBranch yes).text (block 1 ctx.enterBranch no).text := by
  have tested := @Context.test_some .first (by decide) ctx condition
  have room : ¬nestingMax ≤ 0 := by decide
  rw [Context.pick]
  cases read : Condition.read condition with
  | error fault =>
      rw [branches_of_error (tested.trans (by rw [read]; rfl))]
      rfl
  | ok test =>
      rw [read] at tested
      cases holds : test.eval ctx with
      | true =>
          rw [branches_of_true (tested.trans (congrArg Except.ok holds)), if_neg room]
          exact (if_pos holds).symm
      | false =>
          rw [branches_of_false (tested.trans (congrArg Except.ok holds)), branches_of_true rfl, if_neg room]
          exact (if_neg (Bool.eq_false_iff.mp holds)).symm

theorem render_of_phrases {ps : List Phrase} {template : Text} {stop : Position}
    (shallow : Phrase.nestingAll ps ≤ nestingMax)
    (scanned : Token.scan template = Phrase.yieldAll ps ++ [⟨.endOfText, stop, []⟩]) (data : Value) :
    render template data = (Lenient.block 0 (.ofRoot data.mapping) (Phrase.block ps)).text := by
  have ends : (Token.mk .endOfText stop []).lexeme = .endOfText := rfl
  have read := ofTokens_yieldAll shallow ends []
  rw [← scanned] at read
  exact render_eq (Block.ofTokens_lenient read) data

namespace Phrase

theorem nesting_ofText (t : Text) (position : Position) : nestingAll (ofText t position) = 0 := by
  have low := nestingAll_ofText t position []
  rwa [List.append_nil] at low

theorem text_ofText (depth : Nat) (ctx : Context) (t : Text) (position : Position) :
    (Lenient.block depth ctx (Phrase.block (ofText t position))).text = t := by
  rw [Phrase.block, ofText]
  split
  · rename_i empty
    exact empty.symm
  · rename_i full
    have merged : Block.merged (nodes [.text t ⟨position, []⟩]) = [.text t] := if_neg full
    rw [merged, Lenient.text_block, Lenient.text_nodes_single]
    rfl

end Phrase

section

variable {condition whenTrue whenFalse : Text}

theorem scan_asConditional (full : condition ≠ []) (inside : ')' ∉ condition)
    (plain : ∀ c ∈ whenTrue, isMark c = false) (plain' : ∀ c ∈ whenFalse, isMark c = false) :
    ∃ place p last q close stop, Token.scan (asConditional condition whenTrue whenFalse) =
      Phrase.yieldAll [.conditional condition place (Phrase.ofText whenTrue p)
        (.otherwise last (Phrase.ofText whenFalse q) close)] ++ [⟨.endOfText, stop, []⟩] := by
  have opening : (Lexeme.ifOpen condition).Spellable := ⟨full, inside⟩
  have assoc (a b c d e : Text) : a ++ b ++ c ++ d ++ e = a ++ (b ++ (c ++ (d ++ (e ++ [])))) := by
    simp only [List.append_assoc, List.append_nil]
  have written : asConditional condition whenTrue whenFalse = _ :=
    assoc (Lexeme.ifOpen condition).printed whenTrue Lexeme.otherwise.printed whenFalse Lexeme.ifClose.printed
  let start := Position.start.skip (Lexeme.ifOpen condition).printed
  let between := (start.skip whenTrue).skip Lexeme.otherwise.printed
  let behind := between.skip whenFalse
  refine ⟨⟨.start, (Lexeme.ifOpen condition).printed⟩, start, ⟨start.skip whenTrue, Lexeme.otherwise.printed⟩, between,
    ⟨behind, Lexeme.ifClose.printed⟩, behind.skip Lexeme.ifClose.printed, ?_⟩
  have ends : cut [] = [] := rfl
  calc Token.scan (asConditional condition whenTrue whenFalse)
    _ = assemble .start (cut (asConditional condition whenTrue whenFalse)) := rfl
    _ = _ := by
      rw [written, assemble_printed opening,
        Phrase.assemble_ofText plain (closed_printed (l := .otherwise) trivial _),
        assemble_printed (l := .otherwise) trivial,
        Phrase.assemble_ofText plain' (closed_printed (l := .ifClose) trivial _),
        assemble_printed (l := .ifClose) trivial, ends, assemble]
      simp only [Phrase.yieldAll, Phrase.yield, Phrase.yieldRest, List.append_assoc, List.cons_append, List.append_nil,
        List.nil_append]
      rfl

theorem render_asConditional (full : condition ≠ []) (inside : ')' ∉ condition)
    (plain : ∀ c ∈ whenTrue, isMark c = false) (plain' : ∀ c ∈ whenFalse, isMark c = false) (data : Value) :
    render (asConditional condition whenTrue whenFalse) data =
      (Context.ofRoot data.mapping).pick condition whenTrue whenFalse := by
  obtain ⟨place, p, last, q, close, stop, scanned⟩ := scan_asConditional full inside plain plain'
  have shallow : Phrase.nestingAll [.conditional condition place (Phrase.ofText whenTrue p)
      (.otherwise last (Phrase.ofText whenFalse q) close)] ≤ nestingMax := by
    simp [Phrase.nestingAll, Phrase.nesting, Phrase.nestingRest, Phrase.nesting_ofText, nestingMax]
  rw [render_of_phrases shallow scanned]
  generalize Context.ofRoot data.mapping = ctx
  calc (Lenient.block 0 ctx (Phrase.block [.conditional condition place (Phrase.ofText whenTrue p)
        (.otherwise last (Phrase.ofText whenFalse q) close)])).text
    _ = (Lenient.branches 0 ctx place.position.line
          [.mk .first (some condition) (Phrase.block (Phrase.ofText whenTrue p)) place.position.line,
            .mk .otherwise none (Phrase.block (Phrase.ofText whenFalse q)) last.position.line]).text :=
        List.append_nil _
    _ = ctx.pick condition whenTrue whenFalse := by
        rw [Lenient.text_alternative, Phrase.text_ofText, Phrase.text_ofText]

theorem scan_interpolation {source : Text} (body : IsBody '\x7d' source) :
    ∃ place stop, Token.scan (Lexeme.interpolation source).printed =
      Phrase.yieldAll [.interpolation source place] ++ [⟨.endOfText, stop, []⟩] := by
  have spelled : (Lexeme.interpolation source).Spellable := body
  have ends : cut [] = [] := rfl
  generalize written : (Lexeme.interpolation source).printed = tag
  refine ⟨⟨.start, tag⟩, Position.start.skip tag, ?_⟩
  calc Token.scan tag
    _ = assemble .start (cut (tag ++ [])) := by rw [List.append_nil]; rfl
    _ = _ := by
      rw [← written, assemble_printed spelled, ends, assemble]
      rfl

theorem scan_asChoice (inside : '\x7d' ∉ condition) (closed : '\x7d' ∉ whenTrue) (closed' : '\x7d' ∉ whenFalse) :
    ∃ place stop, Token.scan (asChoice condition whenTrue whenFalse) =
      Phrase.yieldAll [.interpolation
        (condition ++ (" ? ".toList ++ (whenTrue.quoted ++ (" : ".toList ++ whenFalse.quoted)))) place] ++
        [⟨.endOfText, stop, []⟩] := by
  generalize same : condition ++ (" ? ".toList ++ (whenTrue.quoted ++ (" : ".toList ++ whenFalse.quoted))) = source
  have body : IsBody '\x7d' source := by
    rw [← same]
    constructor
    · simp
    · simp [Text.quoted, inside, closed, closed']
  have written : asChoice condition whenTrue whenFalse = (Lexeme.interpolation source).printed := by
    have spelling : (Lexeme.interpolation source).printed = "$\x7b".toList ++ source ++ ['\x7d'] := rfl
    rw [spelling, ← same]
    simp [asChoice, Text.quoted]
  rw [written]
  exact scan_interpolation body

theorem render_asChoice (full : condition.trim ≠ []) (clear : condition.Clear ['?']) (inside : '\x7d' ∉ condition)
    (plain : '\'' ∉ whenTrue) (closed : '\x7d' ∉ whenTrue) (closed' : '\x7d' ∉ whenFalse) (data : Value) :
    render (asChoice condition whenTrue whenFalse) data =
      (Context.ofRoot data.mapping).pick condition whenTrue whenFalse := by
  obtain ⟨place, stop, scanned⟩ := scan_asChoice inside closed closed'
  have read := Expr.read_choice full clear plain whenFalse
  generalize condition ++ (" ? ".toList ++ (whenTrue.quoted ++ (" : ".toList ++ whenFalse.quoted))) = source
    at scanned read
  rw [render_of_phrases (Nat.zero_le _) scanned]
  generalize Context.ofRoot data.mapping = ctx
  calc (Lenient.block 0 ctx (Phrase.block [.interpolation source place])).text
    _ = (Lenient.node 0 ctx (.interpolation source place.position.line)).text := List.append_nil _
    _ = ctx.pick condition whenTrue whenFalse := by
        rw [Context.pick]
        cases test : Condition.read condition with
        | error fault =>
            rw [test] at read
            rw [Lenient.node_interpolation_of_error (by rw [read]; rfl)]
            rfl
        | ok c =>
            rw [test] at read
            have shows : (do (← Expr.read source).render ctx) = .ok (if c.eval ctx then whenTrue else whenFalse) := by
              rw [read, ← Expr.render_texts c ctx]
              rfl
            rw [Lenient.node_interpolation_of_ok shows]
            rfl

end

/-- A text that stands for itself in a template, and between single quotes in a tag. -/
def Text.Literal (t : Text) : Prop := '\'' ∉ t ∧ '\x7d' ∉ t ∧ '<' ∉ t ∧ '$' ∉ t

instance (t : Text) : Decidable t.Literal := inferInstanceAs (Decidable (_ ∧ _))

theorem Text.Literal.unmarked {t : Text} (literal : t.Literal) : ∀ c ∈ t, isMark c = false := by
  obtain ⟨-, -, angle, dollar⟩ := literal
  intro c member
  have noAngle : c ≠ '<' := fun same => angle (same ▸ member)
  have noDollar : c ≠ '$' := fun same => dollar (same ▸ member)
  simp [isMark, noAngle, noDollar]

/--
Conditionals and choices decide alike, whatever the condition is that they can both hold, and with a condition that
cannot be read both come to nothing.
-/
theorem render_choice (data : Value) {condition whenTrue whenFalse : Text} (full : condition.trim ≠ [])
    (inside : ')' ∉ condition ∧ '\x7d' ∉ condition) (balanced : Text.quoteBehind none condition = none)
    (single : Text.findOutsideQuotes condition ['?'] 0 = none) (literal : whenTrue.Literal)
    (literal' : whenFalse.Literal) :
    render (asConditional condition whenTrue whenFalse) data = render (asChoice condition whenTrue whenFalse) data ∧
      render (asChoice condition whenTrue whenFalse) data =
        (Context.ofRoot data.mapping).pick condition whenTrue whenFalse := by
  have clear : condition.Clear ['?'] := Text.clear_of_balanced 0 balanced (Option.map_eq_none_iff.mp single)
  have solid : condition ≠ [] := fun empty => full (by rw [empty]; rfl)
  have conditional := render_asConditional solid inside.1 literal.unmarked literal'.unmarked data
  have choice := render_asChoice full clear inside.2 literal.1 literal.2.1 literal'.2.1 data
  exact ⟨conditional.trans choice.symm, choice⟩

def asksTier : Text := "tier == '?:'".toList

theorem render_choice_asksTier :
    (asksTier.trim ≠ [] ∧ (')' ∉ asksTier ∧ '\x7d' ∉ asksTier) ∧ Text.quoteBehind none asksTier = none ∧
      Text.findOutsideQuotes asksTier ['?'] 0 = none ∧ Text.Literal "gold".toList ∧ Text.Literal "none".toList) ∧
    render (asConditional asksTier "gold".toList "none".toList) (.object [("tier".toList, .text "?:".toList)]) =
      "gold".toList := by
  have full : asksTier.trim ≠ [] := by decide
  have inside : ')' ∉ asksTier ∧ '\x7d' ∉ asksTier := by decide
  have balanced : Text.quoteBehind none asksTier = none := by decide
  have single : Text.findOutsideQuotes asksTier ['?'] 0 = none := by decide
  have literal : Text.Literal "gold".toList := by decide
  have literal' : Text.Literal "none".toList := by decide
  refine ⟨⟨full, inside, balanced, single, literal, literal'⟩, ?_⟩
  have alike := render_choice (.object [("tier".toList, .text "?:".toList)]) full inside balanced single literal
    literal'
  exact alike.1.trans (alike.2.trans rfl)

end TextTemplate
