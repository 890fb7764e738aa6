import TextTemplate.Proofs.Context.History
import TextTemplate.Proofs.Expr.Name
import TextTemplate.Proofs.Render.Choice
import TextTemplate.Proofs.Render.Nesting

namespace TextTemplate
open Lexer

theorem Context.resolve_single (ctx : Context) (n : Text) : ctx.resolve ⟨[n]⟩ = ctx.get? n := by
  have whole : ctx.resolve ⟨[n]⟩ = (ctx.get? n).bind (Value.walk? · []) := rfl
  rw [whole]
  cases ctx.get? n <;> rfl

theorem Value.display_ofNat (n : Nat) : display (some (ofNat n)) = Text.ofNat n := by
  have positive : ¬ (n : Int) < 0 := Int.not_lt.mpr (Int.natCast_nonneg n)
  have digits : Text.ofInt n = Text.ofNat n := by rw [Text.ofInt, if_neg positive, Int.natAbs_natCast]
  exact digits

theorem Expr.exists_value {ctx : Context} {e : Expr} {t : Text} (shows : e.render ctx = .ok t) :
    ∃ v, e.value ctx = .ok v ∧ Value.display (some v) = t := by
  cases e with
  | operand o =>
      obtain rfl := Except.ok.inj shows
      refine ⟨_, rfl, ?_⟩
      cases o.eval ctx <;> rfl
  | condition c =>
      obtain rfl := Except.ok.inj shows
      refine ⟨_, rfl, ?_⟩
      cases c.eval ctx <;> rfl
  | ternary c whenTrue whenFalse =>
      refine ⟨.text t, ?_, rfl⟩
      rw [value, show (if c.eval ctx then whenTrue else whenFalse).branchText ctx = .ok t from shows]
      rfl

theorem Expr.exists_value_of_source {ctx : Context} {source t : Text}
    (shows : (do (← Expr.read source).render ctx) = .ok t) :
    ∃ v, (do (← Expr.read source).value ctx) = .ok v ∧ Value.display (some v) = t := by
  cases read : Expr.read source with
  | error fault =>
      rw [read] at shows
      cases shows
  | ok e =>
      rw [read] at shows
      exact e.exists_value shows

namespace Render
open Context Progress

section

variable {strict : Bool} {depth : Nat} {n source t : Text} {line line' : Nat} {s : Progress}

theorem node_interpolation (shows : (do (← Expr.read source).render s.context) = .ok t) :
    (node strict depth (.interpolation source line) s).1 = .ok t := by
  let counted : Progress := { s with stats := { s.stats with interpolations := s.stats.interpolations + 1 } }
  have begun : count (fun stats => { stats with interpolations := stats.interpolations + 1 }) s = (.ok (), counted) := rfl
  have looked : Render.context counted = (.ok s.context, counted) := rfl
  have shown : ofExpr (do (← Expr.read source).render s.context) counted = (.ok t, counted) := by
    rw [shows]
    rfl
  have own : interpolate source s = (.ok t, counted) := by
    rw [interpolate, bind_of_ok begun, bind_of_ok looked, shown]
  rw [node, recover_of_ok own]

theorem block_interpolation (room : depth ≤ nestingMax)
    (shows : (do (← Expr.read source).render s.context) = .ok t) :
    (Render.block strict depth [.interpolation source line] s).1 = .ok t := by
  rw [block_single room rfl]
  exact node_interpolation shows

theorem node_name (read : Expr.read n = .ok (.operand (.path ⟨[n]⟩))) :
    (node strict depth (.interpolation n line) s).1 = .ok (Value.display (s.context.get? n)) := by
  refine node_interpolation ?_
  rw [read, ← resolve_single]
  rfl

theorem block_bound (room : depth ≤ nestingMax) (framed : s.context.frames ≠ [])
    (read : Expr.read n = .ok (.operand (.path ⟨[n]⟩)))
    (shows : (do (← Expr.read source).render s.context) = .ok t) :
    (Render.block strict depth [.binding n source line, .interpolation n line'] s).1 = .ok t := by
  obtain ⟨v, value, rfl⟩ := Expr.exists_value_of_source shows
  let begun : Progress := { s with stats := { s.stats with maxDepth := max s.stats.maxDepth (depth + 1) } }
  let made : Progress :=
    { begun with context := s.context.bind n v, stats := { begun.stats with bindings := begun.stats.bindings + 1 } }
  have counted : count (fun stats => { stats with maxDepth := max stats.maxDepth (depth + 1) }) s = (.ok (), begun) :=
    rfl
  have binds : bindAll strict [.binding n source line, .interpolation n line'] begun = (.ok (), made) :=
    bindAll_of_ok value
  rw [Render.block, enterBlock, if_neg (Nat.not_lt.mpr room), bind_of_ok counted, bind_of_ok binds, nodes_binding,
    nodes_single, node_name read]
  rw [show made.context = s.context.bind n v from rfl, get?_bind framed, if_pos rfl]

theorem node_position {element : Value} {item : Text} {position : Nat} {program : List Op} {k : Nat}
    (read : Expr.read n = .ok (.operand (.path ⟨[n]⟩)))
    (here : s.context = (ofIteration element item (some (n, position))).after (Op.begun program k))
    (unbound : (inForce (Op.begun program k)).get? n = none) :
    (node strict depth (.interpolation n line) s).1 = .ok (Text.ofNat position) := by
  have own : indexed (some (n, position)) n = some (.ofNat position) := if_pos rfl
  rw [node_name read, here, get?_begun_ofIteration, unbound, own]
  exact congrArg Except.ok (Value.display_ofNat position)

theorem node_positions {item path : Text} {p : Path} {items : List Value} (room : depth < nestingMax)
    (read : Expr.read n = .ok (.operand (.path ⟨[n]⟩))) (readPath : Path.read path = .ok p)
    (resolves : s.context.resolve p = some (.array items)) :
    (node strict depth (.loop (some n) item path [.interpolation n line'] line) s).1 =
      .ok (Text.join ['\n'] ((List.range items.length).map Text.ofNat)) := by
  let body : Block := [.interpolation n line']
  have own (position : Nat) (element : Value) :
      (iteration (some n) item (Render.block strict (depth + 1) body) position element).1 =
        .ok (Text.ofNat position) := by
    rw [iteration, block_single (show depth + 1 ≤ nestingMax from room) rfl]
    exact node_position read (show _ = after _ (Op.begun [] 0) from rfl) rfl
  have all : (items.mapIdx (iteration (some n) item (Render.block strict (depth + 1) body))).map Prod.fst =
      ((List.range items.length).map Text.ofNat).map .ok := by
    refine List.ext_getElem (by simp) fun i _ _ => ?_
    simp [own]
  have additive : Additive (Render.block strict (depth + 1) body) := stable_additive.block strict (depth + 1) body
  have expanded := expandLoop_of_ok additive readPath resolves all
  rw [Render.block] at expanded
  rw [node, recover_of_ok expanded]

end

end Render

def asShown (source : Text) : Text := "$\x7b".toList ++ source ++ ['\x7d']

def asBound (n source : Text) : Text := "<let ".toList ++ n ++ "=$\x7b".toList ++ source ++ "\x7d>".toList ++ asShown n

section

variable {n source : Text}

theorem IsName.isBody (named : IsName n) : IsBody '\x7d' n :=
  ⟨named.1, fun brace => absurd (named.2 _ brace) (by decide +kernel)⟩

theorem scan_asBound (named : IsName n) (body : IsBody '\x7d' source) :
    ∃ place place' stop, Token.scan (asBound n source) =
      Phrase.yieldAll [.binding n source place, .interpolation n place'] ++ [⟨.endOfText, stop, []⟩] := by
  have spelled : (Lexeme.interpolation n).Spellable := named.isBody
  let tag : Text := (Lexeme.binding n source).shown
  have written : asBound n source = tag ++ ((Lexeme.interpolation n).printed ++ []) := by rw [List.append_nil]; rfl
  -- No line break stands behind the tag, so it takes none.
  have spelled' : (Lexeme.binding n source).Spellable := ⟨named, body⟩
  have found : tag? (tag ++ ((Lexeme.interpolation n).printed ++ [])) =
      some (.binding n source, (Lexeme.interpolation n).printed ++ []) := tag?_shown spelled' _
  have ends : cut [] = [] := rfl
  refine ⟨⟨.start, tag⟩, ⟨Position.start.skip tag, (Lexeme.interpolation n).printed⟩,
    (Position.start.skip tag).skip (Lexeme.interpolation n).printed, ?_⟩
  rw [show Token.scan (asBound n source) = assemble .start (cut (asBound n source)) from rfl, written,
    cut_of_tag found rfl (List.cons_ne_nil _ _), assemble, assemble_printed spelled, ends]
  rfl

end

theorem output_of_phrases {ps : List Phrase} {template : Text} {stop : Position}
    (scanned : Token.scan template = Phrase.yieldAll ps ++ [⟨.endOfText, stop, []⟩])
    (shallow : Phrase.nestingAll ps ≤ nestingMax) {options : Options} {data : Value} {root : Entries} {t : Text}
    (rooted : Template.root options.defaults data = .ok root)
    (shows : (Render.block options.strict 0 (Phrase.block ps) (Template.start root)).1 = .ok t) :
    (renderWithOptions options template data).map Rendered.output = .ok t := by
  have ends : (Token.mk .endOfText stop []).lexeme = .endOfText := rfl
  have read := ofTokens_yieldAll shallow ends []
  rw [← scanned] at read
  have strictly : Template.parse true template = .ok ⟨Phrase.block ps, [], template.utf8Size⟩ :=
    Template.parse_eq_ok.mpr ⟨read, rfl⟩
  have parsed : Template.parse options.strict template = .ok ⟨Phrase.block ps, [], template.utf8Size⟩ := by
    cases options.strict with
    | true => exact strictly
    | false => exact Template.parse_lenient strictly
  have whole : renderWithOptions options template data =
      Template.render ⟨Phrase.block ps, [], template.utf8Size⟩ options data := by
    rw [renderWithOptions, parsed]
    rfl
  rw [whole, Template.render_of_root rooted options.strict]
  rcases done : Render.block options.strict 0 (Phrase.block ps) (Template.start root) with ⟨_ | output, after⟩
  · rw [done] at shows
    cases shows
  · rw [done] at shows
    exact shows

/-- What names are for: to show what is bound to them, and the position in a loop. -/
structure Usable (n : Text) : Prop where
  bound (strict : Bool) (depth : Nat) (s : Progress) (source t : Text) (line line' : Nat) :
    depth ≤ nestingMax → s.context.frames ≠ [] → (do (← Expr.read source).render s.context) = .ok t →
    (Render.block strict depth [.interpolation source line] s).1 = .ok t ∧
      (Render.block strict depth [.binding n source line, .interpolation n line'] s).1 = .ok t
  written (options : Options) (data : Value) (root : Entries) (source t : Text) :
    Template.root options.defaults data = .ok root → IsBody '\x7d' source →
    (do (← Expr.read source).render (.ofRoot root)) = .ok t →
    (renderWithOptions options (asShown source) data).map Rendered.output = .ok t ∧
      (renderWithOptions options (asBound n source) data).map Rendered.output = .ok t
  position (strict : Bool) (depth line : Nat) (s : Progress) (element : Value) (item : Text) (i : Nat)
    (program : List Context.Op) (k : Nat) :
    s.context = (Context.ofIteration element item (some (n, i))).after (Context.Op.begun program k) →
    (Context.inForce (Context.Op.begun program k)).get? n = none →
    (Render.node strict depth (.interpolation n line) s).1 = .ok (Text.ofNat i)
  positions (strict : Bool) (depth : Nat) (s : Progress) (item path : Text) (p : Path) (items : List Value)
    (line line' : Nat) :
    depth < nestingMax → Path.read path = .ok p → s.context.resolve p = some (.array items) →
    (Render.node strict depth (.loop (some n) item path [.interpolation n line'] line) s).1 =
      .ok (Text.join ['\n'] ((List.range items.length).map Text.ofNat))

theorem IsName.usable {n : Text} (named : IsName n) (read : Expr.read n = .ok (.operand (.path ⟨[n]⟩))) : Usable n where
  bound _ _ _ _ _ _ _ room framed shows :=
    ⟨Render.block_interpolation room shows, Render.block_bound room framed read shows⟩
  written options data root source t rooted body shows := by
    obtain ⟨place, stop, scanned⟩ : ∃ place stop, Token.scan (asShown source) = _ := scan_interpolation body
    obtain ⟨tagged, place', stop', scanned'⟩ := scan_asBound named body
    have room : 0 ≤ nestingMax := Nat.zero_le _
    have framed : (Template.start root).context.frames ≠ [] := List.cons_ne_nil _ _
    refine ⟨output_of_phrases scanned room rooted ?_, output_of_phrases scanned' room rooted ?_⟩
    · exact Render.block_interpolation room shows
    · exact Render.block_bound room framed read shows
  position _ _ _ _ _ _ _ _ _ here unbound := Render.node_position read here unbound
  positions _ _ _ _ _ _ _ _ _ room readPath resolves := Render.node_positions room read readPath resolves

/--
Of the names and paths that tags of a template hold, those are usable whose characters may stand in segments: a path is
accepted as the path it spells; a name is read as the path of itself if and only if it is no literal, and then it shows
what is bound to it, and the position as an index variable.
-/
theorem names_usable {template : Text} {token : Token} (scanned : token ∈ Token.scan template) :
    (∀ path ∈ token.lexeme.path?, path.Segmental → ∃ p : Path, p.Spelled path ∧ Path.read path = .ok p) ∧
    ∀ n ∈ token.lexeme.names, n.Segmental →
      (Expr.read n = .ok (.operand (.path ⟨[n]⟩)) ↔ ¬ Operand.IsLiteralName n) ∧
      (¬ Operand.IsLiteralName n → Usable n) := by
  constructor
  · intro path member segmental
    obtain ⟨p, spelled⟩ := (isPath_of_scan scanned member).exists_spelled segmental
    exact ⟨p, spelled, Path.read_spelled spelled⟩
  · intro n member segmental
    have named := isName_of_scan scanned member
    have read := Expr.read_name named segmental
    exact ⟨read, fun plain => named.usable (read.mpr plain)⟩

def numbered : Text := "<for|i, x| of=xs[0]>$\x7bi\x7d</for>".toList

def numberedTag : Token where
  lexeme := .forOpen (some "i".toList) "x".toList "xs[0]".toList
  position := .start
  raw := "<for|i, x| of=xs[0]>".toList

def numbers : Entries := [("xs".toList, .array [.array [.number (.int 7), .number (.int 5)]])]

theorem names_usable_numbered :
    (numberedTag ∈ Token.scan numbered ∧ Text.Segmental "xs[0]".toList ∧ Text.Segmental "i".toList ∧
      ¬ Operand.IsLiteralName "i".toList) ∧
    (∃ p : Path, p.Spelled "xs[0]".toList ∧ Path.read "xs[0]".toList = .ok p) ∧
    (renderWithOptions .strictly (asBound "i".toList "xs[0].length".toList) (.object numbers)).map Rendered.output =
      .ok "2".toList ∧
    (Render.node true 0 (.loop (some "i".toList) "x".toList "xs[0]".toList [.interpolation "i".toList 1] 1)
      (Template.start numbers)).1 = .ok "0\n1".toList := by
  have scanned : numberedTag ∈ Token.scan numbered := by decide +kernel
  have path : Text.Segmental "xs[0]".toList := by decide +kernel
  have name : Text.Segmental "i".toList := by decide +kernel
  have plain : ¬ Operand.IsLiteralName "i".toList := by
    rintro (keyword | ⟨digits, -⟩)
    · exact absurd keyword (by decide)
    · exact absurd (digits 'i' (.head _)) (by decide)
  obtain ⟨paths, names⟩ := names_usable scanned
  have usable := (names "i".toList (.head _) name).2 plain
  refine ⟨⟨scanned, path, name, plain⟩, paths _ rfl path, ?_, ?_⟩
  · exact (usable.written .strictly (.object numbers) numbers "xs[0].length".toList "2".toList rfl
      ⟨by decide, by decide⟩ rfl).2
  · exact usable.positions true 0 (Template.start numbers) "x".toList "xs[0]".toList ⟨["xs".toList, "0".toList]⟩ _ 1 1
      (by decide) rfl rfl

theorem names_unusable :
    (∃ token ∈ Token.scan (asBound "true".toList "x".toList), "true".toList ∈ token.lexeme.names ∧
      Expr.read "true".toList = .ok (.operand (.literal (.bool true))) ∧
      (renderWithOptions .strictly (asShown "x".toList) (.object [("x".toList, .text "a".toList)])).map
        Rendered.output = .ok "a".toList ∧
      (renderWithOptions .strictly (asBound "true".toList "x".toList) (.object [("x".toList, .text "a".toList)])).map
        Rendered.output = .ok "true".toList) ∧
    ∃ token ∈ Token.scan "<for|x| of=e\u0301>y</for>".toList, "e\u0301".toList ∈ token.lexeme.path? ∧
      Path.read "e\u0301".toList = .error (.malformedPath "e\u0301".toList) := by
  let literal : Token := ⟨.binding "true".toList "x".toList, .start, "<let true=$\x7bx\x7d>".toList⟩
  let marked : Token := ⟨.forOpen none "x".toList "e\u0301".toList, .start, "<for|x| of=e\u0301>".toList⟩
  have scanned : literal ∈ Token.scan (asBound "true".toList "x".toList) := by decide +kernel
  have scanned' : marked ∈ Token.scan "<for|x| of=e\u0301>y</for>".toList := by decide +kernel
  refine ⟨⟨literal, scanned, .head _, rfl, by decide +kernel, by decide +kernel⟩, marked, scanned', rfl, ?_⟩
  decide +kernel

end TextTemplate
