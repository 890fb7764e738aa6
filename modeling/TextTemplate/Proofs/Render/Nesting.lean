import TextTemplate.Proofs.Context.History
import TextTemplate.Proofs.Render.Iteration
import TextTemplate.Proofs.Render.Lenient

/-!
# Else-if as a conditional in the last branch

The branches of a conditional from an else-if on can stand in a conditional of their own, in a last branch behind the
first one. There they are tried under one more frame, which binds nothing, one level deeper and inside one more directive
that can recover. None of this shows (`elseIf_nests`): a name has the same value under such a frame (`Alike`), and
computations of which the second is begun so go on alike (`Mirrors`).
-/

namespace TextTemplate

namespace Context

structure Alike (ctx other : Context) : Prop where
  item : ctx.item = other.item
  get? : ∀ name, ctx.get? name = other.get? name

/-- The same names have the same values, also after the same bindings. -/
structure Parallel (ctx other : Context) : Prop extends Alike ctx other where
  bare : ctx.frames = [] ↔ other.frames = []

theorem Parallel.refl (ctx : Context) : Parallel ctx ctx := ⟨⟨rfl, fun _ => rfl⟩, Iff.rfl⟩

theorem alike_enterBranch (ctx : Context) : Alike ctx ctx.enterBranch :=
  ⟨rfl, fun name => (ctx.get?_enterBranch name).symm⟩

theorem Parallel.bind {ctx other : Context} (h : Parallel ctx other) (name : Text) (value : Value) :
    Parallel (ctx.bind name value) (other.bind name value) := by
  by_cases framed : ctx.frames = []
  · have framed' : other.frames = [] := h.bare.mp framed
    have kept : ctx.bind name value = ctx := by rw [Context.bind, framed]
    have kept' : other.bind name value = other := by rw [Context.bind, framed']
    rwa [kept, kept']
  · have framed' : other.frames ≠ [] := fun none => framed (h.bare.mpr none)
    refine ⟨⟨?_, fun key => ?_⟩, ?_⟩
    · rw [item_bind, item_bind, h.item]
    · rw [get?_bind framed, get?_bind framed', h.get?]
    · rw [bind_frames_eq_nil, bind_frames_eq_nil, h.bare]

namespace Alike

variable {ctx other : Context}

theorem enterBranch (h : Alike ctx other) : Parallel ctx.enterBranch other.enterBranch :=
  ⟨⟨h.item, h.get?⟩, by simp [Context.enterBranch]⟩

theorem resolve (h : Alike ctx other) (p : Path) : ctx.resolve p = other.resolve p := by
  have same : ∀ segments, ctx.withoutItem segments = other.withoutItem segments := by
    intro segments
    unfold withoutItem
    rw [h.item]
  rw [Context.resolve, Context.resolve, same]
  split
  · rfl
  · rw [h.get?]

end Alike

end Context

theorem Operand.eval_alike {ctx other : Context} (h : ctx.Alike other) (o : Operand) : o.eval ctx = o.eval other := by
  cases o with
  | literal v => rfl
  | path p => exact h.resolve p

theorem Condition.eval_alike {ctx other : Context} (h : ctx.Alike other) (c : Condition) :
    c.eval ctx = c.eval other := by
  cases c with
  | compare left op right => rw [Condition.eval, Condition.eval, h.resolve, Operand.eval_alike h]
  | truthy path negated => rw [Condition.eval, Condition.eval, h.resolve]

theorem Operand.branchText_alike {ctx other : Context} (h : ctx.Alike other) (o : Operand) :
    o.branchText ctx = o.branchText other := by
  rw [Operand.branchText, Operand.branchText, Operand.eval_alike h]

theorem Expr.render_alike {ctx other : Context} (h : ctx.Alike other) (e : Expr) : e.render ctx = e.render other := by
  cases e with
  | operand o => rw [Expr.render, Expr.render, Operand.eval_alike h]
  | condition c => rw [Expr.render, Expr.render, Condition.eval_alike h]
  | ternary c whenTrue whenFalse => rw [Expr.render, Expr.render, Condition.eval_alike h, Operand.branchText_alike h]

theorem Expr.value_alike {ctx other : Context} (h : ctx.Alike other) (e : Expr) : e.value ctx = e.value other := by
  cases e with
  | operand o => rw [Expr.value, Expr.value, Operand.eval_alike h]
  | condition c => rw [Expr.value, Expr.value, Condition.eval_alike h]
  | ternary c whenTrue whenFalse => rw [Expr.value, Expr.value, Condition.eval_alike h, Operand.branchText_alike h]

namespace Stats

def flat (s : Stats) : Stats := { s with conditionals := 0, maxDepth := 0 }

theorem flat_plus (a b : Stats) : (a.plus b).flat = a.flat.plus b.flat := by simp [flat, plus]

end Stats

namespace Render

/-! ## Two renders that go on alike -/

structure Beside (P : Context → Context → Prop) (s t : Progress) : Prop where
  contexts : P s.context t.context
  stats : s.stats.flat = t.stats.flat

theorem Beside.noting {P : Context → Context → Prop} {s t : Progress} (h : Beside P s t) (x y : Suppression) :
    Beside P (s.noting x) (t.noting y) :=
  ⟨h.contexts, congrArg (fun a : Stats => { a with suppressedErrors := a.suppressedErrors + 1 }) h.stats⟩

/-- Begun side by side, two computations come to the same result and are side by side again. -/
def Mirrors (P : Context → Context → Prop) {α : Type} (m n : Render α) : Prop :=
  ∀ s t, Beside P s t → (m s).1 = (n t).1 ∧ Beside P (m s).2 (n t).2

section

variable {P : Context → Context → Prop} {α β : Type} {m n : Render α}

theorem mirrors_pure (a : α) : Mirrors P (pure a) (pure a) := fun _ _ beside => ⟨rfl, beside⟩

theorem mirrors_fail (e : TemplateError) : Mirrors P (fail e : Render α) (fail e) := fun _ _ beside => ⟨rfl, beside⟩

theorem mirrors_ofExpr (result : Except ExprFault α) : Mirrors P (ofExpr result) (ofExpr result) :=
  fun _ _ beside => ⟨rfl, beside⟩

theorem mirrors_bind {f g : α → Render β} (first : Mirrors P m n) (second : ∀ a, Mirrors P (f a) (g a)) :
    Mirrors P (m >>= f) (n >>= g) := by
  intro s t beside
  obtain ⟨same, after⟩ := first s t beside
  rcases left : m s with ⟨result, s'⟩
  rcases right : n t with ⟨result', t'⟩
  rw [left, right] at same after
  obtain rfl : result = result' := same
  cases result with
  | error e =>
      rw [bind_of_error left, bind_of_error right]
      exact ⟨rfl, after⟩
  | ok a =>
      rw [bind_of_ok left, bind_of_ok right]
      exact second a s' t' after

theorem mirrors_context {f g : Context → Render β} (h : ∀ ctx other, P ctx other → Mirrors P (f ctx) (g other)) :
    Mirrors P (context >>= f) (context >>= g) :=
  fun s t beside => h s.context t.context beside.contexts s t beside

theorem mirrors_count {change change' : Stats → Stats} (effect : Stats → Stats)
    (left : ∀ stats, (change stats).flat = effect stats.flat)
    (right : ∀ stats, (change' stats).flat = effect stats.flat) :
    Mirrors P (count change) (count change') := by
  intro s t beside
  refine ⟨rfl, beside.contexts, ?_⟩
  rw [count, count, left, right, beside.stats]

theorem mirrors_tally {change : Stats → Stats} (h : ∀ stats, (change stats).flat = change stats.flat) :
    Mirrors P (count change) (count change) :=
  mirrors_count change h h

theorem mirrors_recover {strict : Bool} {line : Nat} {kind : DirectiveKind} {fallback : α} (h : Mirrors P m n) :
    Mirrors P (recover strict line kind fallback m) (recover strict line kind fallback n) := by
  intro s t beside
  obtain ⟨same, after⟩ := h s t beside
  rcases left : m s with ⟨result, s'⟩
  rcases right : n t with ⟨result', t'⟩
  rw [left, right] at same after
  obtain rfl : result = result' := same
  cases result with
  | ok a =>
      rw [recover_of_ok left, recover_of_ok right]
      exact ⟨rfl, after⟩
  | error e =>
      cases strict with
      | true =>
          rw [recover_strict left, recover_strict right]
          exact ⟨rfl, after⟩
      | false =>
          rw [recover_lenient left, recover_lenient right]
          exact ⟨rfl, after.noting _ _⟩

theorem Mirrors.of_keeps {Q : Context → Context → Prop} (weak : ∀ ctx other, Q ctx other → P ctx other)
    (keeps : Keeps m) (keeps' : Keeps n) (h : Mirrors P m n) : Mirrors Q m n := by
  intro s t beside
  obtain ⟨same, after⟩ := h s t ⟨weak _ _ beside.contexts, beside.stats⟩
  refine ⟨same, ?_, after.stats⟩
  rw [keeps, keeps']
  exact beside.contexts

end

theorem mirrors_bindValue (name : Text) (value : Value) :
    Mirrors Context.Parallel (bind name value) (bind name value) :=
  fun _ _ beside => ⟨rfl, beside.contexts.bind name value, beside.stats⟩

theorem mirrors_bindingValue (expression : Text) :
    Mirrors Context.Parallel (bindingValue expression) (bindingValue expression) := by
  apply mirrors_context
  intro ctx other parallel
  have same : (do (← Expr.read expression).value ctx) = (do (← Expr.read expression).value other) := by
    cases Expr.read expression with
    | error fault => rfl
    | ok e => exact e.value_alike parallel.toAlike
  rw [same]
  exact mirrors_ofExpr _

theorem mirrors_bindAll (strict : Bool) (block : Block) :
    Mirrors Context.Parallel (bindAll strict block) (bindAll strict block) := by
  induction block with
  | nil => exact mirrors_pure ()
  | cons node rest ih =>
      cases node with
      | binding name expression line =>
          apply mirrors_bind
          · apply mirrors_recover
            exact mirrors_bind (mirrors_bindingValue expression) fun value => mirrors_pure (some value)
          · intro value
            cases value with
            | none => exact ih
            | some value =>
                apply mirrors_bind (mirrors_bindValue name value)
                intro _
                refine mirrors_bind (mirrors_tally fun _ => rfl) ?_
                intro _
                exact ih
      | _ => exact ih

theorem mirrors_interpolate (source : Text) : Mirrors Context.Alike (interpolate source) (interpolate source) := by
  refine mirrors_bind (mirrors_tally fun _ => rfl) ?_
  intro _
  apply mirrors_context
  intro ctx other alike
  have same : (do (← Expr.read source).render ctx) = (do (← Expr.read source).render other) := by
    cases Expr.read source with
    | error fault => rfl
    | ok e => exact e.render_alike alike
  rw [same]
  exact mirrors_ofExpr _

theorem mirrors_enterBlock {strict : Bool} {depth depth' : Nat} {block : Block} {m n : Render Text}
    (room : depth ≤ nestingMax) (room' : depth' ≤ nestingMax) (h : Mirrors Context.Parallel m n) :
    Mirrors Context.Parallel (enterBlock strict depth block m) (enterBlock strict depth' block n) := by
  rw [enterBlock, enterBlock, if_neg (Nat.not_lt.mpr room), if_neg (Nat.not_lt.mpr room')]
  refine mirrors_bind (mirrors_count id (fun _ => rfl) fun _ => rfl) ?_
  intro _
  apply mirrors_bind (mirrors_bindAll strict block)
  intro _
  exact h

theorem mirrors_within {P : Context → Context → Prop} {α : Type} {m n : Render α} (ctx : Context)
    (h : Mirrors Context.Parallel m n) : Mirrors P (within ctx m) (within ctx n) := by
  intro s t beside
  obtain ⟨same, after⟩ := h { s with context := ctx } { t with context := ctx } ⟨.refl ctx, beside.stats⟩
  exact ⟨same, beside.contexts, after.stats⟩

theorem mirrors_inBranch {strict : Bool} {depth depth' : Nat} {block : Block} {m n : Render Text} (keeps : Keeps m)
    (keeps' : Keeps n)
    (h : Mirrors Context.Parallel (enterBlock strict depth block m) (enterBlock strict depth' block n)) :
    Mirrors Context.Alike (inBranch (enterBlock strict depth block m))
      (inBranch (enterBlock strict depth' block n)) := by
  intro s t beside
  obtain ⟨same, after⟩ := h { s with context := s.context.enterBranch } { t with context := t.context.enterBranch }
    ⟨beside.contexts.enterBranch, beside.stats⟩
  refine ⟨same, ?_, after.stats⟩
  rw [keeps_inBranch keeps, keeps_inBranch keeps']
  exact beside.contexts

theorem mirrors_eachItem {P : Context → Context → Prop} (index : Option Text) (item : Text) {m n : Render Text}
    (h : Mirrors Context.Parallel m n) (position : Nat) (elements : List Value) :
    Mirrors P (eachItem index item m position elements) (eachItem index item n position elements) := by
  induction elements generalizing position with
  | nil => exact mirrors_pure []
  | cons element rest ih =>
      apply mirrors_bind (mirrors_within _ h)
      intro text
      refine mirrors_bind (mirrors_tally fun _ => rfl) ?_
      intro _
      apply mirrors_bind (ih (position + 1))
      intro texts
      exact mirrors_pure (text :: texts)

theorem mirrors_expandLoop (index : Option Text) (item path : Text) {m n : Render Text}
    (h : Mirrors Context.Parallel m n) :
    Mirrors Context.Alike (expandLoop index item path m) (expandLoop index item path n) := by
  apply mirrors_bind (mirrors_ofExpr _)
  intro p
  apply mirrors_context
  intro ctx other alike
  rw [alike.resolve]
  rcases other.resolve p with _ | value
  · exact mirrors_pure []
  · cases value with
    | array items =>
        refine mirrors_bind (mirrors_tally fun _ => rfl) ?_
        intro _
        apply mirrors_bind (mirrors_eachItem index item h 0 items)
        intro texts
        exact mirrors_pure (Text.join ['\n'] texts)
    | _ => exact mirrors_pure []

theorem mirrors_selects (kind : BranchKind) (condition : Option Text) (line : Nat) :
    Mirrors Context.Alike (selects kind condition line) (selects kind condition line) := by
  by_cases last : kind = .otherwise
  · subst last
    exact mirrors_pure true
  · cases condition with
    | none => cases kind <;> exact mirrors_pure true
    | some source =>
        rw [selects_some last]
        cases Condition.read source with
        | error fault => exact mirrors_fail _
        | ok c =>
            apply mirrors_context
            intro ctx other alike
            rw [c.eval_alike alike]
            exact mirrors_pure _

mutual

theorem mirrors_node (strict : Bool) (depth : Nat) :
    (n : Node) → depth + 1 + n.height ≤ nestingMax →
      Mirrors Context.Alike (node strict depth n) (node strict (depth + 1) n)
  | .text content, _ => mirrors_pure content
  | .binding _ _ _, _ => mirrors_pure []
  | .interpolation source line, _ => mirrors_recover (mirrors_interpolate source)
  | .loop index item path body line, room => by
      rw [Node.height] at room
      apply mirrors_recover
      exact mirrors_expandLoop index item path (mirrors_block strict (depth + 1) body (by omega))
  | .conditional choices line, room => by
      rw [Node.height] at room
      apply mirrors_recover
      refine mirrors_bind (mirrors_count id (fun _ => rfl) fun _ => rfl) ?_
      intro _
      exact mirrors_branches strict depth choices (by omega)

theorem mirrors_nodes (strict : Bool) (depth : Nat) :
    (block : List Node) → depth + 1 + Node.heights block ≤ nestingMax →
      Mirrors Context.Alike (nodes strict depth block) (nodes strict (depth + 1) block)
  | [], _ => mirrors_pure []
  | first :: rest, room => by
      rw [Node.heights_cons] at room
      apply mirrors_bind (mirrors_node strict depth first (by omega))
      intro text
      apply mirrors_bind (mirrors_nodes strict depth rest (by omega))
      intro more
      exact mirrors_pure (text ++ more)

theorem mirrors_branches (strict : Bool) (depth : Nat) :
    (choices : List Branch) → depth + 2 + Node.branchHeights choices ≤ nestingMax →
      Mirrors Context.Alike (branches strict depth choices) (branches strict (depth + 1) choices)
  | [], _ => mirrors_pure []
  | .mk kind condition body place :: rest, room => by
      rw [Node.branchHeights_cons] at room
      apply mirrors_bind (mirrors_selects kind condition place)
      intro selected
      cases selected with
      | true =>
          exact mirrors_inBranch (keeps_nodes strict _ body) (keeps_nodes strict _ body)
            (mirrors_block strict (depth + 1) body (by omega))
      | false => exact mirrors_branches strict depth rest (by omega)

theorem mirrors_block (strict : Bool) (depth : Nat) (body : List Node)
    (room : depth + 1 + Node.heights body ≤ nestingMax) :
    Mirrors Context.Parallel (enterBlock strict depth body (nodes strict depth body))
      (enterBlock strict (depth + 1) body (nodes strict (depth + 1) body)) :=
  mirrors_enterBlock (by omega) (by omega)
    ((mirrors_nodes strict depth body room).of_keeps (fun _ _ => Context.Parallel.toAlike)
      (keeps_nodes strict depth body) (keeps_nodes strict (depth + 1) body))

end

/-! ## A conditional in the last branch of another -/

theorem branches_cons (strict : Bool) (depth : Nat) (kind : BranchKind) (condition : Option Text) (body : Block)
    (place : Nat) (rest : List Branch) (s : Progress) :
    branches strict depth (.mk kind condition body place :: rest) s =
      match s.context.test kind condition with
      | .error fault => (.error (.directive place fault), s)
      | .ok true => inBranch (Render.block strict (depth + 1) body) s
      | .ok false => branches strict depth rest s := by
  rw [branches, bind_apply, selects_apply]
  rcases s.context.test kind condition with _ | _ | _ <;> rfl

theorem branches_of_decided {strict : Bool} {depth : Nat} {kind : BranchKind} {condition : Option Text} {body : Block}
    {place : Nat} {s : Progress} (decides : s.context.test kind condition ≠ .ok false) (rest more : List Branch) :
    branches strict depth (.mk kind condition body place :: rest) s =
      branches strict depth (.mk kind condition body place :: more) s := by
  rw [branches_cons strict depth kind condition body place rest,
    branches_cons strict depth kind condition body place more]
  rcases test : s.context.test kind condition with fault | selected
  · rfl
  · cases selected with
    | false => exact absurd test decides
    | true => rfl

theorem branches_elseIf (strict : Bool) (depth : Nat) (condition : Option Text) (body : Block) (place : Nat)
    (rest : List Branch) :
    branches strict depth (.mk .first condition body place :: rest) =
      branches strict depth (.mk .elseIf condition body place :: rest) := by
  rw [branches, branches]
  cases condition <;> rfl

theorem branches_error {strict : Bool} {depth : Nat} {choices : List Branch} {s : Progress} {e : TemplateError}
    (room : depth + 1 + Node.branchHeights choices ≤ nestingMax) (fails : (branches strict depth choices s).1 = .error e)
    (line : Nat) : e.atLine line = e := by
  cases strict with
  | true =>
      obtain ⟨_, ⟨_, gives, -⟩ | ⟨_, stops, settled⟩⟩ :=
        ends_branches depth s.context (E := fun e => e.atLine line = e) choices room
          (fun _ _ _ stops => stops.atLine line) (fun _ _ _ _ _ _ _ _ => rfl) s rfl
      · rw [gives] at fails
        cases fails
      · rw [stops] at fails
        cases fails
        exact settled
  | false =>
      obtain ⟨_, -, ends, -⟩ :=
        follows_branches (B := fun _ => True) depth choices (fun _ _ _ => trivial) (fun _ _ _ _ _ _ _ => trivial) s
      rcases ends e fails with ⟨_, _, _, _, _, _, _, _, rfl⟩ | ⟨deep, -⟩
      · rfl
      · exact absurd deep (by omega)

theorem nodes_single (strict : Bool) (depth : Nat) (n : Node) : nodes strict depth [n] = node strict depth n := by
  funext s
  rw [nodes]
  rcases done : node strict depth n s with ⟨_ | text, after⟩
  · exact bind_of_error done
  · rw [bind_of_ok done]
    exact congrArg (fun t => (Except.ok t, after)) (List.append_nil text)

theorem block_single {strict : Bool} {depth : Nat} (room : depth ≤ nestingMax) {n : Node} (free : n.isBinding = false)
    (s : Progress) :
    Render.block strict depth [n] s =
      node strict depth n { s with stats := { s.stats with maxDepth := max s.stats.maxDepth (depth + 1) } } := by
  have unbound : bindAll strict [n] = pure () := by
    cases n with
    | binding => cases free
    | _ => rfl
  rw [Render.block, nodes_single, enterBlock, if_neg (Nat.not_lt.mpr room), unbound]
  rfl

theorem node_conditional (strict : Bool) (depth : Nat) (choices : List Branch) (line : Nat) (s : Progress) :
    node strict depth (.conditional choices line) s =
      recover strict line .conditional [] (branches strict depth choices)
        { s with stats := { s.stats with conditionals := s.stats.conditionals + 1 } } := by
  rw [node]
  rfl

theorem recover_congr {α : Type} {m n : Render α} {s t : Progress} (same : m s = n t) (strict : Bool) (line : Nat)
    (kind : DirectiveKind) (fallback : α) :
    recover strict line kind fallback m s = recover strict line kind fallback n t := by
  rw [recover, recover, same]

theorem inBranch_recover {α : Type} (strict : Bool) (line : Nat) (kind : DirectiveKind) (fallback : α) (m : Render α) :
    inBranch (recover strict line kind fallback m) = recover strict line kind fallback (inBranch m) := by
  funext s
  rcases done : m { s with context := s.context.enterBranch } with ⟨result, t⟩
  have inside : inBranch m s = (result, { t with context := t.context.leaveBranch }) := by rw [inBranch, done]
  cases result with
  | ok a => rw [recover_of_ok inside, inBranch, recover_of_ok done]
  | error e =>
      cases strict with
      | true => rw [recover_strict inside, inBranch, recover_strict done]
      | false =>
          rw [recover_lenient inside, inBranch, recover_lenient done]
          rfl

theorem beside_recover_twice {α : Type} {P : Context → Context → Prop} {m n : Render α} {s t : Progress}
    (same : (m s).1 = (n t).1) (after : Beside P (m s).2 (n t).2) {line place : Nat}
    (settled : ∀ e, (m s).1 = .error e → e.atLine line = e ∧ e.atLine place = e) (strict : Bool) (kind : DirectiveKind)
    (fallback : α) :
    let once := recover strict line kind fallback m s
    let twice := recover strict line kind fallback (recover strict place kind fallback n) t
    once.1 = twice.1 ∧ Beside P once.2 twice.2 := by
  intro once twice
  rcases left : m s with ⟨result, s'⟩
  rcases right : n t with ⟨result', t'⟩
  rw [left, right] at same after
  rw [left] at settled
  obtain rfl : result = result' := same
  cases result with
  | ok a =>
      rw [show once = _ from recover_of_ok left, show twice = _ from recover_of_ok (recover_of_ok right)]
      exact ⟨rfl, after⟩
  | error e =>
      cases strict with
      | true =>
          obtain ⟨atLine, atPlace⟩ := settled e rfl
          rw [show once = _ from recover_strict left, show twice = _ from recover_strict (recover_strict right)]
          rw [atPlace, atLine]
          exact ⟨rfl, after⟩
      | false =>
          -- The directive inside has noted the failure, and the one around it is told of none.
          rw [show once = _ from recover_lenient left, show twice = _ from recover_of_ok (recover_lenient right)]
          exact ⟨rfl, after.noting _ _⟩

theorem recover_nested {strict : Bool} {depth : Nat} {condition : Option Text} {body : Block} {place : Nat}
    {rest : List Branch} (room : depth + 2 + Node.branchHeights (.mk .elseIf condition body place :: rest) ≤ nestingMax)
    (line : Nat) (s : Progress) :
    let inner : Node := .conditional (.mk .first condition body place :: rest) place
    let chained :=
      recover strict line .conditional [] (branches strict depth (.mk .elseIf condition body place :: rest)) s
    let nested := recover strict line .conditional [] (inBranch (Render.block strict (depth + 1) [inner])) s
    chained.1 = nested.1 ∧ Beside (· = ·) chained.2 nested.2 := by
  generalize joined : Branch.mk .elseIf condition body place :: rest = others at room ⊢
  intro inner chained nested
  let counted : Progress :=
    { s with
      stats := { s.stats with conditionals := s.stats.conditionals + 1, maxDepth := max s.stats.maxDepth (depth + 2) } }
  let inside : Render Text := inBranch (branches strict (depth + 1) others)
  have entered : inBranch (Render.block strict (depth + 1) [inner]) s =
      recover strict place .conditional [] inside counted := by
    rw [← inBranch_recover, inBranch, block_single (by omega) rfl, node_conditional, branches_elseIf, joined]
    rfl
  obtain ⟨same, after⟩ := mirrors_branches strict depth others room s { counted with context := s.context.enterBranch }
    ⟨Context.alike_enterBranch s.context, rfl⟩
  have beside : Beside (· = ·) (branches strict depth others s).2 (inside counted).2 := by
    refine ⟨?_, after.stats⟩
    have left := keeps_branches strict (depth + 1) others { counted with context := s.context.enterBranch }
    rw [keeps_branches strict depth others s]
    exact (congrArg Context.leaveBranch left).symm
  have settled (e : TemplateError) (fails : (branches strict depth others s).1 = .error e) :
      e.atLine line = e ∧ e.atLine place = e :=
    ⟨branches_error (by omega) fails line, branches_error (by omega) fails place⟩
  rw [show nested = _ from recover_congr entered strict line .conditional []]
  exact @beside_recover_twice _ _ _ inside _ counted same beside _ _ settled strict .conditional []

end Render

def Node.chained (first : Branch) (condition : Option Text) (body : Block) (place : Nat) (rest : List Branch)
    (line : Nat) : Node :=
  .conditional (first :: .mk .elseIf condition body place :: rest) line

def Node.nested (first : Branch) (condition : Option Text) (body : Block) (place : Nat) (rest : List Branch)
    (line : Nat) (unused : Option Text) (last : Nat) : Node :=
  .conditional [first, .mk .otherwise unused [.conditional (.mk .first condition body place :: rest) place] last] line

namespace Render

section

variable {strict : Bool} {depth : Nat} {condition : Option Text} {body : Block} {place : Nat} {rest : List Branch}

theorem node_nested (first : Branch) (line : Nat) (unused : Option Text) (last : Nat)
    (room : depth + 2 + Node.branchHeights (.mk .elseIf condition body place :: rest) ≤ nestingMax) (s : Progress) :
    let chained := node strict depth (.chained first condition body place rest line) s
    let nested := node strict depth (.nested first condition body place rest line unused last) s
    chained.1 = nested.1 ∧ Beside (· = ·) chained.2 nested.2 := by
  intro chained nested
  obtain ⟨kind, condition', body', place'⟩ := first
  let counted : Progress := { s with stats := { s.stats with conditionals := s.stats.conditionals + 1 } }
  let inner : Node := .conditional (.mk .first condition body place :: rest) place
  let others := .mk .elseIf condition body place :: rest
  have left : chained = recover strict line .conditional []
      (branches strict depth (.mk kind condition' body' place' :: others)) counted :=
    node_conditional strict depth _ line s
  have right : nested = recover strict line .conditional []
      (branches strict depth [.mk kind condition' body' place', .mk .otherwise unused [inner] last]) counted :=
    node_conditional strict depth _ line s
  rw [left, right]
  by_cases passed : counted.context.test kind condition' = .ok false
  · have behind : branches strict depth (.mk kind condition' body' place' :: others) counted =
        branches strict depth others counted := by
      rw [branches_cons, passed]
    have behind' : branches strict depth [.mk kind condition' body' place', .mk .otherwise unused [inner] last] counted =
        inBranch (Render.block strict (depth + 1) [inner]) counted := by
      rw [branches_cons, passed]
      exact branches_cons strict depth .otherwise unused [inner] last [] counted
    rw [recover_congr behind, recover_congr behind']
    exact recover_nested room line counted
  · rw [recover_congr (branches_of_decided passed others _)]
    exact ⟨rfl, rfl, rfl⟩

theorem mirrors_of_additive {α : Type} {m : Render α} (h : Additive m) : Mirrors (· = ·) m m := by
  intro s t beside
  rw [h s, h t, ← beside.contexts]
  refine ⟨rfl, rfl, ?_⟩
  rw [Progress.onto, Progress.onto, Stats.flat_plus, Stats.flat_plus, beside.stats]

theorem mirrors_nested (first : Branch) (line : Nat) (unused : Option Text) (last : Nat)
    (room : depth + 2 + Node.branchHeights (.mk .elseIf condition body place :: rest) ≤ nestingMax) :
    Mirrors (· = ·) (node strict depth (.chained first condition body place rest line))
      (node strict depth (.nested first condition body place rest line unused last)) := by
  intro s t beside
  obtain ⟨same, after⟩ := mirrors_of_additive (stable_additive.node strict depth _) s t beside
  obtain ⟨same', after'⟩ := node_nested first line unused last room t
  exact ⟨same.trans same', after.contexts.trans after'.contexts, after.stats.trans after'.stats⟩

theorem mirrors_around {n n' : Node} (h : Mirrors (· = ·) (node strict depth n) (node strict depth n'))
    (before after : List Node) :
    Mirrors (· = ·) (nodes strict depth (before ++ n :: after)) (nodes strict depth (before ++ n' :: after)) := by
  induction before with
  | nil =>
      apply mirrors_bind h
      intro text
      exact mirrors_bind (mirrors_of_additive (stable_additive.nodes strict depth after)) fun more => mirrors_pure _
  | cons first rest ih =>
      apply mirrors_bind (mirrors_of_additive (stable_additive.node strict depth first))
      intro text
      exact mirrors_bind ih fun more => mirrors_pure _

theorem bindAll_around {n n' : Node} (free : n.isBinding = false) (free' : n'.isBinding = false)
    (before after : List Node) : bindAll strict (before ++ n :: after) = bindAll strict (before ++ n' :: after) := by
  induction before with
  | nil =>
      have skip : ∀ {n : Node}, n.isBinding = false → bindAll strict (n :: after) = bindAll strict after := by
        intro n free
        cases n with
        | binding => cases free
        | _ => rfl
      rw [List.nil_append, List.nil_append, skip free, skip free']
  | cons first rest ih =>
      cases first with
      | binding name expression line => rw [List.cons_append, List.cons_append, bindAll, bindAll, ih]
      | _ => exact ih

theorem mirrors_block_around {n n' : Node} (free : n.isBinding = false) (free' : n'.isBinding = false)
    (h : Mirrors (· = ·) (node strict depth n) (node strict depth n')) (room : depth ≤ nestingMax)
    (before after : List Node) :
    Mirrors (· = ·) (Render.block strict depth (before ++ n :: after))
      (Render.block strict depth (before ++ n' :: after)) := by
  have limit : ¬ nestingMax < depth := Nat.not_lt.mpr room
  rw [Render.block, Render.block, enterBlock, enterBlock, if_neg limit, if_neg limit]
  refine mirrors_bind (mirrors_count id (fun _ => rfl) fun _ => rfl) ?_
  intro _
  rw [bindAll_around free free' before after]
  apply mirrors_bind (mirrors_of_additive (stable_additive.bindAll strict _))
  intro _
  exact mirrors_around h before after

end

end Render

/--
The branches of a conditional from an else-if on can as well stand in a conditional of their own, at the line of the
else-if, in a last branch behind the first one, if their bodies may lie one level deeper. In both modes a block comes to
the same text or error either way, leaves the same context, and counts the same but for conditionals and depth.
-/
theorem elseIf_nests (strict : Bool) (depth : Nat) (before after : Block) (first : Branch) (condition : Option Text)
    (body : Block) (place : Nat) (rest : List Branch) (line : Nat) (unused : Option Text) (last : Nat)
    (room : depth + 2 + Node.branchHeights (.mk .elseIf condition body place :: rest) ≤ nestingMax) (s : Progress) :
    let chained := Render.block strict depth (before ++ .chained first condition body place rest line :: after) s
    let nested := Render.block strict depth (before ++ .nested first condition body place rest line unused last :: after) s
    nested.1 = chained.1 ∧ nested.2.context = chained.2.context ∧
      { nested.2.stats with
        conditionals := chained.2.stats.conditionals, maxDepth := chained.2.stats.maxDepth } = chained.2.stats := by
  intro chained nested
  obtain ⟨same, contexts, stats⟩ := Render.mirrors_block_around rfl rfl
    (@Render.mirrors_nested strict depth condition body place rest first line unused last room) (by omega) before after
    s s ⟨rfl, rfl⟩
  refine ⟨same.symm, contexts.symm, ?_⟩
  have restored := congrArg (fun a : Stats =>
    { a with conditionals := chained.2.stats.conditionals, maxDepth := chained.2.stats.maxDepth }) stats
  exact restored.symm

def inTheMorning : Branch := .mk .first (some "morning".toList) [.text "Good morning".toList] 1

def otherTimes : List Branch := [.mk .otherwise none [.text "Hello".toList] 3]

theorem elseIf_nests_evening :
    0 + 2 + Node.branchHeights (.mk .elseIf (some "evening".toList) [.text "Good evening".toList] 2 :: otherTimes) ≤
        nestingMax ∧
      (Render.block true 0
        [.nested inTheMorning (some "evening".toList) [.text "Good evening".toList] 2 otherTimes 1 none 2]
        (.fresh (.ofRoot [("evening".toList, .bool true)]))).1 = .ok "Good evening".toList := by
  have room : 0 + 2 + Node.branchHeights
      (.mk .elseIf (some "evening".toList) [.text "Good evening".toList] 2 :: otherTimes) ≤ nestingMax := by decide
  refine ⟨room, ?_⟩
  have nests := elseIf_nests true 0 [] [] inTheMorning (some "evening".toList) [.text "Good evening".toList] 2 otherTimes 1
    none 2 room (.fresh (.ofRoot [("evening".toList, .bool true)]))
  exact nests.1.trans rfl

end TextTemplate
