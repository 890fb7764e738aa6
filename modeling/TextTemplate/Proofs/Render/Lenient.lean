import TextTemplate.Proofs.Render.Reach
import TextTemplate.Proofs.Render.Scope

namespace TextTemplate

namespace Lenient

structure Outcome where
  text : Text
  suppressed : List Suppression

namespace Outcome

def ofText (t : Text) : Outcome := ⟨t, []⟩

def failed (line : Nat) (kind : DirectiveKind) (error : TemplateError) : Outcome := ⟨[], [⟨line, kind, error⟩]⟩

def append (a b : Outcome) : Outcome := ⟨a.text ++ b.text, a.suppressed ++ b.suppressed⟩

def lines (parts : List Outcome) : Outcome := ⟨Text.join ['\n'] (parts.map text), parts.flatMap suppressed⟩

def recovered (line : Nat) (kind : DirectiveKind) (noted : List Suppression) : Except TemplateError Text → Outcome
  | .ok t => ⟨t, noted⟩
  | .error e => ⟨[], noted ++ [⟨line, kind, e⟩]⟩

end Outcome

end Lenient

namespace Context

def test (ctx : Context) (kind : BranchKind) (condition : Option Text) : Except ExprFault Bool :=
  match kind, condition with
  | .otherwise, _ => .ok true
  | _, none => .ok true
  | _, some source => (Condition.read source).map fun c => c.eval ctx

theorem test_some {kind : BranchKind} (early : kind ≠ .otherwise) (ctx : Context) (source : Text) :
    ctx.test kind (some source) = (Condition.read source).map fun c => c.eval ctx := by
  cases kind with
  | otherwise => exact absurd rfl early
  | _ => rfl

theorem resolves_array_or (ctx : Context) (p : Path) :
    (∃ items, ctx.resolve p = some (.array items)) ∨ ∀ items, ctx.resolve p ≠ some (.array items) :=
  (Classical.em _).imp_right not_exists.mp

def unbound (ctx : Context) : List Node → List Suppression
  | [] => []
  | .binding name expression line :: rest =>
      match (do (← Expr.read expression).value ctx) with
      | .ok value => (ctx.bind name value).unbound rest
      | .error fault => ⟨line, .binding, .expression fault⟩ :: ctx.unbound rest
  | _ :: rest => ctx.unbound rest

end Context

namespace Lenient

mutual

def node (depth : Nat) (ctx : Context) : Node → Outcome
  | .text content => .ofText content
  | .binding _ _ _ => .ofText []
  | .interpolation source line =>
      match (do (← Expr.read source).render ctx) with
      | .ok t => .ofText t
      | .error fault => .failed line .interpolation (.expression fault)
  | .loop index item path body line =>
      match Path.read path with
      | .error fault => .failed line .loop (.expression fault)
      | .ok p =>
          match ctx.resolve p with
          | some (.array items) =>
              if nestingMax ≤ depth ∧ items ≠ [] then .failed line .loop (.expression .tooDeep)
              else
                .lines (items.mapIdx fun i element =>
                  let inner := Context.ofIteration element item (index.map fun name => (name, i))
                  Outcome.append ⟨[], inner.unbound body⟩ (nodes (depth + 1) (inner.withBindings body) body))
          | _ => .ofText []
  | .conditional choices line => branches depth ctx line choices

def nodes (depth : Nat) (ctx : Context) : List Node → Outcome
  | [] => .ofText []
  | first :: rest => (node depth ctx first).append (nodes depth ctx rest)

def branches (depth : Nat) (ctx : Context) (line : Nat) : List Branch → Outcome
  | [] => .ofText []
  | .mk kind condition body place :: rest =>
      match ctx.test kind condition with
      | .error fault => .failed line .conditional (.directive place fault)
      | .ok false => branches depth ctx line rest
      | .ok true =>
          if nestingMax ≤ depth then .failed line .conditional (.expression .tooDeep)
          else
            let inner := ctx.enterBranch
            Outcome.append ⟨[], inner.unbound body⟩ (nodes (depth + 1) (inner.withBindings body) body)

end

def block (depth : Nat) (ctx : Context) (body : Block) : Outcome :=
  Outcome.append ⟨[], ctx.unbound body⟩ (nodes depth (ctx.withBindings body) body)

section

variable {depth : Nat} {ctx : Context}

theorem node_interpolation_of_ok {source t : Text} {line : Nat}
    (shows : (do (← Expr.read source).render ctx) = .ok t) :
    node depth ctx (.interpolation source line) = .ofText t := by
  rw [node, shows]

theorem node_interpolation_of_error {source : Text} {line : Nat} {fault : ExprFault}
    (fails : (do (← Expr.read source).render ctx) = .error fault) :
    node depth ctx (.interpolation source line) = .failed line .interpolation (.expression fault) := by
  rw [node, fails]

section

variable {index : Option Text} {item path : Text} {body : Block} {line : Nat} {p : Path}

theorem node_loop_of_error {fault : ExprFault} (fails : Path.read path = .error fault) :
    node depth ctx (.loop index item path body line) = .failed line .loop (.expression fault) := by
  rw [node, fails]

theorem node_loop_of_other (read : Path.read path = .ok p) (other : ∀ items, ctx.resolve p ≠ some (.array items)) :
    node depth ctx (.loop index item path body line) = .ofText [] := by
  rw [node, read]
  dsimp only
  split
  · exact absurd ‹_› (other _)
  · rfl

theorem node_loop_of_array {items : List Value} (read : Path.read path = .ok p)
    (resolves : ctx.resolve p = some (.array items)) :
    node depth ctx (.loop index item path body line) =
      if nestingMax ≤ depth ∧ items ≠ [] then .failed line .loop (.expression .tooDeep)
      else
        .lines (items.mapIdx fun i element =>
          block (depth + 1) (.ofIteration element item (index.map fun name => (name, i))) body) := by
  rw [node, read]
  dsimp only
  rw [resolves]
  rfl

end

theorem nodes_cons (first : Node) (rest : List Node) :
    nodes depth ctx (first :: rest) = (node depth ctx first).append (nodes depth ctx rest) := rfl

theorem text_nodes (block : List Node) :
    (nodes depth ctx block).text = block.flatMap fun n => (node depth ctx n).text := by
  induction block with
  | nil => rfl
  | cons first rest ih => rw [nodes_cons, Outcome.append, ih, List.flatMap_cons]

theorem text_nodes_single (n : Node) : (nodes depth ctx [n]).text = (node depth ctx n).text := List.append_nil _

theorem text_block (body : Block) : (block depth ctx body).text = (nodes depth (ctx.withBindings body) body).text := rfl

section

variable {line place : Nat} {kind : BranchKind} {condition : Option Text} {body : Block}

theorem branches_of_error {fault : ExprFault} (fails : ctx.test kind condition = .error fault) (rest : List Branch) :
    branches depth ctx line (.mk kind condition body place :: rest) =
      .failed line .conditional (.directive place fault) := by
  rw [branches, fails]

theorem branches_of_false (passed : ctx.test kind condition = .ok false) (rest : List Branch) :
    branches depth ctx line (.mk kind condition body place :: rest) = branches depth ctx line rest := by
  rw [branches, passed]

theorem branches_of_true (selected : ctx.test kind condition = .ok true) (rest : List Branch) :
    branches depth ctx line (.mk kind condition body place :: rest) =
      if nestingMax ≤ depth then .failed line .conditional (.expression .tooDeep)
      else block (depth + 1) ctx.enterBranch body := by
  rw [branches, selected]
  rfl

end

end

end Lenient

def Progress.noting (s : Progress) (x : Suppression) : Progress :=
  { s with
    stats := { s.stats with suppressedErrors := s.stats.suppressedErrors + 1 }
    suppressed := s.suppressed ++ [x] }

namespace Render
open Lenient (Outcome)

theorem notes_noting (s : Progress) (x : Suppression) : Notes (fun _ => True) s (s.noting x) [x] :=
  ⟨rfl, rfl, fun _ _ => trivial⟩

section

variable {α : Type} {strict : Bool} {line : Nat} {kind : DirectiveKind} {fallback : α} {m : Render α}
  {s after : Progress}

theorem recover_of_ok {a : α} (h : m s = (.ok a, after)) : recover strict line kind fallback m s = (.ok a, after) := by
  simp only [recover, h]

theorem recover_strict {e : TemplateError} (h : m s = (.error e, after)) :
    recover true line kind fallback m s = (.error (e.atLine line), after) := by
  simp only [recover, h, if_true]

theorem recover_lenient {e : TemplateError} (h : m s = (.error e, after)) :
    recover false line kind fallback m s = (.ok fallback, after.noting ⟨line, kind, e⟩) := by
  simp only [recover, h, Bool.false_eq_true, if_false, Progress.noting]

end

/-! ## Computations begun in a context -/

/--
Begun in a context, a computation ends with a result and in another context, whatever was done before, and what it
suppresses is noted behind what was.
-/
def ComesTo {α : Type} (ctx : Context) (result : Except TemplateError α) (after : Context) (noted : List Suppression)
    (m : Render α) : Prop :=
  ∀ s : Progress, s.context = ctx →
    ∃ t : Progress, m s = (result, t) ∧ t.context = after ∧ Notes (fun _ => True) s t noted

def Gives (ctx : Context) (o : Outcome) (m : Render Text) : Prop := ComesTo ctx (.ok o.text) ctx o.suppressed m

def Recovers (ctx : Context) (line : Nat) (kind : DirectiveKind) (o : Outcome) (m : Render Text) : Prop :=
  ∃ result noted, ComesTo ctx result ctx noted m ∧ Outcome.recovered line kind noted result = o

section

variable {α β : Type} {ctx middle after : Context} {result : Except TemplateError β} {xs ys : List Suppression}
  {m : Render α} {f : α → Render β}

theorem comesTo_pure (a : α) : ComesTo ctx (.ok a) ctx [] (pure a) :=
  fun s at_ => ⟨s, rfl, at_, .refl s⟩

theorem comesTo_fail (e : TemplateError) : ComesTo ctx (.error e) ctx [] (fail e : Render β) :=
  fun s at_ => ⟨s, rfl, at_, .refl s⟩

theorem comesTo_bind {a : α} (first : ComesTo ctx (.ok a) middle xs m) (second : ComesTo middle result after ys (f a)) :
    ComesTo ctx result after (xs ++ ys) (m >>= f) := by
  intro s at_
  obtain ⟨t, gives, here, notes⟩ := first s at_
  obtain ⟨u, ends, there, notes'⟩ := second t here
  exact ⟨u, (bind_of_ok gives).trans ends, there, notes.trans notes'⟩

theorem comesTo_step {a : α} (first : ComesTo ctx (.ok a) middle [] m) (second : ComesTo middle result after ys (f a)) :
    ComesTo ctx result after ys (m >>= f) :=
  comesTo_bind first second

theorem comesTo_stop {e : TemplateError} (first : ComesTo ctx (.error e) after xs m) :
    ComesTo ctx (.error e) after xs (m >>= f) := by
  intro s at_
  obtain ⟨t, fails, here, notes⟩ := first s at_
  exact ⟨t, bind_of_error fails, here, notes⟩

theorem comesTo_context {f : Context → Render β} (h : ComesTo ctx result after ys (f ctx)) :
    ComesTo ctx result after ys (context >>= f) := by
  rintro s rfl
  exact h s rfl

theorem comesTo_count {change : Stats → Stats} {f : Unit → Render β}
    (quiet : ∀ stats, (change stats).suppressedErrors = stats.suppressedErrors)
    (h : ComesTo ctx result after ys (f ())) : ComesTo ctx result after ys (count change >>= f) := by
  rintro s rfl
  obtain ⟨t, ends, here, notes⟩ := h { s with stats := change s.stats } rfl
  exact ⟨t, ends, here, notes.suppressed, by rw [notes.counted, quiet], notes.raised⟩

theorem comesTo_ofExpr (result : Except ExprFault β) :
    ComesTo ctx (result.mapError .expression) ctx [] (ofExpr result) :=
  fun s at_ => ⟨s, rfl, at_, .refl s⟩

theorem comesTo_within {other : Context} (h : ComesTo other result after ys n) :
    ComesTo ctx result ctx ys (within other n) := by
  rintro s rfl
  obtain ⟨t, ends, -, notes⟩ := h { s with context := other } rfl
  refine ⟨{ t with context := s.context }, ?_, rfl, notes.suppressed, notes.counted, notes.raised⟩
  simp only [within, ends]

theorem comesTo_inBranch (h : ComesTo ctx.enterBranch result after ys n) (left : after.leaveBranch = ctx) :
    ComesTo ctx result ctx ys (inBranch n) := by
  rintro s rfl
  obtain ⟨t, ends, here, notes⟩ := h { s with context := s.context.enterBranch } rfl
  refine ⟨{ t with context := t.context.leaveBranch }, ?_, ?_, notes.suppressed, notes.counted, notes.raised⟩
  · simp only [inBranch, ends]
  · rw [← left, ← here]

end

theorem gives_recover {ctx : Context} {line : Nat} {kind : DirectiveKind} {o : Outcome} {m : Render Text}
    (h : Recovers ctx line kind o m) : Gives ctx o (recover false line kind [] m) := by
  obtain ⟨result, noted, comes, rfl⟩ := h
  intro s at_
  obtain ⟨t, ends, here, notes⟩ := comes s at_
  cases result with
  | ok text => exact ⟨t, recover_of_ok ends, here, notes⟩
  | error e => exact ⟨t.noting ⟨line, kind, e⟩, recover_lenient ends, here, notes.trans (notes_noting t _)⟩

section

variable {ctx : Context}

theorem comesTo_bindAll (block : Block) :
    ComesTo ctx (.ok ()) (ctx.withBindings block) (ctx.unbound block) (bindAll false block) := by
  induction block generalizing ctx with
  | nil => exact comesTo_pure ()
  | cons node rest ih =>
      cases node with
      | binding name expression line =>
          rintro s rfl
          rcases value : (do (← Expr.read expression).value s.context) with fault | v
          · rw [bindAll_of_error value, Context.withBindings, Context.unbound, value]
            obtain ⟨t, ends, here, notes⟩ := ih (s.noting ⟨line, .binding, .expression fault⟩) rfl
            exact ⟨t, ends, here, (notes_noting s _).trans notes⟩
          · rw [bindAll_of_ok value, Context.withBindings, Context.unbound, value]
            obtain ⟨t, ends, here, notes⟩ := ih { s with
              context := s.context.bind name v
              stats := { s.stats with bindings := s.stats.bindings + 1 } } rfl
            exact ⟨t, ends, here, notes.suppressed, notes.counted, notes.raised⟩
      | _ => exact ih

theorem comesTo_enterBlock {depth : Nat} {block : Block} {o : Outcome} {m : Render Text} (room : depth ≤ nestingMax)
    (h : Gives (ctx.withBindings block) o m) :
    ComesTo ctx (.ok o.text) (ctx.withBindings block) (ctx.unbound block ++ o.suppressed)
      (enterBlock false depth block m) := by
  rw [enterBlock, if_neg (Nat.not_lt.mpr room)]
  exact comesTo_count (fun _ => rfl) (comesTo_bind (comesTo_bindAll block) h)

theorem comesTo_enterBlock_deep {depth : Nat} (deep : nestingMax < depth) (block : Block) (m : Render Text) :
    ComesTo ctx (.error (.expression .tooDeep)) ctx [] (enterBlock false depth block m) := by
  rw [enterBlock, if_pos deep]
  exact comesTo_fail _

theorem selects_apply (kind : BranchKind) (condition : Option Text) (line : Nat) (s : Progress) :
    selects kind condition line s = ((s.context.test kind condition).mapError (.directive line), s) := by
  by_cases last : kind = .otherwise
  · subst last
    rfl
  · cases condition with
    | none => cases kind <;> rfl
    | some source =>
        rw [selects_some last, Context.test_some last]
        cases Condition.read source <;> rfl

theorem comesTo_selects (kind : BranchKind) (condition : Option Text) (line : Nat) :
    ComesTo ctx ((ctx.test kind condition).mapError (.directive line)) ctx [] (selects kind condition line) := by
  rintro s rfl
  exact ⟨s, selects_apply kind condition line s, rfl, .refl s⟩

theorem comesTo_eachItem (index : Option Text) (item : Text) {body : Render Text} (run : Nat → Value → Outcome)
    {left : Nat → Value → Context} (position : Nat) (elements : List Value)
    (h : ∀ i element, ComesTo (.ofIteration element item (index.map fun name => (name, i))) (.ok (run i element).text)
      (left i element) (run i element).suppressed body) :
    let parts := elements.mapIdx fun i element => run (position + i) element
    ComesTo ctx (.ok (parts.map Outcome.text)) ctx (parts.flatMap Outcome.suppressed)
      (eachItem index item body position elements) := by
  intro parts
  induction elements generalizing position with
  | nil => exact comesTo_pure []
  | cons element rest ih =>
      have split : parts = run position element :: rest.mapIdx fun i element => run (position + 1 + i) element := by
        simp only [parts, List.mapIdx_cons, Nat.add_zero, Nat.add_assoc, Nat.add_comm 1]
      rw [split, List.flatMap_cons, List.map_cons]
      apply comesTo_bind (comesTo_within (h position element))
      refine comesTo_count (fun _ => rfl) ?_
      rw [← List.append_nil (List.flatMap _ _)]
      exact comesTo_bind (ih (position + 1)) (comesTo_pure _)

theorem recovers_interpolate (depth : Nat) (source : Text) (line : Nat) :
    Recovers ctx line .interpolation (Lenient.node depth ctx (.interpolation source line)) (interpolate source) := by
  refine ⟨_, _, comesTo_count (fun _ => rfl) (comesTo_context (comesTo_ofExpr _)), ?_⟩
  rcases shows : (do (← Expr.read source).render ctx) with fault | t
  · rw [Lenient.node_interpolation_of_error shows, shows]
    rfl
  · rw [Lenient.node_interpolation_of_ok shows, shows]
    rfl

theorem comesTo_expandLoop_of_array {index : Option Text} {item path : Text} {p : Path} {items : List Value}
    {inside : Render Text} {result : Except TemplateError (List Text)} {noted : List Suppression}
    (read : Path.read path = .ok p) (resolves : ctx.resolve p = some (.array items))
    (h : ComesTo ctx result ctx noted (eachItem index item inside 0 items)) :
    ComesTo ctx (result.map (Text.join ['\n'])) ctx noted (expandLoop index item path inside) := by
  rw [expandLoop, read]
  refine comesTo_step (comesTo_pure p) (comesTo_context ?_)
  rw [resolves]
  refine comesTo_count (fun _ => rfl) ?_
  cases result with
  | error e => exact comesTo_stop h
  | ok texts =>
      rw [← List.append_nil noted]
      exact comesTo_bind h (comesTo_pure _)

theorem recovers_expandLoop {depth : Nat} (index : Option Text) (item path : Text) {body : Block} (line : Nat)
    (inside : ∀ inner : Context, depth < nestingMax →
      ComesTo inner (.ok (Lenient.block (depth + 1) inner body).text) (inner.withBindings body)
        (Lenient.block (depth + 1) inner body).suppressed (Render.block false (depth + 1) body)) :
    Recovers ctx line .loop (Lenient.node depth ctx (.loop index item path body line))
      (expandLoop index item path (Render.block false (depth + 1) body)) := by
  rcases read : Path.read path with fault | p
  · rw [Lenient.node_loop_of_error read, expandLoop, read]
    exact ⟨.error (.expression fault), [], comesTo_stop (comesTo_fail _), rfl⟩
  · rcases ctx.resolves_array_or p with ⟨items, resolves⟩ | other
    · rw [Lenient.node_loop_of_array read resolves]
      by_cases deep : nestingMax ≤ depth
      · cases items with
        | nil =>
            have none : ¬ (nestingMax ≤ depth ∧ ([] : List Value) ≠ []) := fun h => h.2 rfl
            rw [if_neg none]
            exact ⟨_, _, comesTo_expandLoop_of_array read resolves (comesTo_pure []), rfl⟩
        | cons element rest =>
            rw [if_pos ⟨deep, List.cons_ne_nil element rest⟩]
            have refused : ComesTo ctx (.error (.expression .tooDeep)) ctx []
                (eachItem index item (Render.block false (depth + 1) body) 0 (element :: rest)) :=
              comesTo_stop (comesTo_within (comesTo_enterBlock_deep (Nat.lt_succ_of_le deep) body _))
            exact ⟨_, _, comesTo_expandLoop_of_array read resolves refused, rfl⟩
      · have room : depth < nestingMax := Nat.not_le.mp deep
        rw [if_neg fun h => deep h.1]
        let run (i : Nat) (element : Value) : Outcome :=
          Lenient.block (depth + 1) (.ofIteration element item (index.map fun name => (name, i))) body
        have each := @comesTo_eachItem ctx index item _ run _ 0 items fun i element => inside _ room
        simp only [Nat.zero_add] at each
        exact ⟨_, _, comesTo_expandLoop_of_array read resolves each, rfl⟩
    · rw [Lenient.node_loop_of_other read other, expandLoop, read]
      refine ⟨.ok [], [], comesTo_step (comesTo_pure p) (comesTo_context ?_), rfl⟩
      rcases resolves : ctx.resolve p with _ | value
      · exact comesTo_pure []
      · cases value with
        | array items => exact absurd resolves (other items)
        | _ => exact comesTo_pure []

end

theorem gives_enterBlock {depth : Nat} (room : depth ≤ nestingMax) (ctx : Context) {body : Block}
    (h : ∀ inner, Gives inner (Lenient.nodes depth inner body) (nodes false depth body)) :
    ComesTo ctx (.ok (Lenient.block depth ctx body).text) (ctx.withBindings body)
      (Lenient.block depth ctx body).suppressed (Render.block false depth body) :=
  comesTo_enterBlock room (h _)

mutual

theorem gives_node (depth : Nat) (ctx : Context) :
    (n : Node) → Gives ctx (Lenient.node depth ctx n) (node false depth n)
  | .text content => comesTo_pure content
  | .binding _ _ _ => comesTo_pure []
  | .interpolation source line => gives_recover (recovers_interpolate depth source line)
  | .loop index item path body line =>
      gives_recover (recovers_expandLoop index item path line fun _ room =>
        gives_enterBlock room _ fun inner => gives_nodes (depth + 1) inner body)
  | .conditional choices line => by
      obtain ⟨result, noted, comes, same⟩ := recovers_branches depth ctx line choices
      exact gives_recover ⟨result, noted, comesTo_count (fun _ => rfl) comes, same⟩

theorem gives_nodes (depth : Nat) (ctx : Context) :
    (block : List Node) → Gives ctx (Lenient.nodes depth ctx block) (nodes false depth block)
  | [] => comesTo_pure []
  | first :: rest => by
      rw [Lenient.nodes_cons]
      apply comesTo_bind (gives_node depth ctx first)
      rw [← List.append_nil (Lenient.nodes depth ctx rest).suppressed]
      exact comesTo_bind (gives_nodes depth ctx rest) (comesTo_pure _)

theorem recovers_branches (depth : Nat) (ctx : Context) (line : Nat) :
    (choices : List Branch) →
      Recovers ctx line .conditional (Lenient.branches depth ctx line choices) (branches false depth choices)
  | [] => ⟨_, _, comesTo_pure [], rfl⟩
  | .mk kind condition body place :: rest => by
      have selects := @comesTo_selects ctx kind condition place
      rw [branches]
      rcases test : ctx.test kind condition with fault | selected
      · rw [test] at selects
        rw [Lenient.branches_of_error test]
        exact ⟨_, _, comesTo_stop selects, rfl⟩
      · rw [test] at selects
        cases selected with
        | false =>
            rw [Lenient.branches_of_false test]
            obtain ⟨result, noted, comes, same⟩ := recovers_branches depth ctx line rest
            exact ⟨result, noted, comesTo_step selects comes, same⟩
        | true =>
            rw [Lenient.branches_of_true test]
            by_cases deep : nestingMax ≤ depth
            · rw [if_pos deep]
              have refused : ComesTo ctx.enterBranch (.error (.expression .tooDeep)) ctx.enterBranch []
                  (Render.block false (depth + 1) body) :=
                comesTo_enterBlock_deep (Nat.lt_succ_of_le deep) body _
              exact ⟨_, _, comesTo_step selects (comesTo_inBranch refused rfl), rfl⟩
            · rw [if_neg deep]
              have left := leaveBranch_withBindings ctx body
              have inside := gives_enterBlock (Nat.not_le.mp deep) ctx.enterBranch fun inner =>
                gives_nodes (depth + 1) inner body
              exact ⟨_, _, comesTo_step selects (comesTo_inBranch inside left), rfl⟩

end

theorem gives_block {depth : Nat} (room : depth ≤ nestingMax) (ctx : Context) (body : Block) :
    ComesTo ctx (.ok (Lenient.block depth ctx body).text) (ctx.withBindings body)
      (Lenient.block depth ctx body).suppressed (Render.block false depth body) :=
  gives_enterBlock room ctx fun inner => gives_nodes depth inner body

end Render

/-! ## Templates -/

def Value.mapping : Value → Entries
  | object entries => entries
  | _ => []

theorem render_eq {template : Text} {block : Block} {demoted : List Demotion}
    (read : Block.ofTokens false (Token.scan template) = .ok (block, demoted)) (data : Value) :
    render template data = (Lenient.block 0 (.ofRoot data.mapping) block).text := by
  have parsed : Template.parse false template = .ok ⟨block, demoted, template.utf8Size⟩ :=
    Template.parse_eq_ok.mpr ⟨read, rfl⟩
  have whole : (if data.isObject then data else .object []) = .object data.mapping := by cases data <;> rfl
  have rooted : Template.root [] (.object data.mapping) = .ok data.mapping := rfl
  obtain ⟨after, gives, -⟩ :=
    Render.gives_block (Nat.zero_le _) (.ofRoot data.mapping) block (Template.start data.mapping) rfl
  have renders : renderWithOptions .lenient template (.object data.mapping) =
      Template.render ⟨block, demoted, template.utf8Size⟩ ⟨false, []⟩ (.object data.mapping) := by
    rw [renderWithOptions, show Options.lenient.strict = false from rfl, parsed]
    rfl
  rw [Template.render_of_root rooted, gives] at renders
  rw [render, whole, renders]

end TextTemplate
