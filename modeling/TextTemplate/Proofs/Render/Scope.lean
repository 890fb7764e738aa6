import TextTemplate.Proofs.Render.Depth
import TextTemplate.Proofs.Render.Modes
import TextTemplate.Proofs.Value.Entries

namespace TextTemplate

def Entries.insertEach (entries : Entries) (made : List (Text × Value)) : Entries :=
  made.foldl (fun entries binding => entries.insert binding.1 binding.2) entries

theorem Entries.get?_insertEach (entries : Entries) (made : List (Text × Value)) (name : Text) :
    (entries.insertEach made).get? name =
      ((made.reverse.find? fun binding => binding.1 = name).map Prod.snd).or (entries.get? name) := by
  induction made generalizing entries with
  | nil => rfl
  | cons binding rest ih =>
      have first : entries.insertEach (binding :: rest) = (entries.insert binding.1 binding.2).insertEach rest := rfl
      rw [first, ih, Entries.get?_insert, List.reverse_cons, List.find?_append]
      by_cases same : binding.1 = name
      · cases rest.reverse.find? fun binding => binding.1 = name <;> simp [same]
      · simp [same]

namespace Context

def made (strict : Bool) (ctx : Context) : List Node → List (Text × Value)
  | [] => []
  | .binding name expression _ :: rest =>
      match (do (← Expr.read expression).value ctx) with
      | .ok value => (name, value) :: (ctx.bind name value).made strict rest
      | .error _ => if strict then [] else ctx.made strict rest
  | _ :: rest => ctx.made strict rest

section

variable {strict : Bool} {ctx : Context} {name expression : Text} {line : Nat} {rest : List Node}

theorem made_of_ok {v : Value} (value : (do (← Expr.read expression).value ctx) = .ok v) :
    ctx.made strict (.binding name expression line :: rest) = (name, v) :: (ctx.bind name v).made strict rest := by
  rw [made, value]

theorem made_of_error {fault : ExprFault} (failed : (do (← Expr.read expression).value ctx) = .error fault) :
    ctx.made strict (.binding name expression line :: rest) = if strict then [] else ctx.made strict rest := by
  rw [made, failed]

end

def bindEach (ctx : Context) (made : List (Text × Value)) : Context :=
  made.foldl (fun ctx binding => ctx.bind binding.1 binding.2) ctx

variable {root : Option Entries} {item : Option Text}

theorem bindEach_innermost (frame : Frame) (outer : List Frame) (made : List (Text × Value)) :
    (Context.mk root (frame :: outer) item).bindEach made =
      ⟨root, ⟨frame.kind, frame.bindings.insertEach made⟩ :: outer, item⟩ := by
  induction made generalizing frame with
  | nil => rfl
  | cons binding rest ih => exact ih ⟨frame.kind, frame.bindings.insert binding.1 binding.2⟩

theorem bindEach_bare (made : List (Text × Value)) : (Context.mk root [] item).bindEach made = ⟨root, [], item⟩ := by
  induction made with
  | nil => rfl
  | cons _ _ ih => exact ih

/-- Bindings change nothing of a context but the innermost frame, if there is one, and there only what is bound. -/
structure Gains (before after : Context) (made : List (Text × Value)) : Prop where
  root : after.root = before.root
  item : after.item = before.item
  kinds : after.frames.map Frame.kind = before.frames.map Frame.kind
  outer : after.frames.tail = before.frames.tail
  innermost : ∀ frame ∈ before.frames.head?, after.frames.head? = some ⟨frame.kind, frame.bindings.insertEach made⟩
  last : ∀ frame ∈ before.frames.head?, ∀ changed ∈ after.frames.head?, ∀ name,
    changed.bindings.get? name =
      ((made.reverse.find? fun binding => binding.1 = name).map Prod.snd).or (frame.bindings.get? name)

theorem gains_bindEach (ctx : Context) (made : List (Text × Value)) : Gains ctx (ctx.bindEach made) made := by
  obtain ⟨root, frames, item⟩ := ctx
  cases frames with
  | nil =>
      rw [bindEach_bare]
      exact ⟨rfl, rfl, rfl, rfl, nofun, nofun⟩
  | cons frame outer =>
      rw [bindEach_innermost]
      refine ⟨rfl, rfl, rfl, rfl, ?_, ?_⟩
      · rintro _ ⟨⟩
        rfl
      · rintro _ ⟨⟩ _ ⟨⟩ name
        exact frame.bindings.get?_insertEach made name

theorem leaveBranch_bindEach (ctx : Context) (made : List (Text × Value)) :
    (ctx.enterBranch.bindEach made).leaveBranch = ctx := by
  obtain ⟨root, frames, item⟩ := ctx
  rw [enterBranch, bindEach_innermost]
  rfl

end Context

namespace Render

def Keeps {α : Type} (m : Render α) : Prop := ∀ s, (m s).2.context = s.context

section

variable {α β : Type} {m : Render α}

theorem keeps_pure (a : α) : Keeps (pure a) := fun _ => rfl

theorem keeps_context : Keeps context := fun _ => rfl

theorem keeps_count (change : Stats → Stats) : Keeps (count change) := fun _ => rfl

theorem keeps_ofExpr (result : Except ExprFault α) : Keeps (ofExpr result) := fun _ => rfl

theorem keeps_bind {f : α → Render β} (first : Keeps m) (second : ∀ a, Keeps (f a)) : Keeps (m >>= f) := by
  intro s
  have begun := first s
  rcases done : m s with ⟨_ | a, after⟩ <;> rw [done] at begun
  · rw [bind_of_error done]
    exact begun
  · rw [bind_of_ok done, second a after]
    exact begun

theorem context_recover (strict : Bool) (line : Nat) (kind : DirectiveKind) (fallback : α) (m : Render α)
    (s : Progress) : (recover strict line kind fallback m s).2.context = (m s).2.context := by
  rcases done : m s with ⟨_ | _, after⟩
  · cases strict <;> simp [recover, done]
  · simp [recover, done]

theorem keeps_recover {strict : Bool} {line : Nat} {kind : DirectiveKind} {fallback : α} (h : Keeps m) :
    Keeps (recover strict line kind fallback m) := by
  intro s
  rw [context_recover, h s]

theorem keeps_within (ctx : Context) (m : Render α) : Keeps (within ctx m) := fun _ => rfl

end

theorem keeps_interpolate (source : Text) : Keeps (interpolate source) :=
  keeps_bind (keeps_count _) fun _ => keeps_bind keeps_context fun _ => keeps_ofExpr _

theorem keeps_selects (kind : BranchKind) (condition : Option Text) (line : Nat) :
    Keeps (selects kind condition line) := by
  by_cases last : kind = .otherwise
  · subst last
    exact keeps_pure true
  · cases condition with
    | none => cases kind <;> exact keeps_pure true
    | some source =>
        rw [selects_some last]
        cases Condition.read source with
        | error fault => exact fun _ => rfl
        | ok condition => exact keeps_bind keeps_context fun _ => keeps_pure _

theorem keeps_eachItem (index : Option Text) (item : Text) (body : Render Text) (position : Nat)
    (elements : List Value) : Keeps (eachItem index item body position elements) := by
  induction elements generalizing position with
  | nil => exact keeps_pure []
  | cons element rest ih =>
      apply keeps_bind (keeps_within _ body)
      intro text
      apply keeps_bind (keeps_count _)
      intro _
      apply keeps_bind (ih (position + 1))
      intro texts
      exact keeps_pure (text :: texts)

theorem keeps_expandLoop (index : Option Text) (item path : Text) (body : Render Text) :
    Keeps (expandLoop index item path body) := by
  apply keeps_bind (keeps_ofExpr _)
  intro path
  apply keeps_bind keeps_context
  intro ctx
  rcases ctx.resolve path with _ | value
  · exact keeps_pure []
  · cases value with
    | array items =>
        apply keeps_bind (keeps_count _)
        intro _
        apply keeps_bind (keeps_eachItem index item body 0 items)
        intro texts
        exact keeps_pure (Text.join ['\n'] texts)
    | _ => exact keeps_pure []

section

variable {strict : Bool} {name expression : Text} {line : Nat} {rest : List Node} {s : Progress}

theorem bindingValue_apply (expression : Text) (s : Progress) :
    bindingValue expression s = ((do (← Expr.read expression).value s.context).mapError .expression, s) := rfl

theorem bindAll_of_ok {v : Value} (value : (do (← Expr.read expression).value s.context) = .ok v) :
    bindAll strict (.binding name expression line :: rest) s =
      bindAll strict rest { s with
        context := s.context.bind name v
        stats := { s.stats with bindings := s.stats.bindings + 1 } } := by
  have own := bindingValue_apply expression s
  rw [value] at own
  have found : (some <$> bindingValue expression : Render (Option Value)) s = (.ok (some v), s) := bind_of_ok own
  have binds : recover strict line .binding none (some <$> bindingValue expression) s = (.ok (some v), s) := by
    simp only [recover, found]
  rw [bindAll, bind_of_ok binds]
  rfl

theorem bindAll_of_error {fault : ExprFault} (failed : (do (← Expr.read expression).value s.context) = .error fault) :
    bindAll strict (.binding name expression line :: rest) s =
      if strict then (.error (.directive line fault), s)
      else
        bindAll strict rest { s with
          stats := { s.stats with suppressedErrors := s.stats.suppressedErrors + 1 }
          suppressed := s.suppressed ++ [⟨line, .binding, .expression fault⟩] } := by
  have own := bindingValue_apply expression s
  rw [failed] at own
  have fails : (some <$> bindingValue expression : Render (Option Value)) s = (.error (.expression fault), s) :=
    bind_of_error own
  cases strict with
  | true =>
      have stops : recover true line .binding none (some <$> bindingValue expression) s =
          (.error (.directive line fault), s) := by
        simp only [recover, fails, if_true, TemplateError.atLine]
      rw [bindAll, bind_of_error stops]
      rfl
  | false =>
      let noted : Progress := { s with
        stats := { s.stats with suppressedErrors := s.stats.suppressedErrors + 1 }
        suppressed := s.suppressed ++ [⟨line, .binding, .expression fault⟩] }
      have drops : recover false line .binding none (some <$> bindingValue expression) s = (.ok none, noted) := by
        simp only [recover, fails, Bool.false_eq_true, if_false, noted]
      rw [bindAll, bind_of_ok drops]
      rfl

end

theorem nodes_binding (strict : Bool) (depth : Nat) (name expression : Text) (line : Nat) (rest : List Node) :
    nodes strict depth (.binding name expression line :: rest) = nodes strict depth rest := by
  funext s
  have started : node strict depth (.binding name expression line) s = (.ok [], s) := rfl
  rw [nodes, bind_of_ok started]
  rcases done : nodes strict depth rest s with ⟨_ | more, after⟩
  · exact bind_of_error done
  · exact bind_of_ok done

theorem context_bindAll (strict : Bool) (block : Block) (s : Progress) :
    (bindAll strict block s).2.context = s.context.bindEach (s.context.made strict block) := by
  induction block generalizing s with
  | nil => rfl
  | cons node rest ih =>
      cases node with
      | binding name expression line =>
          rcases value : (do (← Expr.read expression).value s.context) with fault | v
          · rw [bindAll_of_error value, Context.made_of_error value]
            cases strict with
            | true => rfl
            | false => exact ih _
          · rw [bindAll_of_ok value, Context.made_of_ok value]
            exact ih _
      | _ => exact ih s

theorem context_enterBlock {nodes : Render Text} (keeps : Keeps nodes) (strict : Bool) (depth : Nat) (block : Block)
    (s : Progress) :
    (enterBlock strict depth block nodes s).2.context =
      s.context.bindEach (if nestingMax < depth then [] else s.context.made strict block) := by
  rw [enterBlock]
  by_cases deep : nestingMax < depth
  · rw [if_pos deep, if_pos deep]
    rfl
  · rw [if_neg deep, if_neg deep]
    let begun : Progress := { s with stats := { s.stats with maxDepth := max s.stats.maxDepth (depth + 1) } }
    have bound : (bindAll strict block begun).2.context = s.context.bindEach (s.context.made strict block) :=
      context_bindAll strict block begun
    have started : count (fun stats => { stats with maxDepth := max stats.maxDepth (depth + 1) }) s = (.ok (), begun) :=
      rfl
    rw [bind_of_ok started]
    rcases done : bindAll strict block begun with ⟨_ | _, after⟩ <;> rw [done] at bound
    · rw [bind_of_error done]
      exact bound
    · rw [bind_of_ok done, keeps after]
      exact bound

theorem keeps_inBranch {nodes : Render Text} (keeps : Keeps nodes) (strict : Bool) (depth : Nat) (block : Block) :
    Keeps (inBranch (enterBlock strict depth block nodes)) := by
  intro s
  have inside := context_enterBlock keeps strict depth block { s with context := s.context.enterBranch }
  rw [inBranch]
  simp only [inside]
  exact Context.leaveBranch_bindEach s.context _

mutual

theorem keeps_node (strict : Bool) (depth : Nat) : (n : Node) → Keeps (node strict depth n)
  | .text content => keeps_pure content
  | .binding _ _ _ => keeps_pure []
  | .interpolation source _ => keeps_recover (keeps_interpolate source)
  | .loop index item path body _ => keeps_recover (keeps_expandLoop index item path _)
  | .conditional choices _ => by
      rw [node]
      apply keeps_recover
      apply keeps_bind (keeps_count _)
      intro _
      exact keeps_branches strict depth choices

theorem keeps_nodes (strict : Bool) (depth : Nat) : (block : List Node) → Keeps (nodes strict depth block)
  | [] => keeps_pure []
  | first :: rest => by
      apply keeps_bind (keeps_node strict depth first)
      intro text
      apply keeps_bind (keeps_nodes strict depth rest)
      intro more
      exact keeps_pure (text ++ more)

theorem keeps_branches (strict : Bool) (depth : Nat) : (choices : List Branch) → Keeps (branches strict depth choices)
  | [] => keeps_pure []
  | .mk kind condition body line :: rest => by
      apply keeps_bind (keeps_selects kind condition line)
      intro selected
      cases selected with
      | true => exact keeps_inBranch (keeps_nodes strict (depth + 1) body) strict (depth + 1) body
      | false => exact keeps_branches strict depth rest

end

theorem context_block (strict : Bool) (depth : Nat) (block : Block) (s : Progress) :
    (Render.block strict depth block s).2.context =
      s.context.bindEach (if nestingMax < depth then [] else s.context.made strict block) :=
  context_enterBlock (keeps_nodes strict depth block) strict depth block s

end Render

/--
Whatever a render of a block comes to, in either mode and at any depth, the counter of blocks is back where it was and
the context is as it was, but for the innermost frame. There the bindings of the block itself are set that were made in
order up to the first that stops the render, or none if the block lies too deep.
-/
theorem block_scope (strict : Bool) (block : Block) (s : Metered) :
    ∃ result after, Counting.block strict block s = (result, after) ∧
      Render.block strict s.depth block s.progress = (result, after.progress) ∧ after.depth = s.depth ∧
      s.progress.context.Gains after.progress.context
        (if nestingMax < s.depth then [] else s.progress.context.made strict block) := by
  have counted := Counting.counts_block strict s.depth block s.progress
  have context := Render.context_block strict s.depth block s.progress
  rcases done : Render.block strict s.depth block s.progress with ⟨result, after⟩
  rw [done] at counted context
  refine ⟨result, ⟨s.depth, after⟩, counted, rfl, rfl, ?_⟩
  rw [context]
  exact Context.gains_bindEach _ _

end TextTemplate
