import TextTemplate.Proofs.Render.Modes

namespace TextTemplate

inductive Stats.Tally : (Stats → Stats) → Prop
  | interpolation : Tally fun stats => { stats with interpolations := stats.interpolations + 1 }
  | loop : Tally fun stats => { stats with loops := stats.loops + 1 }
  | iteration : Tally fun stats => { stats with iterations := stats.iterations + 1 }
  | conditional : Tally fun stats => { stats with conditionals := stats.conditionals + 1 }
  | binding : Tally fun stats => { stats with bindings := stats.bindings + 1 }
  | block {depth : Nat} : depth ≤ nestingMax →
      Tally fun stats => { stats with maxDepth := max stats.maxDepth (depth + 1) }

namespace Render

structure Stable (P : (α : Type) → Render α → Prop) : Prop where
  gives {α : Type} (a : α) : P α (pure a)
  chains {α β : Type} {m : Render α} {f : α → Render β} : P α m → (∀ a, P β (f a)) → P β (m >>= f)
  fails {α : Type} (e : TemplateError) : P α (fail e)
  looks : P Context context
  counts {change : Stats → Stats} : Stats.Tally change → P Unit (count change)
  binds (name : Text) (value : Value) : P Unit (bind name value)
  elsewhere {α : Type} (ctx : Context) {m : Render α} : P α m → P α (within ctx m)
  framed {α : Type} {m : Render α} : P α m → P α (inBranch m)
  recovers {α : Type} (strict : Bool) (line : Nat) (kind : DirectiveKind) (fallback : α) {m : Render α} :
    P α m → P α (recover strict line kind fallback m)

namespace Stable

variable {P : (α : Type) → Render α → Prop}

theorem ofExpr (h : Stable P) {α : Type} (result : Except ExprFault α) : P α (ofExpr result) := by
  cases result with
  | ok a => exact h.gives a
  | error fault => exact h.fails (.expression fault)

theorem bindingValue (h : Stable P) (expression : Text) : P Value (bindingValue expression) :=
  h.chains h.looks fun _ => h.ofExpr _

theorem bindAll (h : Stable P) (strict : Bool) (block : Block) : P Unit (bindAll strict block) := by
  induction block with
  | nil => exact h.gives ()
  | cons node rest ih =>
      cases node with
      | binding name expression line =>
          apply h.chains
          · apply h.recovers
            apply h.chains (h.bindingValue expression)
            intro value
            exact h.gives (some value)
          · intro value
            cases value with
            | none => exact ih
            | some value =>
                apply h.chains (h.binds name value)
                intro _
                apply h.chains (h.counts .binding)
                intro _
                exact ih
      | _ => exact ih

theorem interpolate (h : Stable P) (source : Text) : P Text (interpolate source) := by
  apply h.chains (h.counts .interpolation)
  intro _
  apply h.chains h.looks
  intro ctx
  exact h.ofExpr _

theorem enterBlock (h : Stable P) (strict : Bool) (depth : Nat) (block : Block) {nodes : Render Text}
    (inside : P Text nodes) : P Text (enterBlock strict depth block nodes) := by
  rw [Render.enterBlock]
  by_cases deep : nestingMax < depth
  · rw [if_pos deep]
    exact h.fails _
  · rw [if_neg deep]
    apply h.chains (h.counts (.block (Nat.not_lt.mp deep)))
    intro _
    apply h.chains (h.bindAll strict block)
    intro _
    exact inside

theorem eachItem (h : Stable P) (index : Option Text) (item : Text) {body : Render Text} (inside : P Text body)
    (position : Nat) (elements : List Value) : P (List Text) (eachItem index item body position elements) := by
  induction elements generalizing position with
  | nil => exact h.gives []
  | cons element rest ih =>
      apply h.chains (h.elsewhere _ inside)
      intro text
      apply h.chains (h.counts .iteration)
      intro _
      apply h.chains (ih (position + 1))
      intro texts
      exact h.gives (text :: texts)

theorem expandLoop (h : Stable P) (index : Option Text) (item path : Text) {body : Render Text}
    (inside : P Text body) : P Text (expandLoop index item path body) := by
  apply h.chains (h.ofExpr _)
  intro path
  apply h.chains h.looks
  intro ctx
  rcases ctx.resolve path with _ | value
  · exact h.gives []
  · cases value with
    | array items =>
        apply h.chains (h.counts .loop)
        intro _
        apply h.chains (h.eachItem index item inside 0 items)
        intro texts
        exact h.gives (Text.join ['\n'] texts)
    | _ => exact h.gives []

theorem selects (h : Stable P) (kind : BranchKind) (condition : Option Text) (line : Nat) :
    P Bool (selects kind condition line) := by
  by_cases last : kind = .otherwise
  · subst last
    exact h.gives true
  · cases condition with
    | none => cases kind <;> exact h.gives true
    | some source =>
        rw [selects_some last]
        cases Condition.read source with
        | error fault => exact h.fails _
        | ok condition => exact h.chains h.looks fun ctx => h.gives (condition.eval ctx)

mutual

theorem node (h : Stable P) (strict : Bool) (depth : Nat) : (n : Node) → P Text (node strict depth n)
  | .text content => h.gives content
  | .binding _ _ _ => h.gives []
  | .interpolation source _ => h.recovers _ _ _ _ (h.interpolate source)
  | .loop index item path body _ =>
      h.recovers _ _ _ _
        (h.expandLoop index item path (h.enterBlock strict (depth + 1) body (nodes h strict (depth + 1) body)))
  | .conditional choices _ => by
      rw [Render.node]
      apply h.recovers
      apply h.chains (h.counts .conditional)
      intro _
      exact branches h strict depth choices

theorem nodes (h : Stable P) (strict : Bool) (depth : Nat) : (block : List Node) → P Text (nodes strict depth block)
  | [] => h.gives []
  | first :: rest => by
      apply h.chains (node h strict depth first)
      intro text
      apply h.chains (nodes h strict depth rest)
      intro more
      exact h.gives (text ++ more)

theorem branches (h : Stable P) (strict : Bool) (depth : Nat) :
    (choices : List Branch) → P Text (branches strict depth choices)
  | [] => h.gives []
  | .mk kind condition body line :: rest => by
      apply h.chains (h.selects kind condition line)
      intro selected
      cases selected with
      | true => exact h.framed (h.enterBlock strict (depth + 1) body (nodes h strict (depth + 1) body))
      | false => exact branches h strict depth rest

end

theorem block (h : Stable P) (strict : Bool) (depth : Nat) (body : Block) : P Text (block strict depth body) :=
  h.enterBlock strict depth body (h.nodes strict depth body)

end Stable

end Render

end TextTemplate
