import TextTemplate.Render

namespace TextTemplate

/-- The progress of a render, with the number of blocks that it has entered and not left. -/
structure Metered where
  depth : Nat
  progress : Progress

def Counting (α : Type) : Type := Metered → Except TemplateError α × Metered

namespace Counting

variable {α β : Type}

instance : Monad Counting where
  pure a := fun s => (.ok a, s)
  bind m f := fun s =>
    match m s with
    | (.ok a, s) => f a s
    | (.error e, s) => (.error e, s)

def ofRender (m : Render α) : Counting α := fun s =>
  let (result, after) := m s.progress
  (result, { s with progress := after })

def within (ctx : Context) (m : Counting α) : Counting α := fun s =>
  let (result, after) := m { s with progress := { s.progress with context := ctx } }
  (result, { after with progress := { after.progress with context := s.progress.context } })

def inBranch (m : Counting α) : Counting α := fun s =>
  let (result, after) := m { s with progress := { s.progress with context := s.progress.context.enterBranch } }
  (result, { after with progress := { after.progress with context := after.progress.context.leaveBranch } })

def recover (strict : Bool) (line : Nat) (kind : DirectiveKind) (fallback : α) (m : Counting α) : Counting α := fun s =>
  let (result, after) := m s
  ofRender (.recover strict line kind fallback fun progress => (result, progress)) after

def enterBlock (strict : Bool) (block : Block) (nodes : Counting Text) : Counting Text := fun s =>
  if nestingMax < s.depth then (.error (.expression .tooDeep), s)
  else
    let inside : Counting Text := do
      ofRender (.count fun stats => { stats with maxDepth := max stats.maxDepth (s.depth + 1) })
      ofRender (.bindAll strict block)
      nodes
    let (result, after) := inside { s with depth := s.depth + 1 }
    (result, { after with depth := after.depth - 1 })

def eachItem (index : Option Text) (item : Text) (body : Counting Text) : Nat → List Value → Counting (List Text)
  | _, [] => pure []
  | position, element :: rest => do
      let text ← within (.ofIteration element item (index.map fun name => (name, position))) body
      ofRender (.count fun stats => { stats with iterations := stats.iterations + 1 })
      let texts ← eachItem index item body (position + 1) rest
      pure (text :: texts)

def expandLoop (index : Option Text) (item path : Text) (body : Counting Text) : Counting Text := do
  let path ← ofRender (.ofExpr (Path.read path))
  match (← ofRender .context).resolve path with
  | some (.array items) => do
      ofRender (.count fun stats => { stats with loops := stats.loops + 1 })
      return Text.join ['\n'] (← eachItem index item body 0 items)
  | _ => return []

mutual

def node (strict : Bool) : Node → Counting Text
  | .text content => pure content
  | .binding _ _ _ => pure []
  | .interpolation source line => recover strict line .interpolation [] (ofRender (.interpolate source))
  | .loop index item path body line =>
      recover strict line .loop [] <| expandLoop index item path (enterBlock strict body (nodes strict body))
  | .conditional choices line =>
      recover strict line .conditional [] do
        ofRender (.count fun stats => { stats with conditionals := stats.conditionals + 1 })
        branches strict choices

def nodes (strict : Bool) : List Node → Counting Text
  | [] => pure []
  | first :: rest => do
      let text ← node strict first
      let more ← nodes strict rest
      return text ++ more

def branches (strict : Bool) : List Branch → Counting Text
  | [] => pure []
  | .mk kind condition body line :: rest => do
      if ← ofRender (.selects kind condition line) then inBranch (enterBlock strict body (nodes strict body))
      else branches strict rest

end

def block (strict : Bool) (block : Block) : Counting Text := enterBlock strict block (nodes strict block)

/-- Begun at a depth, a counting computation does what another one does that is told the depth, and ends at it. -/
def Counts (depth : Nat) (m : Counting α) (n : Render α) : Prop :=
  ∀ s : Progress, m ⟨depth, s⟩ = ((n s).1, ⟨depth, (n s).2⟩)

variable {depth : Nat} {m : Counting α} {n : Render α} {strict : Bool}

theorem counts_ofRender (n : Render α) : Counts depth (ofRender n) n := fun _ => rfl

theorem counts_pure (a : α) : Counts depth (pure a) (pure a) := fun _ => rfl

theorem counts_bind {f : α → Counting β} {g : α → Render β} (first : Counts depth m n)
    (second : ∀ a, Counts depth (f a) (g a)) : Counts depth (m >>= f) (n >>= g) := by
  intro s
  have begun := first s
  rcases done : n s with ⟨result, after⟩
  rw [done] at begun
  cases result with
  | ok a =>
      have left : (m >>= f) ⟨depth, s⟩ = f a ⟨depth, after⟩ := by simp only [Bind.bind, begun]
      have right : (n >>= g) s = g a after := by simp only [Bind.bind, done]
      rw [left, right]
      exact second a after
  | error e =>
      have left : (m >>= f) ⟨depth, s⟩ = (.error e, ⟨depth, after⟩) := by simp only [Bind.bind, begun]
      have right : (n >>= g) s = (.error e, after) := by simp only [Bind.bind, done]
      rw [left, right]

theorem counts_within {ctx : Context} (h : Counts depth m n) : Counts depth (within ctx m) (.within ctx n) := by
  intro s
  simp only [within, Render.within, h { s with context := ctx }]

theorem counts_inBranch (h : Counts depth m n) : Counts depth (inBranch m) (.inBranch n) := by
  intro s
  simp only [inBranch, Render.inBranch, h { s with context := s.context.enterBranch }]

theorem counts_recover {line : Nat} {kind : DirectiveKind} {fallback : α} (h : Counts depth m n) :
    Counts depth (recover strict line kind fallback m) (.recover strict line kind fallback n) := by
  intro s
  rcases done : n s with ⟨_ | _, after⟩ <;> simp only [recover, ofRender, Render.recover, h s, done]

theorem counts_enterBlock {block : Block} {m : Counting Text} {n : Render Text} (h : Counts (depth + 1) m n) :
    Counts depth (enterBlock strict block m) (.enterBlock strict depth block n) := by
  intro s
  by_cases deep : nestingMax < depth
  · simp only [enterBlock, Render.enterBlock, if_pos deep]
    rfl
  · have inside := counts_bind
      (counts_ofRender (.count fun stats => { stats with maxDepth := max stats.maxDepth (depth + 1) }))
      fun _ => counts_bind (counts_ofRender (.bindAll strict block)) fun _ => h
    simp only [enterBlock, Render.enterBlock, if_neg deep]
    rw [inside s]
    rfl

theorem counts_eachItem {index : Option Text} {item : Text} {m : Counting Text} {n : Render Text}
    (h : Counts depth m n) (position : Nat) (elements : List Value) :
    Counts depth (eachItem index item m position elements) (.eachItem index item n position elements) := by
  induction elements generalizing position with
  | nil => exact counts_pure []
  | cons element rest ih =>
      apply counts_bind (counts_within h)
      intro text
      apply counts_bind (counts_ofRender _)
      intro _
      apply counts_bind (ih (position + 1))
      intro texts
      exact counts_pure (text :: texts)

theorem counts_expandLoop {index : Option Text} {item path : Text} {m : Counting Text} {n : Render Text}
    (h : Counts depth m n) : Counts depth (expandLoop index item path m) (.expandLoop index item path n) := by
  apply counts_bind (counts_ofRender _)
  intro path
  apply counts_bind (counts_ofRender _)
  intro ctx
  rcases ctx.resolve path with _ | value
  · exact counts_pure []
  · cases value with
    | array items =>
        apply counts_bind (counts_ofRender _)
        intro _
        apply counts_bind (counts_eachItem h 0 items)
        intro texts
        exact counts_pure (Text.join ['\n'] texts)
    | _ => exact counts_pure []

-- Where a block is told a depth, its nodes find the counter one above it.
mutual

theorem counts_node (strict : Bool) (depth : Nat) :
    (n : Node) → Counts (depth + 1) (node strict n) (.node strict depth n)
  | .text content => counts_pure content
  | .binding _ _ _ => counts_pure []
  | .interpolation source _ => counts_recover (counts_ofRender (.interpolate source))
  | .loop _ _ _ body _ => counts_recover (counts_expandLoop (counts_enterBlock (counts_nodes strict (depth + 1) body)))
  | .conditional choices _ => by
      rw [node, Render.node]
      apply counts_recover
      apply counts_bind (counts_ofRender _)
      intro _
      exact counts_branches strict depth choices

theorem counts_nodes (strict : Bool) (depth : Nat) :
    (block : List Node) → Counts (depth + 1) (nodes strict block) (.nodes strict depth block)
  | [] => counts_pure []
  | first :: rest => by
      apply counts_bind (counts_node strict depth first)
      intro text
      apply counts_bind (counts_nodes strict depth rest)
      intro more
      exact counts_pure (text ++ more)

theorem counts_branches (strict : Bool) (depth : Nat) :
    (choices : List Branch) → Counts (depth + 1) (branches strict choices) (.branches strict depth choices)
  | [] => counts_pure []
  | .mk kind condition body line :: rest => by
      apply counts_bind (counts_ofRender (.selects kind condition line))
      intro selected
      cases selected with
      | true => exact counts_inBranch (counts_enterBlock (counts_nodes strict (depth + 1) body))
      | false => exact counts_branches strict depth rest

end

theorem counts_block (strict : Bool) (depth : Nat) (block : Block) :
    Counts depth (Counting.block strict block) (.block strict depth block) :=
  counts_enterBlock (counts_nodes strict depth block)

end Counting

end TextTemplate
