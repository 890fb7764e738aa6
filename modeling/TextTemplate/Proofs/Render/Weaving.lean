import TextTemplate.Proofs.Render.Modes
import TextTemplate.Proofs.Value.Entries

/-!
# A string of the data is never read as template

The renders of a block for all strings under one key of the data do the same, if the block uses the key only to show it:
each gives the same pieces of text with its own string between them, or all end with the same error. `Uniform` says
this of a computation over a family of roots that differ under one key only, and is shown for the computations of
`Render` one by one; a loop is left out of it, since its elements hide the root from its body.
-/

namespace TextTemplate

def Operand.paths : Operand → List Path
  | literal _ => []
  | path p => [p]

def Condition.paths : Condition → List Path
  | compare left _ right => left :: right.paths
  | truthy p _ => [p]

def Expr.paths : Expr → List Path
  | operand o => o.paths
  | condition c => c.paths
  | ternary c whenTrue whenFalse => c.paths ++ (whenTrue.paths ++ whenFalse.paths)

namespace Node

inductive Parses : Node → Path → Prop
  | interpolation {source : Text} {line : Nat} {e : Expr} {p : Path} :
      Expr.read source = .ok e → p ∈ e.paths → Parses (.interpolation source line) p
  | binding {name expression : Text} {line : Nat} {e : Expr} {p : Path} :
      Expr.read expression = .ok e → p ∈ e.paths → Parses (.binding name expression line) p
  | loop {index : Option Text} {item path : Text} {body : Block} {line : Nat} {p : Path} :
      Path.read path = .ok p → Parses (.loop index item path body line) p
  | conditional {branches : List Branch} {line : Nat} {kind : BranchKind} {source : Text} {body : Block} {place : Nat}
      {c : Condition} {p : Path} :
      .mk kind (some source) body place ∈ branches → kind ≠ .otherwise → Condition.read source = .ok c → p ∈ c.paths →
      Parses (.conditional branches line) p

def Shows (k : Text) (node : Node) : Prop :=
  ∃ source line, node = .interpolation source line ∧ Expr.read source = .ok (.operand (.path ⟨[k]⟩))

end Node

def Path.BeginsWith (k : Text) (p : Path) : Prop := p.segments.head? = some k

namespace Block

def Mentions (block : Block) (k : Text) : Prop := ∃ node p, Occurs node block ∧ node.Parses p ∧ p.BeginsWith k

def ShowsOnly (k : Text) (M : Prop) (block : Block) : Prop :=
  ∀ node p, Occurs node block → node.Parses p → p.BeginsWith k → node.Shows k ∧ M

theorem ShowsOnly.mono {k : Text} {M : Prop} {block more : Block} (h : ShowsOnly k M more) (part : block ⊆ more) :
    ShowsOnly k M block :=
  fun node p occurs => h node p (occurs.mono part)

end Block

/-! ## Roots that differ under one key -/

/-- Roots with a string under a key, the same but for this string. -/
structure Vary (k : Text) (R : Text → Entries) : Prop where
  own : ∀ s, (R s).get? k = some (.text s)
  others : ∀ s t name, name ≠ k → (R s).get? name = (R t).get? name

namespace Context

def withRoot (ctx : Context) (root : Entries) : Context := { ctx with root := some root }

theorem resolve_withRoot_cons {ctx : Context} (bare : ctx.item = none) (root : Entries) (first : Text)
    (rest : List Text) :
    (ctx.withRoot root).resolve ⟨first :: rest⟩ =
      ((ctx.frames.findSome? fun frame => frame.bindings.get? first).or (root.get? first)).bind
        (Value.walk? · rest) := by
  have whole : (ctx.withRoot root).withoutItem (first :: rest) = first :: rest := by
    cases rest <;> simp [withoutItem, withRoot, bare]
  rw [resolve, whole]
  rfl

section

variable {k : Text} {R : Text → Entries} {ctx : Context}

theorem resolve_withRoot (vary : Vary k R) (bare : ctx.item = none) {p : Path} (apart : ¬ p.BeginsWith k) (s t : Text) :
    (ctx.withRoot (R s)).resolve p = (ctx.withRoot (R t)).resolve p := by
  obtain ⟨segments⟩ := p
  cases segments with
  | nil => rfl
  | cons first rest =>
      have differs : first ≠ k := by
        rintro rfl
        exact apart rfl
      rw [resolve_withRoot_cons bare, resolve_withRoot_cons bare, vary.others s t first differs]

theorem resolve_own (vary : Vary k R) (bare : ctx.item = none) (s : Text) :
    (ctx.withRoot (R s)).resolve ⟨[k]⟩ =
      (ctx.frames.findSome? fun frame => frame.bindings.get? k).or (some (.text s)) := by
  rw [resolve_withRoot_cons bare, vary.own]
  simp [Value.walk?]

end

end Context

section

variable {k : Text} {R : Text → Entries} {ctx : Context}

theorem Operand.eval_withRoot (vary : Vary k R) (bare : ctx.item = none) {o : Operand}
    (apart : ∀ p ∈ o.paths, ¬ p.BeginsWith k) (s t : Text) :
    o.eval (ctx.withRoot (R s)) = o.eval (ctx.withRoot (R t)) := by
  cases o with
  | literal v => rfl
  | path p => exact Context.resolve_withRoot vary bare (apart p List.mem_cons_self) s t

theorem Operand.branchText_withRoot (vary : Vary k R) (bare : ctx.item = none) {o : Operand}
    (apart : ∀ p ∈ o.paths, ¬ p.BeginsWith k) (s t : Text) :
    o.branchText (ctx.withRoot (R s)) = o.branchText (ctx.withRoot (R t)) := by
  rw [branchText, branchText, eval_withRoot vary bare apart s t]

theorem Condition.eval_withRoot (vary : Vary k R) (bare : ctx.item = none) {c : Condition}
    (apart : ∀ p ∈ c.paths, ¬ p.BeginsWith k) (s t : Text) :
    c.eval (ctx.withRoot (R s)) = c.eval (ctx.withRoot (R t)) := by
  cases c with
  | compare left op right =>
      obtain ⟨first, others⟩ := List.forall_mem_cons.mp apart
      rw [eval, eval, Context.resolve_withRoot vary bare first s t, Operand.eval_withRoot vary bare others s t]
  | truthy p negated =>
      rw [eval, eval, Context.resolve_withRoot vary bare (apart p List.mem_cons_self) s t]

theorem Expr.winner_withRoot (vary : Vary k R) (bare : ctx.item = none) {c : Condition} {whenTrue whenFalse : Operand}
    (apart : ∀ p ∈ (ternary c whenTrue whenFalse).paths, ¬ p.BeginsWith k) (s t : Text) :
    (if c.eval (ctx.withRoot (R s)) then whenTrue else whenFalse).branchText (ctx.withRoot (R s)) =
      (if c.eval (ctx.withRoot (R t)) then whenTrue else whenFalse).branchText (ctx.withRoot (R t)) := by
  obtain ⟨test, others⟩ := List.forall_mem_append.mp apart
  obtain ⟨first, second⟩ := List.forall_mem_append.mp others
  rw [Condition.eval_withRoot vary bare test s t]
  split
  · exact Operand.branchText_withRoot vary bare first s t
  · exact Operand.branchText_withRoot vary bare second s t

theorem Expr.render_withRoot (vary : Vary k R) (bare : ctx.item = none) {e : Expr}
    (apart : ∀ p ∈ e.paths, ¬ p.BeginsWith k) (s t : Text) :
    e.render (ctx.withRoot (R s)) = e.render (ctx.withRoot (R t)) := by
  cases e with
  | operand o => rw [render, render, Operand.eval_withRoot vary bare apart s t]
  | condition c => rw [render, render, Condition.eval_withRoot vary bare apart s t]
  | ternary c whenTrue whenFalse => exact winner_withRoot vary bare apart s t

theorem Expr.value_withRoot (vary : Vary k R) (bare : ctx.item = none) {e : Expr}
    (apart : ∀ p ∈ e.paths, ¬ p.BeginsWith k) (s t : Text) :
    e.value (ctx.withRoot (R s)) = e.value (ctx.withRoot (R t)) := by
  cases e with
  | operand o => rw [value, value, Operand.eval_withRoot vary bare apart s t]
  | condition c => rw [value, value, Condition.eval_withRoot vary bare apart s t]
  | ternary c whenTrue whenFalse => rw [value, value, winner_withRoot vary bare apart s t]

end

/-! ## Woven texts -/

/-- A text for each string: pieces with the string between them, and only one piece unless `M` holds. -/
def Woven (M : Prop) (a : Text → Text) : Prop :=
  ∃ first more, (¬ M → more = []) ∧ ∀ s, a s = Text.join s (first :: more)

theorem woven_const (M : Prop) (t : Text) : Woven M fun _ => t :=
  ⟨t, [], fun _ => rfl, fun s => by simp [Text.join]⟩

theorem woven_of_constant {M : Prop} (a : Text → Text) (h : ∃ t, a = fun _ => t) : Woven M a := by
  obtain ⟨t, rfl⟩ := h
  exact woven_const M t

theorem woven_own {M : Prop} (mentioned : M) : Woven M fun s => s :=
  ⟨[], [[]], fun absent => absurd mentioned absent, fun s => by simp [Text.join]⟩

theorem woven_display {M : Prop} (mentioned : M) (v : Option Value) :
    Woven M fun s => Value.display (v.or (some (.text s))) := by
  cases v with
  | some v => exact woven_const M (Value.display (some v))
  | none => exact woven_own mentioned

theorem join_cons_cons (s first next : Text) (more : List Text) :
    Text.join s (first :: next :: more) = first ++ (s ++ Text.join s (next :: more)) := by
  simp [Text.join, List.intercalate]

def spliced (first : Text) : List Text → Text → List Text → Text × List Text
  | [], first', more' => (first ++ first', more')
  | next :: more, first', more' =>
      let (head, tail) := spliced next more first' more'
      (first, head :: tail)

theorem join_spliced (s first : Text) (more : List Text) (first' : Text) (more' : List Text) :
    Text.join s ((spliced first more first' more').1 :: (spliced first more first' more').2) =
      Text.join s (first :: more) ++ Text.join s (first' :: more') := by
  induction more generalizing first with
  | nil => cases more' <;> simp [spliced, Text.join, List.intercalate]
  | cons next more ih => rw [spliced, join_cons_cons, ih, join_cons_cons, List.append_assoc, List.append_assoc]

theorem Woven.append {M : Prop} {a b : Text → Text} (ha : Woven M a) (hb : Woven M b) :
    Woven M fun s => a s ++ b s := by
  obtain ⟨first, more, absent, same⟩ := ha
  obtain ⟨first', more', absent', same'⟩ := hb
  refine ⟨(spliced first more first' more').1, (spliced first more first' more').2, fun none => ?_, fun s => ?_⟩
  · rw [absent none, absent' none]
    rfl
  · show a s ++ b s = _
    rw [same, same', join_spliced]

/-! ## One render for each root -/

def Progress.over (p : Progress) (root : Entries) : Progress := { p with context := p.context.withRoot root }

namespace Render

def Constant {α : Type} (a : Text → α) : Prop := ∃ c, a = fun _ => c

def Uniform {α : Type} (R : Text → Entries) (Q : (Text → α) → Prop) (m : Text → Render α) : Prop :=
  ∀ p : Progress, p.context.item = none → ∃ after : Progress, after.context.item = none ∧
    ((∃ a, Q a ∧ ∀ s, m s (p.over (R s)) = (.ok (a s), after.over (R s))) ∨
      ∃ e, ∀ s, m s (p.over (R s)) = (.error e, after.over (R s)))

section

variable {α β : Type} {R : Text → Entries} {P : (Text → α) → Prop} {Q : (Text → β) → Prop}

theorem Uniform.of_same {m : Text → Render β} {n : Render β} (h : Uniform R Q fun _ => n) (same : ∀ s, m s = n) :
    Uniform R Q m := by
  rw [funext same]
  exact h

theorem Uniform.mono {Q' : (Text → β) → Prop} {m : Text → Render β} (h : Uniform R Q m) (more : ∀ b, Q b → Q' b) :
    Uniform R Q' m := by
  intro p bare
  obtain ⟨after, bare', ⟨b, hb, gives⟩ | fails⟩ := h p bare
  · exact ⟨after, bare', .inl ⟨b, more b hb, gives⟩⟩
  · exact ⟨after, bare', .inr fails⟩

theorem uniform_pure {b : Text → β} (h : Q b) : Uniform R Q fun s => pure (b s) :=
  fun p bare => ⟨p, bare, .inl ⟨b, h, fun _ => rfl⟩⟩

theorem uniform_bind {m : Text → Render α} {f : Text → α → Render β} (first : Uniform R P m)
    (second : ∀ a, P a → Uniform R Q fun s => f s (a s)) : Uniform R Q fun s => m s >>= f s := by
  intro p bare
  obtain ⟨after, bare', ⟨a, ha, gives⟩ | ⟨e, fails⟩⟩ := first p bare
  · obtain ⟨last, bare'', ends⟩ := second a ha after bare'
    refine ⟨last, bare'', ?_⟩
    simpa only [bind_of_ok (gives _)] using ends
  · exact ⟨after, bare', .inr ⟨e, fun s => bind_of_error (fails s)⟩⟩

theorem uniform_then {m : Text → Render α} {f : Text → α → Render β} (first : Uniform R Constant m)
    (second : ∀ c, Uniform R Q fun s => f s c) : Uniform R Q fun s => m s >>= f s := by
  apply uniform_bind first
  rintro _ ⟨c, rfl⟩
  exact second c

theorem uniform_recover {m : Text → Render β} {fallback : β} (h : Uniform R Q m) (quiet : Q fun _ => fallback)
    (strict : Bool) (line : Nat) (kind : DirectiveKind) :
    Uniform R Q fun s => recover strict line kind fallback (m s) := by
  intro p bare
  obtain ⟨after, bare', ⟨b, hb, gives⟩ | ⟨e, fails⟩⟩ := h p bare
  · exact ⟨after, bare', .inl ⟨b, hb, fun s => by simp [recover, gives]⟩⟩
  · cases strict with
    | true => exact ⟨after, bare', .inr ⟨e.atLine line, fun s => by simp [recover, fails]⟩⟩
    | false =>
        let noted : Progress := { after with
          stats := { after.stats with suppressedErrors := after.stats.suppressedErrors + 1 }
          suppressed := after.suppressed ++ [⟨line, kind, e⟩] }
        refine ⟨noted, bare', .inl ⟨_, quiet, fun s => ?_⟩⟩
        simp only [recover, fails]
        rfl

theorem uniform_context {f : Context → Render β}
    (h : ∀ ctx : Context, ctx.item = none → Uniform R Q fun s => f (ctx.withRoot (R s))) :
    Uniform R Q fun _ => context >>= f :=
  fun p bare => h p.context bare p bare

theorem uniform_count (change : Stats → Stats) : Uniform R Constant fun _ => count change :=
  fun p bare => ⟨{ p with stats := change p.stats }, bare, .inl ⟨_, ⟨(), rfl⟩, fun _ => rfl⟩⟩

theorem uniform_ofExpr (result : Except ExprFault α) : Uniform R Constant fun _ => ofExpr result := by
  intro p bare
  refine ⟨p, bare, ?_⟩
  cases result with
  | ok a => exact .inl ⟨_, ⟨a, rfl⟩, fun _ => rfl⟩
  | error fault => exact .inr ⟨_, fun _ => rfl⟩

theorem uniform_fail (e : TemplateError) : Uniform R Q fun _ => fail e :=
  fun p bare => ⟨p, bare, .inr ⟨e, fun _ => rfl⟩⟩

theorem uniform_within (ctx : Context) (m : Render α) : Uniform R Constant fun _ => within ctx m := by
  intro p bare
  rcases ends : m { p with context := ctx } with ⟨result, after⟩
  have same : ∀ s, within ctx m (p.over (R s)) = (result, Progress.over { after with context := p.context } (R s)) := by
    intro s
    have ends : m { p.over (R s) with context := ctx } = (result, after) := ends
    rw [within, ends]
    rfl
  refine ⟨{ after with context := p.context }, bare, ?_⟩
  cases result with
  | ok a => exact .inl ⟨_, ⟨a, rfl⟩, same⟩
  | error e => exact .inr ⟨e, same⟩

theorem uniform_inBranch {m : Text → Render β} (h : Uniform R Q m) : Uniform R Q fun s => inBranch (m s) := by
  intro p bare
  obtain ⟨after, bare', ends⟩ := h { p with context := p.context.enterBranch } bare
  have same : ∀ s result, m s (Progress.over { p with context := p.context.enterBranch } (R s)) =
      (result, after.over (R s)) →
      inBranch (m s) (p.over (R s)) =
        (result, Progress.over { after with context := after.context.leaveBranch } (R s)) := by
    intro s result ends
    have ends : m s { p.over (R s) with context := (p.over (R s)).context.enterBranch } = (result, after.over (R s)) :=
      ends
    rw [inBranch, ends]
    rfl
  refine ⟨{ after with context := after.context.leaveBranch }, bare', ?_⟩
  rcases ends with ⟨b, hb, gives⟩ | ⟨e, fails⟩
  · exact .inl ⟨b, hb, fun s => same s _ (gives s)⟩
  · exact .inr ⟨e, fun s => same s _ (fails s)⟩

theorem uniform_name (name : Text) (value : Value) : Uniform R Constant fun _ => bind name value := by
  rintro ⟨⟨root, frames, item⟩, stats, suppressed⟩ bare
  cases frames with
  | nil => exact ⟨⟨⟨root, [], item⟩, stats, suppressed⟩, bare, .inl ⟨_, ⟨(), rfl⟩, fun _ => rfl⟩⟩
  | cons frame outer =>
      let bound : Frame := { frame with bindings := frame.bindings.insert name value }
      exact ⟨⟨⟨root, bound :: outer, item⟩, stats, suppressed⟩, bare, .inl ⟨_, ⟨(), rfl⟩, fun _ => rfl⟩⟩

end

section

variable {k : Text} {R : Text → Entries} {M : Prop}

theorem uniform_eachItem (index : Option Text) (item : Text) (body : Render Text) (position : Nat)
    (elements : List Value) : Uniform R Constant fun _ => eachItem index item body position elements := by
  induction elements generalizing position with
  | nil => exact uniform_pure ⟨[], rfl⟩
  | cons element rest ih =>
      apply uniform_then (uniform_within _ body)
      intro text
      apply uniform_then (uniform_count _)
      intro _
      apply uniform_then (ih (position + 1))
      intro texts
      exact uniform_pure ⟨text :: texts, rfl⟩

theorem uniform_expandLoop (vary : Vary k R) {index : Option Text} {item path : Text} {body : Block} {line : Nat}
    (only : Block.ShowsOnly k M [.loop index item path body line]) (inside : Render Text) :
    Uniform R Constant fun _ => expandLoop index item path inside := by
  cases read : Path.read path with
  | error fault =>
      have fails : expandLoop index item path inside = fail (.expression fault) := by
        rw [expandLoop, read]
        rfl
      rw [fails]
      exact uniform_fail _
  | ok p =>
      have apart : ¬ p.BeginsWith k := by
        intro begins
        obtain ⟨⟨_, _, shown, _⟩, _⟩ := only _ p (.here List.mem_cons_self) (.loop read) begins
        cases shown
      rw [expandLoop, read]
      apply uniform_bind (P := (· = fun _ => p)) (uniform_pure rfl)
      rintro _ rfl
      apply uniform_context
      intro ctx bare
      simp only [Context.resolve_withRoot vary bare apart _ []]
      rcases (ctx.withRoot (R [])).resolve p with _ | value
      · exact uniform_pure ⟨[], rfl⟩
      · cases value with
        | array items =>
            apply uniform_then (uniform_count _)
            intro _
            apply uniform_then (uniform_eachItem index item inside 0 items)
            intro texts
            exact uniform_pure ⟨Text.join ['\n'] texts, rfl⟩
        | _ => exact uniform_pure ⟨[], rfl⟩

theorem uniform_bindingValue (vary : Vary k R) {name expression : Text} {line : Nat}
    (only : Block.ShowsOnly k M [.binding name expression line]) :
    Uniform R Constant fun _ => bindingValue expression := by
  apply uniform_context
  intro ctx bare
  cases read : Expr.read expression with
  | error fault => exact uniform_ofExpr _
  | ok e =>
      have apart : ∀ p ∈ e.paths, ¬ p.BeginsWith k := by
        intro p member begins
        obtain ⟨⟨_, _, shown, _⟩, _⟩ := only _ p (.here List.mem_cons_self) (.binding read member) begins
        cases shown
      refine (uniform_ofExpr (e.value (ctx.withRoot (R [])))).of_same fun s => ?_
      rw [← Expr.value_withRoot vary bare apart s []]
      rfl

theorem uniform_bindAll (vary : Vary k R) (strict : Bool) {block : Block} (only : Block.ShowsOnly k M block) :
    Uniform R Constant fun _ => bindAll strict block := by
  induction block with
  | nil => exact uniform_pure ⟨(), rfl⟩
  | cons node rest ih =>
      have more := ih (only.mono (List.subset_cons_self _ _))
      cases node with
      | binding name expression line =>
          have part : [.binding name expression line] ⊆ .binding name expression line :: rest := by simp
          have own := uniform_bindingValue vary (only.mono part)
          have bound : Uniform R Constant fun _ =>
              recover strict line .binding none (some <$> bindingValue expression) :=
            uniform_recover (uniform_then own fun value => uniform_pure ⟨some value, rfl⟩) ⟨none, rfl⟩ _ _ _
          apply uniform_then bound
          intro value
          cases value with
          | none => exact more
          | some value =>
              apply uniform_then (uniform_name name value)
              intro _
              apply uniform_then (uniform_count _)
              intro _
              exact more
      | _ => exact more

theorem uniform_interpolate (vary : Vary k R) {source : Text} {line : Nat}
    (only : Block.ShowsOnly k M [.interpolation source line]) :
    Uniform R (Woven M) fun _ => interpolate source := by
  apply uniform_then (uniform_count _)
  intro _
  apply uniform_context
  intro ctx bare
  cases read : Expr.read source with
  | error fault => exact uniform_fail (.expression fault)
  | ok e =>
      by_cases mentions : ∃ p ∈ e.paths, p.BeginsWith k
      · obtain ⟨p, member, begins⟩ := mentions
        obtain ⟨⟨_, _, same, shown⟩, mentioned⟩ :=
          only _ p (.here List.mem_cons_self) (.interpolation read member) begins
        cases same
        cases read.symm.trans shown
        -- The key may be bound to something else here.
        let bound := ctx.frames.findSome? fun frame => frame.bindings.get? k
        have shows : ∀ s, (Expr.operand (.path ⟨[k]⟩)).render (ctx.withRoot (R s)) =
            .ok (Value.display (bound.or (some (.text s)))) := by
          intro s
          rw [Expr.render, Operand.eval, Context.resolve_own vary bare]
        show Uniform R (Woven M) fun s => ofExpr ((Expr.operand (.path ⟨[k]⟩)).render (ctx.withRoot (R s)))
        simp only [shows]
        exact uniform_pure (woven_display mentioned bound)
      · have apart : ∀ p ∈ e.paths, ¬ p.BeginsWith k := fun p member begins => mentions ⟨p, member, begins⟩
        have fixed : Uniform R Constant fun s => ofExpr (e.render (ctx.withRoot (R s))) :=
          (uniform_ofExpr (e.render (ctx.withRoot (R [])))).of_same fun s => by
            rw [Expr.render_withRoot vary bare apart s []]
        exact fixed.mono woven_of_constant

theorem uniform_enterBlock (vary : Vary k R) (strict : Bool) (depth : Nat) {block : Block}
    (only : Block.ShowsOnly k M block) {m : Render Text} (h : Uniform R (Woven M) fun _ => m) :
    Uniform R (Woven M) fun _ => enterBlock strict depth block m := by
  by_cases deep : nestingMax < depth
  · simp only [enterBlock, if_pos deep]
    exact uniform_fail _
  · simp only [enterBlock, if_neg deep]
    apply uniform_then (uniform_count _)
    intro _
    apply uniform_then (uniform_bindAll vary strict only)
    intro _
    exact h

theorem uniform_selects (vary : Vary k R) {kind : BranchKind} {condition : Option Text} {line : Nat}
    (only : ∀ source c p, condition = some source → kind ≠ .otherwise → Condition.read source = .ok c → p ∈ c.paths →
      ¬ p.BeginsWith k) :
    Uniform R Constant fun _ => selects kind condition line := by
  by_cases last : kind = .otherwise
  · subst last
    exact uniform_pure ⟨true, rfl⟩
  · cases condition with
    | none => cases kind <;> exact uniform_pure ⟨true, rfl⟩
    | some source =>
        rw [selects_some last]
        cases read : Condition.read source with
        | error fault => exact uniform_fail _
        | ok c =>
            apply uniform_context
            intro ctx bare
            refine (uniform_pure ⟨c.eval (ctx.withRoot (R [])), rfl⟩).of_same fun s => ?_
            rw [Condition.eval_withRoot vary bare (fun p => only source c p rfl last read) s []]

end

section

variable {k : Text} {R : Text → Entries} {M : Prop}

mutual

theorem uniform_node (vary : Vary k R) (strict : Bool) (depth : Nat) :
    (n : Node) → Block.ShowsOnly k M [n] → Uniform R (Woven M) fun _ => node strict depth n
  | .text content, _ => uniform_pure (woven_const M content)
  | .binding _ _ _, _ => uniform_pure (woven_const M [])
  | .interpolation source line, only =>
      uniform_recover (uniform_interpolate vary only) (woven_const M []) strict line .interpolation
  | .loop index item path body line, only =>
      uniform_recover ((uniform_expandLoop vary only _).mono woven_of_constant) (woven_const M []) strict line .loop
  | .conditional choices line, only => by
      refine uniform_recover (uniform_then (uniform_count _) fun _ => ?_) (woven_const M []) strict line .conditional
      refine uniform_branches vary strict depth line choices (fun p parses begins => ?_) ?_
      · obtain ⟨⟨_, _, shown, _⟩, _⟩ := only _ p (.here List.mem_cons_self) parses begins
        cases shown
      · intro kind condition body place member n p occurs
        exact only n p (.branch List.mem_cons_self member occurs)

theorem uniform_nodes (vary : Vary k R) (strict : Bool) (depth : Nat) :
    (block : List Node) → Block.ShowsOnly k M block → Uniform R (Woven M) fun _ => nodes strict depth block
  | [], _ => uniform_pure (woven_const M [])
  | first :: rest, only => by
      have head : [first] ⊆ first :: rest := by simp
      apply uniform_bind (uniform_node vary strict depth first (only.mono head))
      intro text woven
      apply uniform_bind (uniform_nodes vary strict depth rest (only.mono (List.subset_cons_self _ _)))
      intro more woven'
      exact uniform_pure (woven.append woven')

theorem uniform_branches (vary : Vary k R) (strict : Bool) (depth line : Nat) :
    (choices : List Branch) → (∀ p, (Node.conditional choices line).Parses p → ¬ p.BeginsWith k) →
      (∀ kind condition body place, .mk kind condition body place ∈ choices → Block.ShowsOnly k M body) →
      Uniform R (Woven M) fun _ => branches strict depth choices
  | [], _, _ => uniform_pure (woven_const M [])
  | .mk kind condition body place :: rest, tests, bodies => by
      apply uniform_then
      · apply uniform_selects vary
        rintro source c p rfl early read member
        exact tests p (.conditional List.mem_cons_self early read member)
      · intro selected
        cases selected with
        | true =>
            have only := bodies kind condition body place List.mem_cons_self
            exact uniform_inBranch
              (uniform_enterBlock vary strict _ only (uniform_nodes vary strict (depth + 1) body only))
        | false =>
            refine uniform_branches vary strict depth line rest (fun p parses => tests p ?_) ?_
            · cases parses with
              | conditional member early read inside => exact .conditional (.tail _ member) early read inside
            · intro kind condition body place member
              exact bodies kind condition body place (.tail _ member)

end

end

end Render

namespace Template

def rootOf (defaults : List (Text × Text)) (entries : Entries) : Entries :=
  defaults.foldl (fun entries (name, t) => entries.insertNew name (.text t)) entries

theorem vary_rootOf (k : Text) (rest : Entries) (defaults : List (Text × Text)) :
    Vary k fun s => rootOf defaults (rest.insert k (.text s)) := by
  constructor
  · intro s
    simp [rootOf, Entries.get?_defaults, Entries.get?_insert]
  · intro s t name differs
    rw [rootOf, rootOf, Entries.get?_defaults, Entries.get?_defaults, Entries.get?_insert, Entries.get?_insert,
      if_neg differs.symm, if_neg differs.symm]

end Template

/--
Where every path that begins with a key stands in an interpolation of this key alone, renders for all strings under the
key and the same other data give the same pieces with the string between them and differ in nothing else, or all end
with the same error. Where no path begins with the key, there is one piece, and so the string has no effect.
-/
theorem render_weaves (t : Template) (options : Options) (rest : Entries) (k : Text)
    (only : ∀ node p, Occurs node t.block → node.Parses p → p.BeginsWith k → node.Shows k) :
    (∃ (first : Text) (more : List Text) (stats : Stats) (suppressed : List Suppression),
      (¬ t.block.Mentions k → more = []) ∧ ∀ s, t.render options (.object (rest.insert k (.text s))) =
        .ok ⟨Text.join s (first :: more),
          { stats with outputSize := (Text.join s (first :: more)).utf8Size }, suppressed⟩) ∨
    ∃ e, ∀ s, t.render options (.object (rest.insert k (.text s))) = .error e := by
  obtain ⟨strict, defaults⟩ := options
  have vary := Template.vary_rootOf k rest defaults
  have all : Block.ShowsOnly k (t.block.Mentions k) t.block := fun node p occurs parses begins =>
    ⟨only node p occurs parses begins, node, p, occurs, parses, begins⟩
  have uniform : Render.Uniform _ (Woven (t.block.Mentions k)) fun _ => Render.block strict 0 t.block :=
    Render.uniform_enterBlock vary strict 0 all (Render.uniform_nodes vary strict 0 t.block all)
  have rooted : ∀ s, Template.root defaults (.object (rest.insert k (.text s))) =
      .ok (Template.rootOf defaults (rest.insert k (.text s))) := fun s => rfl
  obtain ⟨after, -, ⟨a, ⟨first, more, absent, same⟩, gives⟩ | ⟨e, fails⟩⟩ := uniform (Template.start []) rfl
  · refine .inl ⟨first, more, { after.stats with templateSize := t.size }, after.suppressed, absent, fun s => ?_⟩
    rw [Template.render_of_root (rooted s), ← same,
      show Render.block strict 0 t.block (Template.start _) = _ from gives s]
    rfl
  · refine .inr ⟨e, fun s => ?_⟩
    rw [Template.render_of_root (rooted s), show Render.block strict 0 t.block (Template.start _) = _ from fails s]

def greeting : Template where
  block := [
    .interpolation "user".toList 1,
    .loop none "user".toList "items".toList [.text "-".toList] 2,
    .conditional [.mk .first (some "admin".toList) [.interpolation " user ".toList 3] 3] 3]
  demoted := []
  size := 0

theorem greeting_shows (node : Node) (p : Path) (occurs : Occurs node greeting.block) (parses : node.Parses p)
    (begins : p.BeginsWith "user".toList) : node.Shows "user".toList := by
  have items : Path.read "items".toList = .ok ⟨["items".toList]⟩ := rfl
  have admin : Condition.read "admin".toList = .ok (.truthy ⟨["admin".toList]⟩ false) := rfl
  cases occurs with
  | here member =>
      simp only [greeting, List.mem_cons, List.not_mem_nil, or_false] at member
      rcases member with rfl | rfl | rfl
      · exact ⟨_, _, rfl, rfl⟩
      · cases parses with
        | loop read =>
            cases read.symm.trans items
            cases begins
      · cases parses with
        | conditional choice _ read inside =>
            cases List.mem_singleton.mp choice
            cases read.symm.trans admin
            cases List.mem_singleton.mp inside
            cases begins
  | body member inside =>
      simp only [greeting, List.mem_cons, List.not_mem_nil, or_false, reduceCtorEq, false_or] at member
      cases member
      cases inside with
      | here member =>
          cases List.mem_singleton.mp member
          cases parses
      | body member _ => cases List.mem_singleton.mp member
      | branch member _ _ => cases List.mem_singleton.mp member
  | branch member choice inside =>
      simp only [greeting, List.mem_cons, List.not_mem_nil, or_false, reduceCtorEq, false_or] at member
      cases member
      cases List.mem_singleton.mp choice
      cases inside with
      | here member =>
          cases List.mem_singleton.mp member
          exact ⟨_, _, rfl, rfl⟩
      | body member _ => cases List.mem_singleton.mp member
      | branch member _ _ => cases List.mem_singleton.mp member

theorem render_weaves_greeting :
    (∀ node p, Occurs node greeting.block → node.Parses p → p.BeginsWith "user".toList → node.Shows "user".toList) ∧
    ((∃ (first : Text) (more : List Text) (stats : Stats) (suppressed : List Suppression),
      (¬ greeting.block.Mentions "user".toList → more = []) ∧ ∀ s,
      greeting.render .strictly (.object (Entries.insert "user".toList (.text s) [("admin".toList, .bool true)])) =
        .ok ⟨Text.join s (first :: more),
          { stats with outputSize := (Text.join s (first :: more)).utf8Size }, suppressed⟩) ∨
    ∃ e, ∀ s,
      greeting.render .strictly (.object (Entries.insert "user".toList (.text s) [("admin".toList, .bool true)])) =
        .error e) :=
  ⟨greeting_shows, render_weaves greeting .strictly [("admin".toList, .bool true)] "user".toList greeting_shows⟩
end TextTemplate
