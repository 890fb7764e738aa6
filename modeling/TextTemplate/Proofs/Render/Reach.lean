import TextTemplate.Proofs.Render.Modes

namespace TextTemplate

namespace Context

def withBindings (ctx : Context) : List Node → Context
  | [] => ctx
  | .binding name expression _ :: rest =>
      match (do (← Expr.read expression).value ctx) with
      | .ok value => (ctx.bind name value).withBindings rest
      | .error _ => ctx.withBindings rest
  | _ :: rest => ctx.withBindings rest

def selects (ctx : Context) (kind : BranchKind) (condition : Option Text) : Bool :=
  match kind, condition with
  | .otherwise, _ => true
  | _, none => true
  | _, some source =>
      match Condition.read source with
      | .ok c => c.eval ctx
      | .error _ => false

def selected? (ctx : Context) : List Branch → Option Block
  | [] => none
  | .mk kind condition body _ :: rest => if ctx.selects kind condition then some body else ctx.selected? rest

theorem selected?_mem {ctx : Context} {branches : List Branch} {body : Block} (h : ctx.selected? branches = some body) :
    ∃ kind condition place, .mk kind condition body place ∈ branches := by
  induction branches with
  | nil => cases h
  | cons branch rest ih =>
      obtain ⟨kind, condition, own, place⟩ := branch
      rw [selected?] at h
      split at h
      · cases h
        exact ⟨kind, condition, place, List.mem_cons_self⟩
      · obtain ⟨kind', condition', place', member⟩ := ih h
        exact ⟨kind', condition', place', .tail _ member⟩

end Context

def Node.isBinding : Node → Bool
  | .binding _ _ _ => true
  | _ => false

/-- A render of a block in a context comes to a node in the context `inner`. -/
inductive Reaches : Context → Block → Context → Node → Prop
  | binding {ctx : Context} {before after : Block} {name expression : Text} {line : Nat} :
      Reaches ctx (before ++ .binding name expression line :: after) (ctx.withBindings before)
        (.binding name expression line)
  | own {ctx : Context} {block : Block} {node : Node} :
      node ∈ block → node.isBinding = false → Reaches ctx block (ctx.withBindings block) node
  | element {ctx inner : Context} {block body : Block} {node : Node} {index : Option Text} {item path : Text}
      {line : Nat} {p : Path} {items : List Value} {i : Nat} {element : Value} :
      .loop index item path body line ∈ block → Path.read path = .ok p →
      (ctx.withBindings block).resolve p = some (.array items) → items[i]? = some element →
      Reaches (.ofIteration element item (index.map fun name => (name, i))) body inner node →
      Reaches ctx block inner node
  | branch {ctx inner : Context} {block body : Block} {node : Node} {branches : List Branch} {line : Nat} :
      .conditional branches line ∈ block → (ctx.withBindings block).selected? branches = some body →
      Reaches (ctx.withBindings block).enterBranch body inner node → Reaches ctx block inner node

inductive Node.FailsIn (ctx : Context) : Node → Nat → ExprFault → Prop
  | interpolation {source : Text} {line : Nat} {fault : ExprFault} :
      (do (← Expr.read source).render ctx) = .error fault → FailsIn ctx (.interpolation source line) line fault
  | binding {name expression : Text} {line : Nat} {fault : ExprFault} :
      (do (← Expr.read expression).value ctx) = .error fault → FailsIn ctx (.binding name expression line) line fault
  | loop {index : Option Text} {item path : Text} {body : Block} {line : Nat} {fault : ExprFault} :
      Path.read path = .error fault → FailsIn ctx (.loop index item path body line) line fault
  | conditional {branches : List Branch} {line : Nat} {kind : BranchKind} {source : Text} {body : Block} {place : Nat}
      {fault : ExprFault} :
      .mk kind (some source) body place ∈ branches → kind ≠ .otherwise → Condition.read source = .error fault →
      FailsIn ctx (.conditional branches line) place fault

theorem Reaches.occurs {ctx inner : Context} {block : Block} {node : Node} (h : Reaches ctx block inner node) :
    Occurs node block := by
  induction h with
  | binding => exact .here (by simp)
  | own member _ => exact .here member
  | element member _ _ _ _ ih => exact .body member ih
  | branch member chosen _ ih =>
      obtain ⟨_, _, _, choice⟩ := Context.selected?_mem chosen
      exact .branch member choice ih

namespace Context

theorem withBindings_cons (ctx : Context) {node : Node} (other : node.isBinding = false) (rest : List Node) :
    ctx.withBindings (node :: rest) = ctx.withBindings rest := by
  cases node with
  | binding => cases other
  | _ => rfl

end Context

theorem Reaches.of_mem {ctx inner : Context} {block : Block} {node other : Node}
    (h : Reaches (ctx.withBindings block) [other] inner node) (member : other ∈ block)
    (free : other.isBinding = false) : Reaches ctx block inner node := by
  have same : (ctx.withBindings block).withBindings [other] = ctx.withBindings block :=
    Context.withBindings_cons _ free []
  generalize alone : [other] = single at h same
  have part : ∀ {n}, n ∈ single → n ∈ block := by
    intro n mem
    rw [← alone, List.mem_singleton] at mem
    rwa [mem]
  cases h with
  | @binding _ before after name expression line =>
      have mem : Node.binding name expression line ∈ [other] := by simp [alone]
      cases List.mem_singleton.mp mem
      cases free
  | own mem loose =>
      rw [same]
      exact .own (part mem) loose
  | element mem read resolves at_ inside =>
      rw [same] at resolves
      exact .element (part mem) read resolves at_ inside
  | branch mem chosen inside =>
      rw [same] at chosen inside
      exact .branch (part mem) chosen inside

namespace Render

/--
Begun in a context, a computation gives a result that is in `Q` with the context it leaves, or ends with an error in
`E`.
-/
def Ends {α : Type} (ctx : Context) (E : TemplateError → Prop) (Q : α → Context → Prop) (m : Render α) : Prop :=
  ∀ s : Progress, s.context = ctx → ∃ after : Progress,
    (∃ a, m s = (.ok a, after) ∧ Q a after.context) ∨ ∃ e, m s = (.error e, after) ∧ E e

section

variable {α β : Type} {ctx : Context} {E E' : TemplateError → Prop} {P : α → Context → Prop} {Q : β → Context → Prop}

theorem Ends.mono {Q' : β → Context → Prop} {m : Render β} (h : Ends ctx E Q m)
    (more : ∀ b after, Q b after → Q' b after) (more' : ∀ e, E e → E' e) : Ends ctx E' Q' m := by
  intro s at_
  obtain ⟨after, ⟨b, gives, holds⟩ | ⟨e, fails, holds⟩⟩ := h s at_
  · exact ⟨after, .inl ⟨b, gives, more b _ holds⟩⟩
  · exact ⟨after, .inr ⟨e, fails, more' e holds⟩⟩

theorem ends_pure {b : β} (h : Q b ctx) : Ends ctx E Q (pure b) := by
  rintro s rfl
  exact ⟨s, .inl ⟨b, rfl, h⟩⟩

theorem ends_fail {e : TemplateError} (h : E e) : Ends ctx E Q (fail e) := fun s _ => ⟨s, .inr ⟨e, rfl, h⟩⟩

theorem ends_bind {m : Render α} {f : α → Render β} (first : Ends ctx E P m)
    (second : ∀ a after, P a after → Ends after E Q (f a)) : Ends ctx E Q (m >>= f) := by
  intro s at_
  obtain ⟨after, ⟨a, gives, holds⟩ | ⟨e, fails, holds⟩⟩ := first s at_
  · rw [bind_of_ok gives]
    exact second a after.context holds after rfl
  · exact ⟨after, .inr ⟨e, bind_of_error fails, holds⟩⟩

theorem ends_context {f : Context → Render β} (h : Ends ctx E Q (f ctx)) : Ends ctx E Q (context >>= f) := by
  rintro s rfl
  exact h s rfl

theorem ends_count {change : Stats → Stats} {f : Unit → Render β} (h : Ends ctx E Q (f ())) :
    Ends ctx E Q (count change >>= f) := by
  rintro s rfl
  exact h { s with stats := change s.stats } rfl

theorem ends_ofExpr {result : Except ExprFault α} (ok : ∀ a, result = .ok a → P a ctx)
    (fails : ∀ fault, result = .error fault → E (.expression fault)) : Ends ctx E P (ofExpr result) := by
  cases result with
  | ok a => exact ends_pure (ok a rfl)
  | error fault => exact ends_fail (fails fault rfl)

theorem ends_recover {m : Render β} {line : Nat} {kind : DirectiveKind} {fallback : β}
    (h : Ends ctx (fun e => E (e.atLine line)) Q m) : Ends ctx E Q (recover true line kind fallback m) := by
  intro s at_
  obtain ⟨after, ⟨b, gives, holds⟩ | ⟨e, fails, holds⟩⟩ := h s at_
  · exact ⟨after, .inl ⟨b, by simp [recover, gives], holds⟩⟩
  · exact ⟨after, .inr ⟨e.atLine line, by simp [recover, fails], holds⟩⟩

theorem ends_within {other : Context} {m : Render α} (h : Ends other E P m) :
    Ends ctx E (fun _ after => after = ctx) (within other m) := by
  rintro s rfl
  obtain ⟨after, ⟨a, gives, _⟩ | ⟨e, fails, holds⟩⟩ := h { s with context := other } rfl
  · exact ⟨{ after with context := s.context }, .inl ⟨a, by simp [within, gives], rfl⟩⟩
  · exact ⟨{ after with context := s.context }, .inr ⟨e, by simp [within, fails], holds⟩⟩

theorem ends_inBranch {m : Render α} (h : Ends ctx.enterBranch E (fun _ after => after.leaveBranch = ctx) m) :
    Ends ctx E (fun _ after => after = ctx) (inBranch m) := by
  rintro s rfl
  obtain ⟨after, ⟨a, gives, holds⟩ | ⟨e, fails, holds⟩⟩ := h { s with context := s.context.enterBranch } rfl
  · exact ⟨{ after with context := after.context.leaveBranch }, .inl ⟨a, by simp [inBranch, gives], holds⟩⟩
  · exact ⟨{ after with context := after.context.leaveBranch }, .inr ⟨e, by simp [inBranch, fails], holds⟩⟩

end

section

variable {ctx : Context} {E : TemplateError → Prop}

theorem ends_name {name : Text} {value : Value} :
    Ends ctx E (fun _ after => after = ctx.bind name value) (bind name value) := by
  rintro s rfl
  exact ⟨{ s with context := s.context.bind name value }, .inl ⟨(), rfl, rfl⟩⟩

theorem ends_bindingValue {expression : Text}
    (raised : ∀ fault, (do (← Expr.read expression).value ctx) = .error fault → E (.expression fault)) :
    Ends ctx E (fun v after => after = ctx ∧ (do (← Expr.read expression).value ctx) = .ok v)
      (bindingValue expression) :=
  ends_context (ends_ofExpr (fun _ same => ⟨rfl, same⟩) raised)

theorem ends_bindAll {block : Block}
    (raised : ∀ before name expression line after fault, block = before ++ .binding name expression line :: after →
      (Node.binding name expression line).FailsIn (ctx.withBindings before) line fault → E (.directive line fault)) :
    Ends ctx E (fun _ after => after = ctx.withBindings block) (bindAll true block) := by
  induction block generalizing ctx with
  | nil => exact ends_pure rfl
  | cons node rest ih =>
      cases node with
      | binding name expression line =>
          have value : Ends ctx E
              (fun v after => after = ctx ∧ ∃ u, v = some u ∧ (do (← Expr.read expression).value ctx) = .ok u)
              (recover true line .binding none (some <$> bindingValue expression)) := by
            apply ends_recover
            refine ends_bind (ends_bindingValue fun fault failed => ?_) ?_
            · exact raised [] name expression line rest fault rfl (.binding failed)
            · rintro v _ ⟨rfl, same⟩
              exact ends_pure ⟨rfl, v, rfl, same⟩
          apply ends_bind value
          rintro _ after ⟨here, v, rfl, same⟩
          have next : ctx.withBindings (.binding name expression line :: rest) =
              (after.bind name v).withBindings rest := by
            rw [here, Context.withBindings, same]
          rw [next]
          apply ends_bind ends_name
          rintro _ _ rfl
          apply ends_count
          refine ih fun before name' expression' line' after' fault split failed => ?_
          refine raised (.binding name expression line :: before) name' expression' line' after' fault ?_ ?_
          · rw [split, List.cons_append]
          · rwa [Context.withBindings, same, ← here]
      | _ =>
          refine ih fun before name expression line after fault split failed => ?_
          refine raised (_ :: before) name expression line after fault (by rw [split, List.cons_append]) ?_
          rwa [Context.withBindings_cons _ rfl]

theorem ends_eachItem {index : Option Text} {item : Text} {body : Render Text} {position : Nat} {elements : List Value}
    (h : ∀ i element, elements[i]? = some element →
      Ends (.ofIteration element item (index.map fun name => (name, position + i))) E (fun _ _ => True) body) :
    Ends ctx E (fun _ after => after = ctx) (eachItem index item body position elements) := by
  induction elements generalizing position with
  | nil => exact ends_pure rfl
  | cons element rest ih =>
      apply ends_bind (ends_within (h 0 element rfl))
      rintro text _ rfl
      apply ends_count
      have others : ∀ i other, rest[i]? = some other →
          Ends (.ofIteration other item (index.map fun name => (name, position + 1 + i))) E (fun _ _ => True) body := by
        intro i other at_
        rw [Nat.add_right_comm, Nat.add_assoc]
        exact h (i + 1) other at_
      apply ends_bind (ih others)
      rintro texts _ rfl
      exact ends_pure rfl

theorem ends_selects {kind : BranchKind} {condition : Option Text} {line : Nat}
    (malformed : ∀ source fault, condition = some source → kind ≠ .otherwise → Condition.read source = .error fault →
      E (.directive line fault)) :
    Ends ctx E (fun selected after => after = ctx ∧ selected = ctx.selects kind condition)
      (selects kind condition line) := by
  by_cases last : kind = .otherwise
  · subst last
    exact ends_pure ⟨rfl, rfl⟩
  · cases condition with
    | none => cases kind <;> exact ends_pure ⟨rfl, rfl⟩
    | some source =>
        rw [selects_some last]
        cases read : Condition.read source with
        | error fault => exact ends_fail (malformed source fault rfl last read)
        | ok c =>
            refine ends_context (ends_pure ⟨rfl, ?_⟩)
            cases kind with
            | otherwise => exact absurd rfl last
            | _ => simp [Context.selects, read]

end

def Stops (ctx : Context) (block : Block) (e : TemplateError) : Prop :=
  ∃ inner node line fault, Reaches ctx block inner node ∧ node.FailsIn inner line fault ∧ e = .directive line fault

theorem Stops.own {ctx : Context} {node : Node} {line : Nat} {fault : ExprFault} (fails : node.FailsIn ctx line fault)
    (free : node.isBinding = false) : Stops ctx [node] (.directive line fault) := by
  have reached : Reaches ctx [node] (ctx.withBindings [node]) node := .own List.mem_cons_self free
  rw [Context.withBindings_cons _ free] at reached
  exact ⟨ctx, node, line, fault, reached, fails, rfl⟩

theorem Stops.atLine {ctx : Context} {block : Block} {e : TemplateError} (h : Stops ctx block e) (line : Nat) :
    e.atLine line = e := by
  obtain ⟨_, _, _, _, _, _, rfl⟩ := h
  rfl

theorem Stops.element {ctx : Context} {index : Option Text} {item path : Text} {body : Block} {line : Nat} {p : Path}
    {items : List Value} {i : Nat} {element : Value} {e : TemplateError} (read : Path.read path = .ok p)
    (resolves : ctx.resolve p = some (.array items)) (at_ : items[i]? = some element)
    (h : Stops (.ofIteration element item (index.map fun name => (name, i))) body e) :
    Stops ctx [.loop index item path body line] e := by
  obtain ⟨inner, node, line, fault, reached, fails, same⟩ := h
  exact ⟨inner, node, line, fault, .element List.mem_cons_self read resolves at_ reached, fails, same⟩

theorem Stops.branch {ctx : Context} {choices : List Branch} {line : Nat} {body : Block} {e : TemplateError}
    (chosen : ctx.selected? choices = some body) (h : Stops ctx.enterBranch body e) :
    Stops ctx [.conditional choices line] e := by
  obtain ⟨inner, node, line, fault, reached, fails, same⟩ := h
  exact ⟨inner, node, line, fault, .branch List.mem_cons_self chosen reached, fails, same⟩

theorem Stops.of_mem {ctx : Context} {block : Block} {n : Node} {e : TemplateError} (member : n ∈ block)
    (free : n.isBinding = false) (h : Stops (ctx.withBindings block) [n] e) : Stops ctx block e := by
  obtain ⟨inner, node, line, fault, reached, fails, same⟩ := h
  exact ⟨inner, node, line, fault, reached.of_mem member free, fails, same⟩

theorem withBindings_frames (root : Option Entries) (frame : Frame) (outer : List Frame) (item : Option Text)
    (block : Block) :
    ∃ own, (Context.mk root (frame :: outer) item).withBindings block = ⟨root, own :: outer, item⟩ := by
  induction block generalizing frame with
  | nil => exact ⟨frame, rfl⟩
  | cons node rest ih =>
      cases node with
      | binding name expression line =>
          rw [Context.withBindings]
          split
          · exact ih _
          · exact ih frame
      | _ => exact ih frame

theorem leaveBranch_withBindings (ctx : Context) (block : Block) :
    (ctx.enterBranch.withBindings block).leaveBranch = ctx := by
  obtain ⟨root, frames, item⟩ := ctx
  obtain ⟨own, same⟩ := withBindings_frames root ⟨.branch, []⟩ frames item block
  rw [Context.enterBranch, same]
  rfl

theorem ends_enterBlock {ctx : Context} {depth : Nat} {block : Block} {m : Render Text} (room : depth ≤ nestingMax)
    (h : Ends (ctx.withBindings block) (Stops ctx block) (fun _ after => after = ctx.withBindings block) m) :
    Ends ctx (Stops ctx block) (fun _ after => after = ctx.withBindings block) (enterBlock true depth block m) := by
  rw [enterBlock, if_neg (Nat.not_lt.mpr room)]
  apply ends_count
  apply ends_bind (ends_bindAll ?_)
  · rintro _ _ rfl
    exact h
  · rintro before name expression line after fault rfl failed
    exact ⟨_, _, line, fault, .binding, failed, rfl⟩

mutual

theorem ends_node (depth : Nat) (ctx : Context) :
    (n : Node) → depth + n.height ≤ nestingMax →
      Ends ctx (fun e => n.isBinding = false ∧ Stops ctx [n] e) (fun _ after => after = ctx) (node true depth n)
  | .text _, _ => ends_pure rfl
  | .binding _ _ _, _ => ends_pure rfl
  | .interpolation source line, _ => by
      apply ends_recover
      apply ends_count
      refine ends_context (ends_ofExpr (fun _ _ => rfl) fun fault failed => ?_)
      exact ⟨rfl, .own (.interpolation failed) rfl⟩
  | .loop index item path body line, room => by
      rw [Node.height] at room
      apply ends_recover
      refine ends_bind (P := fun p after => after = ctx ∧ Path.read path = .ok p)
        (ends_ofExpr (fun p read => ⟨rfl, read⟩) fun fault failed => ⟨rfl, .own (.loop failed) rfl⟩) ?_
      rintro p after ⟨here, read⟩
      rw [here]
      apply ends_context
      rcases resolves : ctx.resolve p with _ | value
      · exact ends_pure rfl
      · cases value with
        | array items =>
            apply ends_count
            refine ends_bind (ends_eachItem fun i element at_ => ?_) ?_
            · refine (ends_block (depth + 1) _ body (by omega)).mono (fun _ _ _ => trivial) fun e stops => ?_
              rw [stops.atLine]
              rw [Nat.zero_add] at stops
              exact ⟨rfl, stops.element read resolves at_⟩
            · rintro texts _ rfl
              exact ends_pure rfl
        | _ => exact ends_pure rfl
  | .conditional choices line, room => by
      rw [Node.height] at room
      apply ends_recover
      apply ends_count
      refine ends_branches depth ctx choices (by omega) ?_ ?_
      · intro body e chosen stops
        rw [stops.atLine]
        exact ⟨rfl, stops.branch chosen⟩
      · intro kind source body place fault member early failed
        exact ⟨rfl, .own (.conditional member early failed) rfl⟩

theorem ends_nodes (depth : Nat) (ctx : Context) {E : TemplateError → Prop} :
    (block : List Node) → depth + Node.heights block ≤ nestingMax →
      (∀ n ∈ block, n.isBinding = false → ∀ e, Stops ctx [n] e → E e) →
      Ends ctx E (fun _ after => after = ctx) (nodes true depth block)
  | [], _, _ => ends_pure rfl
  | first :: rest, room, raised => by
      rw [Node.heights_cons] at room
      have head := (ends_node depth ctx first (by omega)).mono (fun _ _ h => h)
        fun e h => raised first List.mem_cons_self h.1 e h.2
      apply ends_bind head
      rintro text _ rfl
      apply ends_bind (ends_nodes depth _ rest (by omega) fun n member => raised n (.tail _ member))
      rintro more _ rfl
      exact ends_pure rfl

theorem ends_branches (depth : Nat) (ctx : Context) {E : TemplateError → Prop} :
    (choices : List Branch) → depth + 1 + Node.branchHeights choices ≤ nestingMax →
      (∀ body e, ctx.selected? choices = some body → Stops ctx.enterBranch body e → E e) →
      (∀ kind source body place fault, .mk kind (some source) body place ∈ choices → kind ≠ .otherwise →
        Condition.read source = .error fault → E (.directive place fault)) →
      Ends ctx E (fun _ after => after = ctx) (branches true depth choices)
  | [], _, _, _ => ends_pure rfl
  | .mk kind condition body place :: rest, room, raised, malformed => by
      rw [Node.branchHeights_cons] at room
      apply ends_bind (ends_selects ?_)
      · rintro selected after ⟨here, same⟩
        rw [here]
        rw [Context.selected?, ← same] at raised
        cases selected with
        | true =>
            refine ends_inBranch ((ends_block (depth + 1) ctx.enterBranch body (by omega)).mono ?_ ?_)
            · rintro _ _ rfl
              exact leaveBranch_withBindings ctx body
            · exact fun e => raised body e rfl
        | false =>
            exact ends_branches depth ctx rest (by omega) raised fun kind source body place fault member =>
              malformed kind source body place fault (.tail _ member)
      · rintro source fault rfl early failed
        exact malformed kind source body place fault List.mem_cons_self early failed

theorem ends_block (depth : Nat) (ctx : Context) (block : List Node) (room : depth + Node.heights block ≤ nestingMax) :
    Ends ctx (Stops ctx block) (fun _ after => after = ctx.withBindings block)
      (enterBlock true depth block (nodes true depth block)) := by
  apply ends_enterBlock (by omega)
  apply ends_nodes depth _ block room
  intro n member free e stops
  exact stops.of_mem member free

end

end Render

end TextTemplate
