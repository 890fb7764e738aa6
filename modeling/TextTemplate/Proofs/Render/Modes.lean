import TextTemplate.Template
import TextTemplate.Proofs.Block.Height

/-!
# Strict and lenient rendering

A strict render and a lenient one do the same up to the first directive that fails. There the strict one stops, and the
error it ends with is the one the lenient render notes first, at the line of that directive: on its way out it passes
the directives around it, but its line is set already. `Follows` says this of any two computations, and is shown for
those of `Render` one by one; the two renders of a block then follow each other by induction on the block.
-/

namespace TextTemplate

inductive Occurs (node : Node) : Block → Prop
  | here {block : Block} : node ∈ block → Occurs node block
  | body {block body : Block} {index : Option Text} {item path : Text} {line : Nat} :
      .loop index item path body line ∈ block → Occurs node body → Occurs node block
  | branch {block body : Block} {branches : List Branch} {kind : BranchKind} {condition : Option Text}
      {line place : Nat} :
      .conditional branches line ∈ block → .mk kind condition body place ∈ branches → Occurs node body →
      Occurs node block

/-- A directive itself fails: what is noted of it, and the line and the fault it is reported with. -/
inductive Node.Fails : Node → Suppression → Nat → ExprFault → Prop
  | interpolation {source : Text} {line : Nat} {ctx : Context} {fault : ExprFault} :
      (do (← Expr.read source).render ctx) = .error fault →
      Fails (.interpolation source line) ⟨line, .interpolation, .expression fault⟩ line fault
  | binding {name expression : Text} {line : Nat} {ctx : Context} {fault : ExprFault} :
      (do (← Expr.read expression).value ctx) = .error fault →
      Fails (.binding name expression line) ⟨line, .binding, .expression fault⟩ line fault
  | loop {index : Option Text} {item path : Text} {body : Block} {line : Nat} {fault : ExprFault} :
      Path.read path = .error fault →
      Fails (.loop index item path body line) ⟨line, .loop, .expression fault⟩ line fault
  | conditional {branches : List Branch} {line : Nat} {kind : BranchKind} {source : Text} {body : Block} {place : Nat}
      {fault : ExprFault} :
      .mk kind (some source) body place ∈ branches → kind ≠ .otherwise → Condition.read source = .error fault →
      Fails (.conditional branches line) ⟨line, .conditional, .directive place fault⟩ place fault

def Raised (block : Block) (x : Suppression) : Prop := ∃ node line fault, Occurs node block ∧ node.Fails x line fault

theorem Occurs.mono {node : Node} {block more : Block} (h : Occurs node block) (part : block ⊆ more) :
    Occurs node more := by
  cases h with
  | here member => exact .here (part member)
  | body member inside => exact .body (part member) inside
  | branch member choice inside => exact .branch (part member) choice inside

theorem Raised.mono {block more : Block} {x : Suppression} (h : Raised block x) (part : block ⊆ more) :
    Raised more x := by
  obtain ⟨node, line, fault, inside, fails⟩ := h
  exact ⟨node, line, fault, inside.mono part, fails⟩

theorem Raised.of_fails {node : Node} {block : Block} {x : Suppression} {line : Nat} {fault : ExprFault}
    (fails : node.Fails x line fault) (member : node ∈ block) : Raised block x :=
  ⟨node, line, fault, .here member, fails⟩

theorem TemplateError.atLine_atLine (e : TemplateError) (line outer : Nat) :
    (e.atLine line).atLine outer = e.atLine line := by
  cases e <;> rfl

theorem Node.Fails.report {node : Node} {x : Suppression} {line : Nat} {fault : ExprFault}
    (fails : node.Fails x line fault) : x.error.atLine x.line = .directive line fault := by
  cases fails <;> rfl

namespace Render

/-! ## Two computations -/

structure Notes (B : Suppression → Prop) (s after : Progress) (added : List Suppression) : Prop where
  suppressed : after.suppressed = s.suppressed ++ added
  counted : after.stats.suppressedErrors = s.stats.suppressedErrors + added.length
  raised : ∀ x ∈ added, B x

theorem Notes.trans {B : Suppression → Prop} {s t u : Progress} {xs ys : List Suppression} (first : Notes B s t xs)
    (second : Notes B t u ys) : Notes B s u (xs ++ ys) where
  suppressed := by rw [second.suppressed, first.suppressed, List.append_assoc]
  counted := by rw [second.counted, first.counted, List.length_append, Nat.add_assoc]
  raised := fun x member => (List.mem_append.mp member).elim (first.raised x) (second.raised x)

def Agrees {α : Type} (strict lenient : Except TemplateError α × Progress) : List Suppression → Prop
  | [] => strict = lenient
  | first :: _ => strict.1 = .error (first.error.atLine first.line)

/--
A strict computation follows a lenient one: what the lenient one suppresses is in `B`, the errors it ends with are in
`E`, and the strict one does the same as long as nothing is suppressed, and else ends with the first of it.
-/
def Follows {α : Type} (B : Suppression → Prop) (E : TemplateError → Prop) (strict lenient : Render α) : Prop :=
  ∀ s, ∃ added, Notes B s (lenient s).2 added ∧ (∀ e, (lenient s).1 = .error e → E e) ∧
    Agrees (strict s) (lenient s) added

section

variable {α β : Type} {B B' : Suppression → Prop} {E E' : TemplateError → Prop} {m n : Render α}

theorem Follows.mono (h : Follows B E m n) (more : ∀ x, B x → B' x) (more' : ∀ e, E e → E' e) : Follows B' E' m n := by
  intro s
  obtain ⟨added, notes, fails, agrees⟩ := h s
  exact ⟨added, ⟨notes.suppressed, notes.counted, fun x member => more x (notes.raised x member)⟩,
    fun e same => more' e (fails e same), agrees⟩

theorem follows_self (quiet : ∀ s, Notes B s (m s).2 []) (fails : ∀ s e, (m s).1 = .error e → E e) : Follows B E m m :=
  fun s => ⟨[], quiet s, fails s, rfl⟩

theorem Notes.refl (s : Progress) : Notes B s s [] := ⟨by simp, rfl, by simp⟩

theorem follows_pure (a : α) : Follows B E (pure a) (pure a) := follows_self .refl fun _ _ => nofun

theorem follows_context : Follows B E context context := follows_self .refl fun _ _ => nofun

theorem follows_ofExpr {result : Except ExprFault α} (fails : ∀ fault, result = .error fault → E (.expression fault)) :
    Follows B E (ofExpr result) (ofExpr result) := by
  refine follows_self .refl fun s e same => ?_
  cases result with
  | ok a => cases same
  | error fault =>
      cases same
      exact fails fault rfl

theorem follows_count {change : Stats → Stats}
    (keeps : ∀ stats, (change stats).suppressedErrors = stats.suppressedErrors) :
    Follows B E (count change) (count change) :=
  follows_self (fun s => ⟨by simp [count], by simp [count, keeps], by simp⟩) fun _ _ => nofun

theorem bind_apply (m : Render α) (f : α → Render β) (s : Progress) :
    (m >>= f) s =
      match m s with
      | (.ok a, s) => f a s
      | (.error e, s) => (.error e, s) :=
  rfl

theorem bind_of_ok {f : α → Render β} {s after : Progress} {a : α} (h : m s = (.ok a, after)) :
    (m >>= f) s = f a after := by
  rw [bind_apply, h]

theorem bind_of_error {f : α → Render β} {s after : Progress} {e : TemplateError} (h : m s = (.error e, after)) :
    (m >>= f) s = (.error e, after) := by
  rw [bind_apply, h]

theorem follows_bind {f g : α → Render β} (first : Follows B E m n) (second : ∀ a, Follows B E (f a) (g a)) :
    Follows B E (m >>= f) (n >>= g) := by
  intro s
  obtain ⟨added, notes, fails, agrees⟩ := first s
  rcases same : n s with ⟨result, after⟩
  rw [same] at notes fails agrees
  -- Where the first computation suppresses something, the strict one stops in it and never comes to the second.
  have stops : ∀ x xs, added = x :: xs → ((m >>= f) s).1 = .error (x.error.atLine x.line) := by
    rintro x xs rfl
    rcases strict : m s with ⟨stopped, left⟩
    rw [strict] at agrees
    obtain rfl : stopped = .error (x.error.atLine x.line) := agrees
    rw [bind_of_error strict]
  cases result with
  | error e =>
      rw [bind_of_error same]
      refine ⟨added, notes, fun _ => by rintro ⟨⟩; exact fails e rfl, ?_⟩
      cases added with
      | nil => exact bind_of_error agrees
      | cons x xs => exact stops x xs rfl
  | ok a =>
      rw [bind_of_ok same]
      obtain ⟨more, notes', fails', agrees'⟩ := second a after
      refine ⟨added ++ more, notes.trans notes', fails', ?_⟩
      cases added with
      | nil =>
          rw [List.nil_append, bind_of_ok agrees]
          exact agrees'
      | cons x xs => exact stops x xs rfl

theorem follows_recover {line : Nat} {kind : DirectiveKind} {fallback : α} (h : Follows B E m n)
    (raised : ∀ e, E e → B ⟨line, kind, e⟩) :
    Follows B E' (recover true line kind fallback m) (recover false line kind fallback n) := by
  intro s
  obtain ⟨added, notes, fails, agrees⟩ := h s
  rcases same : n s with ⟨result, after⟩
  rw [same] at notes fails agrees
  -- The error of a directive inside has its line already, which `atLine` leaves as it is.
  have stops : ∀ x xs, added = x :: xs →
      (recover true line kind fallback m s).1 = .error (x.error.atLine x.line) := by
    rintro x xs rfl
    rcases strict : m s with ⟨stopped, left⟩
    rw [strict] at agrees
    obtain rfl : stopped = .error (x.error.atLine x.line) := agrees
    simp [recover, strict, TemplateError.atLine_atLine]
  cases result with
  | ok a =>
      have kept : recover false line kind fallback n s = (.ok a, after) := by simp [recover, same]
      rw [kept]
      refine ⟨added, notes, nofun, ?_⟩
      cases added with
      | nil => simp [Agrees, recover, show m s = _ from agrees]
      | cons x xs => exact stops x xs rfl
  | error e =>
      let noted : Progress := { after with
        stats := { after.stats with suppressedErrors := after.stats.suppressedErrors + 1 }
        suppressed := after.suppressed ++ [⟨line, kind, e⟩] }
      have kept : recover false line kind fallback n s = (.ok fallback, noted) := by simp [recover, same, noted]
      have last : Notes B after noted [⟨line, kind, e⟩] := ⟨rfl, rfl, by simpa using raised e (fails e rfl)⟩
      rw [kept]
      refine ⟨added ++ [⟨line, kind, e⟩], notes.trans last, nofun, ?_⟩
      cases added with
      | nil => simp [Agrees, recover, show m s = _ from agrees]
      | cons x xs => exact stops x xs rfl

theorem follows_within {ctx : Context} (h : Follows B E m n) : Follows B E (within ctx m) (within ctx n) := by
  intro s
  obtain ⟨added, notes, fails, agrees⟩ := h { s with context := ctx }
  refine ⟨added, ⟨notes.suppressed, notes.counted, notes.raised⟩, fails, ?_⟩
  cases added with
  | nil => simp [Agrees, within, show m _ = n _ from agrees]
  | cons x xs => exact agrees

theorem follows_inBranch (h : Follows B E m n) : Follows B E (inBranch m) (inBranch n) := by
  intro s
  obtain ⟨added, notes, fails, agrees⟩ := h { s with context := s.context.enterBranch }
  refine ⟨added, ⟨notes.suppressed, notes.counted, notes.raised⟩, fails, ?_⟩
  cases added with
  | nil => simp [Agrees, inBranch, show m _ = n _ from agrees]
  | cons x xs => exact agrees

end

section

variable {α : Type} {B : Suppression → Prop} {E : TemplateError → Prop}

theorem follows_bindingValue {name expression : Text} {line : Nat}
    (raised : ∀ x, Raised [.binding name expression line] x → B x) :
    Follows B (fun e => B ⟨line, .binding, e⟩) (bindingValue expression) (bindingValue expression) := by
  apply follows_bind follows_context
  intro ctx
  apply follows_ofExpr
  intro fault failed
  exact raised _ (.of_fails (.binding failed) List.mem_cons_self)

theorem follows_bindName {name : Text} {value : Value} : Follows B E (bind name value) (bind name value) :=
  follows_self (fun s => ⟨by simp [bind], rfl, by simp⟩) fun _ _ => nofun

theorem follows_bindAll {block : Block} (raised : ∀ x, Raised block x → B x) :
    Follows B E (bindAll true block) (bindAll false block) := by
  induction block with
  | nil => exact follows_pure ()
  | cons node rest ih =>
      have more := ih fun x h => raised x (h.mono (List.subset_cons_self _ _))
      cases node with
      | binding name expression line =>
          have own : ∀ x, Raised [.binding name expression line] x → B x := fun x h => raised x (h.mono (by simp))
          rw [bindAll, bindAll]
          apply follows_bind
          · apply follows_recover
            · apply follows_bind (follows_bindingValue own)
              intro value
              exact follows_pure (some value)
            · intro e noted
              exact noted
          · intro value
            cases value with
            | none => exact more
            | some value =>
                apply follows_bind follows_bindName
                intro _
                refine follows_bind (follows_count fun _ => rfl) ?_
                intro _
                exact more
      | _ => exact more

theorem follows_interpolate {source : Text} {line : Nat}
    (raised : ∀ x, Raised [.interpolation source line] x → B x) :
    Follows B (fun e => B ⟨line, .interpolation, e⟩) (interpolate source) (interpolate source) := by
  refine follows_bind (follows_count fun _ => rfl) ?_
  intro _
  apply follows_bind follows_context
  intro ctx
  apply follows_ofExpr
  intro fault failed
  exact raised _ (.of_fails (.interpolation failed) List.mem_cons_self)

variable {m n : Render Text}

theorem follows_fail {e : TemplateError} (raised : E e) : Follows B E (fail e : Render α) (fail e) := by
  refine follows_self .refl fun _ _ same => ?_
  cases same
  exact raised

theorem follows_enterBlock {depth : Nat} {block : Block} (refused : nestingMax < depth → E (.expression .tooDeep))
    (raised : ∀ x, Raised block x → B x) (h : Follows B E m n) :
    Follows B E (enterBlock true depth block m) (enterBlock false depth block n) := by
  rw [enterBlock, enterBlock]
  split
  · rename_i deep
    exact follows_fail (refused deep)
  · refine follows_bind (follows_count fun _ => rfl) ?_
    intro _
    apply follows_bind (follows_bindAll raised)
    intro _
    exact h

theorem follows_eachItem {index : Option Text} {item : Text} (h : Follows B E m n) (position : Nat)
    (elements : List Value) :
    Follows B E (eachItem index item m position elements) (eachItem index item n position elements) := by
  induction elements generalizing position with
  | nil => exact follows_pure []
  | cons element rest ih =>
      apply follows_bind (follows_within h)
      intro text
      refine follows_bind (follows_count fun _ => rfl) ?_
      intro _
      apply follows_bind (ih (position + 1))
      intro texts
      exact follows_pure (text :: texts)

theorem follows_expandLoop {index : Option Text} {item path : Text} (h : Follows B E m n)
    (malformed : ∀ fault, Path.read path = .error fault → E (.expression fault)) :
    Follows B E (expandLoop index item path m) (expandLoop index item path n) := by
  apply follows_bind (follows_ofExpr malformed)
  intro path
  apply follows_bind follows_context
  intro ctx
  rcases ctx.resolve path with _ | value
  · exact follows_pure []
  · cases value with
    | array items =>
        refine follows_bind (follows_count fun _ => rfl) ?_
        intro _
        apply follows_bind (follows_eachItem h 0 items)
        intro texts
        exact follows_pure (Text.join ['\n'] texts)
    | _ => exact follows_pure []

theorem selects_some {kind : BranchKind} (early : kind ≠ .otherwise) (source : Text) (line : Nat) :
    selects kind (some source) line =
      match Condition.read source with
      | .ok condition => do return condition.eval (← context)
      | .error fault => fail (.directive line fault) := by
  have shape : selects kind (some source) line = fun s =>
      match Condition.read source with
      | .ok condition => (.ok (condition.eval s.context), s)
      | .error fault => (.error (.directive line fault), s) := by
    cases kind with
    | otherwise => exact absurd rfl early
    | _ => rfl
  rw [shape]
  cases Condition.read source <;> rfl

theorem follows_selects {kind : BranchKind} {condition : Option Text} {line : Nat}
    (malformed : ∀ source fault, condition = some source → kind ≠ .otherwise → Condition.read source = .error fault →
      E (.directive line fault)) :
    Follows B E (selects kind condition line) (selects kind condition line) := by
  by_cases last : kind = .otherwise
  · subst last
    exact follows_pure true
  · cases condition with
    | none => cases kind <;> exact follows_pure true
    | some source =>
        rw [selects_some last]
        cases read : Condition.read source with
        | ok condition => exact follows_bind follows_context fun ctx => follows_pure (condition.eval ctx)
        | error fault =>
            refine follows_self .refl fun _ e same => ?_
            cases same
            exact malformed source fault rfl last read

end

def Misread (choices : List Branch) (e : TemplateError) : Prop :=
  ∃ kind source body place fault, .mk kind (some source) body place ∈ choices ∧ kind ≠ .otherwise ∧
    Condition.read source = .error fault ∧ e = .directive place fault

-- Only where blocks lie deeper than they may can a directive also be suppressed because its body does.
mutual

theorem follows_node {B : Suppression → Prop} {E : TemplateError → Prop} (depth : Nat) :
    (n : Node) → (nestingMax < depth + n.height → ∀ line kind, B ⟨line, kind, .expression .tooDeep⟩) →
      (∀ x, Raised [n] x → B x) → Follows B E (node true depth n) (node false depth n)
  | .text content, _, _ => follows_pure content
  | .binding _ _ _, _, _ => follows_pure []
  | .interpolation source line, _, raised => follows_recover (follows_interpolate raised) fun _ h => h
  | .loop index item path body line, refused, raised => by
      rw [Node.height] at refused
      have inside : ∀ x, Raised body x → B x := by
        rintro x ⟨n, place, fault, occurs, fails⟩
        exact raised x ⟨n, place, fault, .body List.mem_cons_self occurs, fails⟩
      refine follows_recover (E := fun e => B ⟨line, .loop, e⟩) (follows_expandLoop ?_ fun fault failed => ?_)
        fun _ h => h
      · exact follows_enterBlock (fun deep => refused (by omega) line .loop) inside
          (follows_nodes (depth + 1) body (fun deep => refused (by omega)) inside)
      · exact raised _ (.of_fails (.loop failed) List.mem_cons_self)
  | .conditional choices line, refused, raised => by
      rw [Node.height] at refused
      refine follows_recover (E := fun e => B ⟨line, .conditional, e⟩)
        (follows_bind (follows_count fun _ => rfl) fun _ => ?_) fun _ h => h
      refine (follows_branches depth choices (fun deep => refused (by omega)) ?_).mono (fun _ h => h) ?_
      · rintro kind condition body place x member ⟨n, line, fault, occurs, fails⟩
        exact raised x ⟨n, line, fault, .branch List.mem_cons_self member occurs, fails⟩
      · rintro e (⟨kind, source, body, place, fault, member, early, failed, rfl⟩ | ⟨deep, rfl⟩)
        · exact raised _ (.of_fails (.conditional member early failed) List.mem_cons_self)
        · exact refused (by omega) line .conditional

theorem follows_nodes {B : Suppression → Prop} {E : TemplateError → Prop} (depth : Nat) :
    (block : List Node) →
      (nestingMax < depth + Node.heights block → ∀ line kind, B ⟨line, kind, .expression .tooDeep⟩) →
      (∀ x, Raised block x → B x) → Follows B E (nodes true depth block) (nodes false depth block)
  | [], _, _ => follows_pure []
  | first :: rest, refused, raised => by
      rw [Node.heights_cons] at refused
      apply follows_bind (follows_node depth first (fun deep => refused (by omega)) fun x h => raised x (h.mono (by simp)))
      intro text
      apply follows_bind (follows_nodes depth rest (fun deep => refused (by omega)) fun x h => raised x (h.mono (by simp)))
      intro more
      exact follows_pure (text ++ more)

theorem follows_branches {B : Suppression → Prop} (depth : Nat) :
    (choices : List Branch) →
      (nestingMax < depth + 1 + Node.branchHeights choices → ∀ line kind, B ⟨line, kind, .expression .tooDeep⟩) →
      (∀ kind condition body place x, .mk kind condition body place ∈ choices → Raised body x → B x) →
      Follows B (fun e => Misread choices e ∨ nestingMax < depth + 1 ∧ e = .expression .tooDeep)
        (branches true depth choices) (branches false depth choices)
  | [], _, _ => follows_pure []
  | .mk kind condition body place :: rest, refused, raised => by
      rw [Node.branchHeights_cons] at refused
      have inside : ∀ x, Raised body x → B x := fun x h => raised _ _ _ _ x List.mem_cons_self h
      apply follows_bind
      · apply follows_selects
        intro source fault tested early failed
        exact .inl ⟨kind, source, body, place, fault, by simp [tested], early, failed, rfl⟩
      · intro selected
        cases selected with
        | true =>
            exact follows_inBranch (follows_enterBlock (fun deep => .inr ⟨deep, rfl⟩) inside
              (follows_nodes (depth + 1) body (fun deep => refused (by omega)) inside))
        | false =>
            have others := follows_branches depth rest (fun deep => refused (by omega))
              fun kind condition body place x member h => raised kind condition body place x (.tail _ member) h
            apply others.mono (fun _ h => h)
            rintro e (⟨kind, source, body, place, fault, member, failed⟩ | deep)
            · exact .inl ⟨kind, source, body, place, fault, .tail _ member, failed⟩
            · exact .inr deep

end

theorem follows_block {depth : Nat} {block : Block} (room : depth + Node.heights block ≤ nestingMax) :
    Follows (Raised block) (fun _ => False) (Render.block true depth block) (Render.block false depth block) :=
  follows_enterBlock (fun deep => absurd deep (by omega)) (fun _ h => h)
    (follows_nodes depth block (fun deep => absurd deep (by omega)) fun _ h => h)

theorem follows_entered {depth : Nat} (room : depth ≤ nestingMax) (block : Block) :
    Follows (fun _ => True) (fun _ => False) (Render.block true depth block) (Render.block false depth block) :=
  follows_enterBlock (fun deep => absurd deep (by omega)) (fun _ _ => trivial)
    (follows_nodes depth block (fun _ _ _ => trivial) fun _ _ => trivial)

end Render

/-! ## Templates -/

namespace Template

theorem parse_eq_ok {strict : Bool} {source : Text} {t : Template} :
    parse strict source = .ok t ↔
      Block.ofTokens strict (Token.scan source) = .ok (t.block, t.demoted) ∧ t.size = source.utf8Size := by
  rw [parse]
  constructor
  · intro parsed
    obtain ⟨⟨block, demoted⟩, read, same⟩ := Builder.bind_eq_ok.mp parsed
    cases same
    exact ⟨read, rfl⟩
  · rintro ⟨read, size⟩
    rw [read]
    obtain ⟨block, demoted, _⟩ := t
    cases size
    rfl

theorem parse_lenient {source : Text} {t : Template} (parsed : parse true source = .ok t) :
    parse false source = .ok t := by
  obtain ⟨read, size⟩ := parse_eq_ok.mp parsed
  exact parse_eq_ok.mpr ⟨Block.ofTokens_lenient read, size⟩

theorem render_of_root {t : Template} {defaults : List (Text × Text)} {data : Value} {whole : Entries}
    (h : root defaults data = .ok whole) (strict : Bool) :
    t.render ⟨strict, defaults⟩ data =
      match Render.block strict 0 t.block (start whole) with
      | (.ok output, progress) =>
          .ok ⟨output, { progress.stats with templateSize := t.size, outputSize := output.utf8Size },
            progress.suppressed⟩
      | (.error e, _) => .error e := by
  rw [render, h]
  rfl

theorem renders_follow {t : Template} (room : Node.heights t.block ≤ nestingMax) (defaults : List (Text × Text))
    (entries : Entries) :
    ∃ r, t.render ⟨false, defaults⟩ (.object entries) = .ok r ∧
      r.stats.suppressedErrors = r.suppressed.length ∧
      (r.suppressed = [] → t.render ⟨true, defaults⟩ (.object entries) = .ok r) ∧
      ∀ first more, r.suppressed = first :: more → Raised t.block first ∧
        t.render ⟨true, defaults⟩ (.object entries) = .error (first.error.atLine first.line) := by
  have follow : Render.Follows (Raised t.block) (fun _ => False) (Render.block true 0 t.block)
      (Render.block false 0 t.block) := Render.follows_block (by omega)
  obtain ⟨whole, rooted⟩ : ∃ whole, root defaults (.object entries) = .ok whole := ⟨_, rfl⟩
  obtain ⟨added, notes, fails, agrees⟩ := follow (start whole)
  rcases same : Render.block false 0 t.block (start whole) with ⟨result, after⟩
  rw [same] at notes fails agrees
  have suppressed : after.suppressed = added := by simpa [start] using notes.suppressed
  have counted : after.stats.suppressedErrors = added.length := by simpa [start, Stats.zero] using notes.counted
  cases result with
  | error e => exact (fails e rfl).elim
  | ok output =>
      let rendered : Rendered :=
        ⟨output, { after.stats with templateSize := t.size, outputSize := output.utf8Size }, after.suppressed⟩
      have gives : t.render ⟨false, defaults⟩ (.object entries) = .ok rendered := by
        rw [render_of_root rooted, same]
      refine ⟨rendered, gives, counted.trans (congrArg List.length suppressed.symm), ?_, ?_⟩
      · intro none
        obtain rfl : added = [] := suppressed.symm.trans none
        rw [render_of_root rooted, show Render.block true 0 t.block (start whole) = _ from agrees]
      · intro first more some
        obtain rfl : added = first :: more := suppressed.symm.trans some
        refine ⟨notes.raised first List.mem_cons_self, ?_⟩
        rcases strict : Render.block true 0 t.block (start whole) with ⟨stopped, left⟩
        rw [strict] at agrees
        obtain rfl : stopped = .error (first.error.atLine first.line) := agrees
        rw [render_of_root rooted, strict]

end Template

/--
Lenient rendering of a mapping always gives a result. Strict rendering gives one exactly if strict parsing does and the
lenient render suppresses nothing, and it is the same one. If strict parsing succeeds and strict rendering fails, then
with the error of the first directive that the lenient render suppresses, at the line of this directive or, for a
malformed condition, of its branch.
-/
theorem strict_iff_nothing_suppressed (template : Text) (entries : Entries) (defaults : List (Text × Text)) :
    ∃ r, renderWithOptions ⟨false, defaults⟩ template (.object entries) = .ok r ∧
      ((∃ s, renderWithOptions ⟨true, defaults⟩ template (.object entries) = .ok s) ↔
        (∃ t, Template.parse true template = .ok t) ∧ r.stats.suppressedErrors = 0) ∧
      (∀ s, renderWithOptions ⟨true, defaults⟩ template (.object entries) = .ok s → s = r) ∧
      ∀ t e, Template.parse true template = .ok t →
        renderWithOptions ⟨true, defaults⟩ template (.object entries) = .error e →
        ∃ first more node line fault, r.suppressed = first :: more ∧ Occurs node t.block ∧
          node.Fails first line fault ∧ e = .directive line fault := by
  obtain ⟨block, demoted, read⟩ := Block.ofTokens_lenient_ok (Token.scan template)
  have parsed : Template.parse false template = .ok ⟨block, demoted, template.utf8Size⟩ :=
    Template.parse_eq_ok.mpr ⟨read, rfl⟩
  obtain ⟨r, gives, counted, quiet, loud⟩ :=
    Template.renders_follow (t := ⟨block, demoted, template.utf8Size⟩) (ofTokens_heights read) defaults entries
  refine ⟨r, Builder.bind_eq_ok.mpr ⟨_, parsed, gives⟩, ?_⟩
  cases strict : Template.parse true template with
  | error e =>
      have fails : renderWithOptions ⟨true, defaults⟩ template (.object entries) = .error e := by
        rw [renderWithOptions, strict]
        rfl
      rw [fails]
      simp
  | ok t =>
      have strictly : renderWithOptions ⟨true, defaults⟩ template (.object entries) =
          t.render ⟨true, defaults⟩ (.object entries) := by
        rw [renderWithOptions, strict]
        rfl
      obtain rfl : t = ⟨block, demoted, template.utf8Size⟩ :=
        Except.ok.inj ((Template.parse_lenient strict).symm.trans parsed)
      rw [strictly, counted]
      cases noted : r.suppressed with
      | nil =>
          rw [quiet noted]
          simp
      | cons first more =>
          obtain ⟨⟨node, line, fault, occurs, fails⟩, stops⟩ := loud first more noted
          rw [stops, fails.report]
          refine ⟨by simp, nofun, fun t e same error => ?_⟩
          cases same
          cases error
          exact ⟨first, more, node, line, fault, rfl, occurs, fails, rfl⟩

end TextTemplate
