import TextTemplate.Command.Check
import TextTemplate.Proofs.Render.Reach

namespace TextTemplate

namespace Node

def Readable : Node → Prop
  | text _ => True
  | interpolation source _ => ∃ e, Expr.read source = .ok e
  | binding _ expression _ => ∃ e, Expr.read expression = .ok e
  | loop _ _ path _ _ => ∃ p, Path.read path = .ok p
  | conditional branches _ =>
      ∀ kind source body place, .mk kind (some source) body place ∈ branches → ∃ c, Condition.read source = .ok c

theorem checkAt_eq_ok {α : Type} {line : Nat} {read : Except ExprFault α} :
    checkAt line read = .ok () ↔ ∃ a, read = .ok a := by
  cases read <;> simp [checkAt]

theorem checkAt_error {α : Type} {line : Nat} {read : Except ExprFault α} {e : TemplateError}
    (h : checkAt line read = .error e) : ∃ fault, e = .directive line fault := by
  cases read with
  | ok a => cases h
  | error fault =>
      cases h
      exact ⟨fault, rfl⟩

theorem check_of_mem {node : Node} {block : Block} (checked : checkBlock block = .ok ()) (member : node ∈ block) :
    node.check = .ok () := by
  induction block with
  | nil => cases member
  | cons first rest ih =>
      rw [checkBlock] at checked
      obtain ⟨⟨⟩, head, tail⟩ := Builder.bind_eq_ok.mp checked
      rcases List.mem_cons.mp member with rfl | member
      · exact head
      · exact ih tail member

def checkTest (line : Nat) : Option Text → Except TemplateError Unit
  | some source => checkAt line (Condition.read source)
  | none => .ok ()

theorem checkBranches_cons (kind : BranchKind) (condition : Option Text) (body : Block) (place : Nat)
    (rest : List Branch) :
    checkBranches (.mk kind condition body place :: rest) = (do
      checkTest place condition
      checkBlock body
      checkBranches rest) := by
  cases condition <;> rfl

theorem checkBranches_of_mem {kind : BranchKind} {condition : Option Text} {body : Block} {place : Nat}
    {branches : List Branch} (checked : checkBranches branches = .ok ())
    (member : .mk kind condition body place ∈ branches) :
    (∀ source, condition = some source → ∃ c, Condition.read source = .ok c) ∧ checkBlock body = .ok () := by
  induction branches with
  | nil => cases member
  | cons first rest ih =>
      obtain ⟨kind', condition', body', place'⟩ := first
      rw [checkBranches_cons] at checked
      obtain ⟨⟨⟩, test, checked⟩ := Builder.bind_eq_ok.mp checked
      obtain ⟨⟨⟩, inside, others⟩ := Builder.bind_eq_ok.mp checked
      rcases List.mem_cons.mp member with same | member
      · cases same
        refine ⟨?_, inside⟩
        rintro source rfl
        exact checkAt_eq_ok.mp test
      · exact ih others member

theorem readable_of_check {node : Node} (checked : node.check = .ok ()) : node.Readable := by
  cases node with
  | text content => trivial
  | interpolation source line => exact checkAt_eq_ok.mp checked
  | binding name expression line => exact checkAt_eq_ok.mp checked
  | loop index item path body line =>
      rw [check] at checked
      obtain ⟨⟨⟩, head, -⟩ := Builder.bind_eq_ok.mp checked
      exact checkAt_eq_ok.mp head
  | conditional branches line =>
      intro kind source body place member
      exact (checkBranches_of_mem checked member).1 source rfl

theorem readable_of_occurs {node : Node} {block : Block} (occurs : Occurs node block)
    (checked : checkBlock block = .ok ()) : node.Readable := by
  induction occurs with
  | here member => exact readable_of_check (check_of_mem checked member)
  | body member _ ih =>
      have whole := check_of_mem checked member
      rw [check] at whole
      obtain ⟨⟨⟩, -, inside⟩ := Builder.bind_eq_ok.mp whole
      exact ih inside
  | branch member choice _ ih => exact ih (checkBranches_of_mem (check_of_mem checked member) choice).2

mutual

theorem check_error {e : TemplateError} :
    (node : Node) → node.check = .error e → ∃ line fault, e = .directive line fault
  | text _, h => nomatch h
  | interpolation _ line, h => ⟨line, checkAt_error h⟩
  | binding _ _ line, h => ⟨line, checkAt_error h⟩
  | loop _ _ _ body line, h => by
      rw [check] at h
      rcases Builder.bind_eq_error.mp h with h | ⟨⟨⟩, -, h⟩
      · exact ⟨line, checkAt_error h⟩
      · exact checkBlock_error body h
  | conditional branches _, h => checkBranches_error branches h

theorem checkBlock_error {e : TemplateError} :
    (block : List Node) → checkBlock block = .error e → ∃ line fault, e = .directive line fault
  | [], h => nomatch h
  | node :: rest, h => by
      rw [checkBlock] at h
      rcases Builder.bind_eq_error.mp h with h | ⟨⟨⟩, -, h⟩
      · exact check_error node h
      · exact checkBlock_error rest h

theorem checkBranches_error {e : TemplateError} :
    (branches : List Branch) → checkBranches branches = .error e → ∃ line fault, e = .directive line fault
  | [], h => nomatch h
  | .mk kind condition body place :: rest, h => by
      rw [checkBranches_cons] at h
      rcases Builder.bind_eq_error.mp h with h | ⟨⟨⟩, -, h⟩
      · cases condition with
        | none => cases h
        | some source => exact ⟨place, checkAt_error h⟩
      · rcases Builder.bind_eq_error.mp h with h | ⟨⟨⟩, -, h⟩
        · exact checkBlock_error body h
        · exact checkBranches_error rest h

end

inductive Chooses : Node → Condition → Operand → Operand → Nat → Prop
  | interpolation {source : Text} {line : Nat} {c : Condition} {whenTrue whenFalse : Operand} :
      Expr.read source = .ok (.ternary c whenTrue whenFalse) →
      Chooses (.interpolation source line) c whenTrue whenFalse line
  | binding {name expression : Text} {line : Nat} {c : Condition} {whenTrue whenFalse : Operand} :
      Expr.read expression = .ok (.ternary c whenTrue whenFalse) →
      Chooses (.binding name expression line) c whenTrue whenFalse line

theorem branchText_error {ctx : Context} {o : Operand} {fault : ExprFault} (h : o.branchText ctx = .error fault) :
    Value.isContainer (o.eval ctx) = true ∧ fault = .containerBranch o.shown := by
  rw [Operand.branchText] at h
  split at h
  · cases h
    exact ⟨‹_›, rfl⟩
  · cases h

theorem winner_of_render {ctx : Context} {e : Expr} {fault : ExprFault} (failed : e.render ctx = .error fault) :
    ∃ c whenTrue whenFalse, e = .ternary c whenTrue whenFalse ∧
      (if c.eval ctx then whenTrue else whenFalse).branchText ctx = .error fault := by
  cases e with
  | operand o => cases failed
  | condition c => cases failed
  | ternary c whenTrue whenFalse => exact ⟨c, whenTrue, whenFalse, rfl, failed⟩

theorem winner_of_value {ctx : Context} {e : Expr} {fault : ExprFault} (failed : e.value ctx = .error fault) :
    ∃ c whenTrue whenFalse, e = .ternary c whenTrue whenFalse ∧
      (if c.eval ctx then whenTrue else whenFalse).branchText ctx = .error fault := by
  cases e with
  | operand o => cases failed
  | condition c => cases failed
  | ternary c whenTrue whenFalse =>
      rw [Expr.value] at failed
      cases text : (if c.eval ctx then whenTrue else whenFalse).branchText ctx with
      | ok t =>
          rw [text] at failed
          cases failed
      | error fault' =>
          rw [text] at failed
          cases failed
          exact ⟨c, whenTrue, whenFalse, rfl, text⟩

theorem FailsIn.chooses {ctx : Context} {node : Node} {line : Nat} {fault : ExprFault}
    (fails : node.FailsIn ctx line fault) (readable : node.Readable) :
    ∃ c whenTrue whenFalse winner, node.Chooses c whenTrue whenFalse line ∧
      winner = (if c.eval ctx then whenTrue else whenFalse) ∧ Value.isContainer (winner.eval ctx) = true ∧
      fault = .containerBranch winner.shown := by
  cases fails with
  | interpolation failed =>
      obtain ⟨e, read⟩ := readable
      rw [read] at failed
      obtain ⟨c, whenTrue, whenFalse, rfl, refused⟩ := winner_of_render failed
      obtain ⟨container, same⟩ := branchText_error refused
      exact ⟨c, whenTrue, whenFalse, _, .interpolation read, rfl, container, same⟩
  | binding failed =>
      obtain ⟨e, read⟩ := readable
      rw [read] at failed
      obtain ⟨c, whenTrue, whenFalse, rfl, refused⟩ := winner_of_value failed
      obtain ⟨container, same⟩ := branchText_error refused
      exact ⟨c, whenTrue, whenFalse, _, .binding read, rfl, container, same⟩
  | loop failed =>
      obtain ⟨p, read⟩ := readable
      rw [read] at failed
      cases failed
  | conditional member _ failed =>
      obtain ⟨c, read⟩ := readable _ _ _ _ member
      rw [read] at failed
      cases failed

end Node

/--
If a template passes the check, then strict rendering of any mapping gives a result, or fails at a node it comes to
whose winning operand is an array or a mapping there. If the check fails because the template does not parse, then
strict rendering fails with the same error whatever the data is.
-/
theorem checkTemplate_predicts (template : Text) :
    (∀ counts, checkTemplate template = .ok counts → ∀ entries,
      ∃ t, Template.parse true template = .ok t ∧
        ((∃ output, renderSafe template (.object entries) = .ok output) ∨
          ∃ ctx node c whenTrue whenFalse winner line, Reaches (.ofRoot entries) t.block ctx node ∧
            node.Chooses c whenTrue whenFalse line ∧ winner = (if c.eval ctx then whenTrue else whenFalse) ∧
            Value.isContainer (winner.eval ctx) = true ∧
            renderSafe template (.object entries) = .failed (.directive line (.containerBranch winner.shown)))) ∧
    ∀ position tag problem, checkTemplate template = .error (.parse position tag problem) →
      ∀ defaults data, renderWithOptions ⟨true, defaults⟩ template data = .error (.parse position tag problem) := by
  constructor
  · intro counts checked entries
    rw [checkTemplate] at checked
    obtain ⟨t, parsed, checked⟩ := Builder.bind_eq_ok.mp checked
    obtain ⟨⟨⟩, checked, -⟩ := Builder.bind_eq_ok.mp checked
    refine ⟨t, parsed, ?_⟩
    have room : Node.heights t.block ≤ nestingMax := ofTokens_heights (Template.parse_eq_ok.mp parsed).1
    have renders : renderWithOptions .strictly template (.object entries) = t.render .strictly (.object entries) := by
      rw [renderWithOptions, show Options.strictly.strict = true from rfl, parsed]
      rfl
    have rooted : Template.root [] (.object entries) = .ok entries := rfl
    rw [Options.strictly, Template.render_of_root rooted] at renders
    obtain ⟨after, ⟨output, gives, -⟩ | ⟨e, fails, ctx, node, line, fault, reached, failed, rfl⟩⟩ :=
      Render.ends_block 0 (.ofRoot entries) t.block (by omega) (Template.start entries) rfl
    · refine .inl ⟨output, ?_⟩
      rw [show Render.block true 0 t.block (Template.start entries) = _ from gives] at renders
      rw [renderSafe, Options.strictly, renders]
    · obtain ⟨c, whenTrue, whenFalse, winner, chooses, same, container, rfl⟩ :=
        failed.chooses (Node.readable_of_occurs reached.occurs checked)
      refine .inr ⟨ctx, node, c, whenTrue, whenFalse, winner, line, reached, chooses, same, container, ?_⟩
      rw [show Render.block true 0 t.block (Template.start entries) = _ from fails] at renders
      rw [renderSafe, Options.strictly, renders]
  · intro position tag problem failed defaults data
    rw [checkTemplate] at failed
    rcases Builder.bind_eq_error.mp failed with failed | ⟨t, -, failed⟩
    · rw [renderWithOptions, failed]
      rfl
    · rcases Builder.bind_eq_error.mp failed with failed | ⟨⟨⟩, -, failed⟩
      · obtain ⟨_, _, same⟩ := Node.checkBlock_error _ failed
        cases same
      · cases failed

end TextTemplate
