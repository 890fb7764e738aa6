import TextTemplate.Proofs.Render.Check
import TextTemplate.Proofs.Render.Suppression

namespace TextTemplate

def Branch.isMalformed : Branch → Bool
  | .mk .otherwise _ _ _ => false
  | .mk _ none _ _ => false
  | .mk _ (some source) _ _ => !(Condition.read source).isOk

namespace Node

mutual

/-- What is left of a node without the malformed directives in it: nothing if it is malformed itself. -/
def pruned : Node → List Node
  | text content => [text content]
  | interpolation source line => if (Expr.read source).isOk then [interpolation source line] else []
  | binding name expression line => if (Expr.read expression).isOk then [binding name expression line] else []
  | loop index item path body line =>
      if (Path.read path).isOk then [loop index item path (prunedAll body) line] else []
  | conditional branches line =>
      if branches.head?.any Branch.isMalformed then [] else [conditional (prunedBranches branches) line]

def prunedAll : List Node → List Node
  | [] => []
  | node :: rest => node.pruned ++ prunedAll rest

def prunedBranches : List Branch → List Branch
  | [] => []
  | .mk kind condition body line :: rest =>
      if (Branch.mk kind condition body line).isMalformed then []
      else .mk kind condition (prunedAll body) line :: prunedBranches rest

end

end Node

def Block.pruned (block : Block) : Block := Node.prunedAll block

open Node

theorem isOk_iff {ε α : Type} {x : Except ε α} : x.isOk = true ↔ ∃ a, x = .ok a := by
  cases x <;> simp [Except.isOk, Except.toBool]

theorem not_isOk_iff {ε α : Type} {x : Except ε α} : ¬ x.isOk = true ↔ ∃ e, x = .error e := by
  cases x <;> simp [Except.isOk, Except.toBool]

namespace Context

theorem withBindings_append (ctx : Context) (block more : List Node) :
    ctx.withBindings (block ++ more) = (ctx.withBindings block).withBindings more := by
  induction block generalizing ctx with
  | nil => rfl
  | cons node rest ih =>
      cases node with
      | binding name expression line =>
          rw [List.cons_append, withBindings, withBindings]
          split <;> exact ih _
      | _ => exact ih ctx

theorem withBindings_pruned_node (ctx : Context) (node : Node) :
    ctx.withBindings node.pruned = ctx.withBindings [node] := by
  cases node with
  | text content => rfl
  | binding name expression line =>
      rw [Node.pruned]
      split
      · rfl
      · rename_i malformed
        obtain ⟨fault, read⟩ := not_isOk_iff.mp malformed
        simp [withBindings, read, Bind.bind, Except.bind]
  | _ =>
      rw [Node.pruned]
      split <;> rfl

theorem withBindings_pruned (ctx : Context) (block : Block) :
    ctx.withBindings block.pruned = ctx.withBindings block := by
  induction block generalizing ctx with
  | nil => rfl
  | cons node rest ih =>
      have split : ctx.withBindings (node :: rest) = (ctx.withBindings [node]).withBindings rest :=
        withBindings_append ctx [node] rest
      rw [split, ← withBindings_pruned_node, ← ih]
      exact withBindings_append ctx node.pruned (prunedAll rest)

end Context

theorem Branch.isMalformed_iff {kind : BranchKind} {condition : Option Text} {body : Block} {line : Nat}
    (ctx : Context) :
    (Branch.mk kind condition body line).isMalformed = true ↔ ∃ fault, ctx.test kind condition = .error fault := by
  cases kind <;> cases condition with
  | none => simp [isMalformed, Context.test]
  | some source =>
      cases read : Condition.read source <;> simp [isMalformed, Context.test, read, Except.isOk, Except.toBool, Except.map]

theorem Branch.isMalformed_body (kind : BranchKind) (condition : Option Text) (body other : Block) (line : Nat) :
    (Branch.mk kind condition body line).isMalformed = (Branch.mk kind condition other line).isMalformed := by
  cases kind <;> cases condition <;> rfl

theorem Branch.exists_of_head {choices : List Branch} (h : choices.head?.any Branch.isMalformed = true) :
    ∃ kind condition body place rest, choices = .mk kind condition body place :: rest ∧
      (Branch.mk kind condition body place).isMalformed = true := by
  cases choices with
  | nil => cases h
  | cons branch rest =>
      obtain ⟨kind, condition, body, place⟩ := branch
      exact ⟨kind, condition, body, place, rest, rfl, h⟩

namespace Lenient

section

variable {depth : Nat} {ctx : Context}

theorem text_block_pruned {body : Block} (inside : ∀ inner : Context,
    (nodes depth inner (prunedAll body)).text = (nodes depth inner body).text) :
    (block depth ctx (prunedAll body)).text = (block depth ctx body).text := by
  rw [text_block, text_block, inside, ← Block.pruned, ctx.withBindings_pruned]

theorem text_lines_mapIdx {f g : Nat → Value → Outcome} (same : ∀ i element, (f i element).text = (g i element).text)
    (items : List Value) : (Outcome.lines (items.mapIdx f)).text = (Outcome.lines (items.mapIdx g)).text := by
  have texts : (items.mapIdx f).map Outcome.text = (items.mapIdx g).map Outcome.text := by
    induction items generalizing f g with
    | nil => rfl
    | cons element rest ih =>
        rw [List.mapIdx_cons, List.mapIdx_cons, List.map_cons, List.map_cons, same 0 element]
        rw [ih fun i => same (i + 1)]
  rw [Outcome.lines, Outcome.lines, texts]

end

mutual

theorem text_pruned (depth : Nat) (ctx : Context) :
    (n : Node) → (nodes depth ctx n.pruned).text = (node depth ctx n).text
  | .text content => text_nodes_single _
  | .binding _ _ _ => by
      rw [pruned]
      split <;> rfl
  | .interpolation source line => by
      rw [pruned]
      split
      · exact text_nodes_single _
      · rename_i malformed
        obtain ⟨fault, read⟩ := not_isOk_iff.mp malformed
        have fails : (do (← Expr.read source).render ctx) = .error fault := by
          rw [read]
          rfl
        rw [node_interpolation_of_error fails]
        rfl
  | .loop index item path body line => by
      rw [pruned]
      split
      · rename_i readable
        obtain ⟨p, read⟩ := isOk_iff.mp readable
        rw [text_nodes_single]
        rcases ctx.resolves_array_or p with ⟨items, resolves⟩ | other
        · rw [node_loop_of_array read resolves, node_loop_of_array read resolves]
          split
          · rfl
          · apply text_lines_mapIdx
            intro i element
            exact text_block_pruned fun inner => text_prunedAll (depth + 1) inner body
        · rw [node_loop_of_other read other, node_loop_of_other read other]
      · rename_i malformed
        obtain ⟨fault, read⟩ := not_isOk_iff.mp malformed
        rw [node_loop_of_error read]
        rfl
  | .conditional choices line => by
      rw [pruned]
      split
      · rename_i malformed
        obtain ⟨kind, condition, body, place, rest, rfl, misread⟩ := Branch.exists_of_head malformed
        obtain ⟨fault, fails⟩ := (Branch.isMalformed_iff ctx).mp misread
        rw [node, branches_of_error fails]
        rfl
      · rw [text_nodes_single]
        exact text_prunedBranches depth ctx line choices

theorem text_prunedAll (depth : Nat) (ctx : Context) :
    (block : List Node) → (nodes depth ctx (prunedAll block)).text = (nodes depth ctx block).text
  | [] => rfl
  | first :: rest => by
      rw [prunedAll, text_nodes, List.flatMap_append, ← text_nodes, ← text_nodes, text_pruned depth ctx first]
      rw [text_prunedAll depth ctx rest]
      rfl

theorem text_prunedBranches (depth : Nat) (ctx : Context) (line : Nat) :
    (choices : List Branch) →
      (branches depth ctx line (prunedBranches choices)).text = (branches depth ctx line choices).text
  | [] => rfl
  | .mk kind condition body place :: rest => by
      rw [prunedBranches]
      split
      · rename_i malformed
        obtain ⟨fault, fails⟩ := (Branch.isMalformed_iff ctx).mp malformed
        rw [branches_of_error fails]
        rfl
      · rename_i readable
        rcases test : ctx.test kind condition with fault | selected
        · exact absurd ((Branch.isMalformed_iff ctx).mpr ⟨fault, test⟩) readable
        · cases selected with
          | false =>
              rw [branches_of_false test, branches_of_false test]
              exact text_prunedBranches depth ctx line rest
          | true =>
              rw [branches_of_true test, branches_of_true test]
              split
              · rfl
              · exact text_block_pruned fun inner => text_prunedAll (depth + 1) inner body

end

end Lenient

def Node.Legible : Node → Prop
  | text _ => True
  | interpolation source _ => ∃ e, Expr.read source = .ok e
  | binding _ expression _ => ∃ e, Expr.read expression = .ok e
  | loop _ _ path _ _ => ∃ p, Path.read path = .ok p
  | conditional branches _ =>
      ∀ kind condition body place, .mk kind condition body place ∈ branches →
        (Branch.mk kind condition body place).isMalformed = false

def Block.Legible (block : Block) : Prop := ∀ node, Occurs node block → node.Legible

namespace Block.Legible

theorem nil : Legible [] := by
  intro node occurs
  cases occurs with
  | here member => cases member
  | body member _ => cases member
  | branch member _ _ => cases member

theorem append {block more : Block} (h : block.Legible) (h' : more.Legible) : Legible (block ++ more) := by
  intro node occurs
  cases occurs with
  | here member =>
      rcases List.mem_append.mp member with member | member
      · exact h node (.here member)
      · exact h' node (.here member)
  | body member inside =>
      rcases List.mem_append.mp member with member | member
      · exact h node (.body member inside)
      · exact h' node (.body member inside)
  | branch member choice inside =>
      rcases List.mem_append.mp member with member | member
      · exact h node (.branch member choice inside)
      · exact h' node (.branch member choice inside)

theorem single {n : Node} (own : n.Legible)
    (body : ∀ {index item path body line}, n = .loop index item path body line → Legible body)
    (branch : ∀ {branches line kind condition body place}, n = .conditional branches line →
      .mk kind condition body place ∈ branches → Legible body) : Legible [n] := by
  intro node occurs
  cases occurs with
  | here member => rwa [List.mem_singleton.mp member]
  | body member inside => exact body (List.mem_singleton.mp member).symm node inside
  | branch member choice inside => exact branch (List.mem_singleton.mp member).symm choice node inside

end Block.Legible

namespace Node

mutual

theorem legible_pruned : (n : Node) → Block.Legible n.pruned
  | text content => .single trivial nofun nofun
  | interpolation source line => by
      rw [pruned]
      split
      · rename_i readable
        exact .single (isOk_iff.mp readable) nofun nofun
      · exact .nil
  | binding name expression line => by
      rw [pruned]
      split
      · rename_i readable
        exact .single (isOk_iff.mp readable) nofun nofun
      · exact .nil
  | loop index item path body line => by
      rw [pruned]
      split
      · rename_i readable
        refine .single (isOk_iff.mp readable) ?_ nofun
        rintro _ _ _ _ _ ⟨⟩
        exact legible_prunedAll body
      · exact .nil
  | conditional choices line => by
      rw [pruned]
      split
      · exact .nil
      · refine .single (fun _ _ _ _ member => (legible_prunedBranches choices member).1) nofun ?_
        rintro _ _ _ _ _ _ ⟨⟩ member
        exact (legible_prunedBranches choices member).2

theorem legible_prunedAll : (block : List Node) → Block.Legible (prunedAll block)
  | [] => .nil
  | first :: rest => (legible_pruned first).append (legible_prunedAll rest)

theorem legible_prunedBranches {kind : BranchKind} {condition : Option Text} {body : Block} {place : Nat} :
    (choices : List Branch) → .mk kind condition body place ∈ prunedBranches choices →
      (Branch.mk kind condition body place).isMalformed = false ∧ Block.Legible body
  | [], member => nomatch member
  | .mk kind' condition' body' place' :: rest, member => by
      rw [prunedBranches] at member
      split at member
      · cases member
      · rename_i readable
        rcases List.mem_cons.mp member with same | later
        · cases same
          rw [Branch.isMalformed_body kind condition _ body']
          exact ⟨Bool.eq_false_iff.mpr readable, legible_prunedAll body'⟩
        · exact legible_prunedBranches rest later

end

theorem Legible.chooses {ctx : Context} {node : Node} {line : Nat} {fault : ExprFault} (legible : node.Legible)
    (fails : node.FailsIn ctx line fault) :
    ∃ c whenTrue whenFalse winner, node.Chooses c whenTrue whenFalse line ∧
      winner = (if c.eval ctx then whenTrue else whenFalse) ∧ Value.isContainer (winner.eval ctx) = true ∧
      fault = .containerBranch winner.shown := by
  cases fails with
  | interpolation failed => exact FailsIn.chooses (.interpolation failed) legible
  | binding failed => exact FailsIn.chooses (.binding failed) legible
  | loop failed => exact FailsIn.chooses (.loop failed) legible
  | @conditional _ _ kind source body _ _ member early failed =>
      have misread : (Branch.mk kind (some source) body line).isMalformed = true :=
        (Branch.isMalformed_iff ctx).mpr ⟨fault, Context.test_eq_error.mpr ⟨source, rfl, early, failed⟩⟩
      rw [legible _ _ _ _ member] at misread
      cases misread

end Node

/--
What a lenient render of a block can suppress if all its directives can be read: a choice, at a node that it comes to,
whose winner is an array or a mapping there, or a loop or conditional whose body lies too deep.
-/
inductive Leftover (depth : Nat) (ctx : Context) (block : Block) (x : Suppression) : Prop
  | container {inner : Context} {node : Node} {c : Condition} {whenTrue whenFalse winner : Operand} {line : Nat} :
      Reaches ctx block inner node → node.Chooses c whenTrue whenFalse line →
      winner = (if c.eval inner then whenTrue else whenFalse) → Value.isContainer (winner.eval inner) = true →
      node.Fails x line (.containerBranch winner.shown) → Leftover depth ctx block x
  | refused {node : Node} {n : Nat} :
      OccursAt node n block → depth + n = nestingMax → node.Refuses x → Leftover depth ctx block x

theorem Drops.leftover {depth : Nat} {ctx : Context} {block : Block} {x : Suppression} (h : Drops depth ctx block x)
    (legible : block.Legible) : Leftover depth ctx block x := by
  cases h with
  | failed reached fails noted =>
      obtain ⟨c, whenTrue, whenFalse, winner, chooses, same, container, rfl⟩ :=
        (legible _ reached.occurs).chooses fails
      exact .container reached chooses same container noted
  | refused occurs level refuses => exact .refused occurs level refuses

/--
A lenient render of a block and one of the block without its malformed directives end alike: with the same text, or
the same error where the block itself lies too deep, and in the same context. What the second suppresses, and counts,
is only choices whose winner is an array or a mapping and blocks that lie too deep.
-/
theorem render_pruned (depth : Nat) (block : Block) (s : Progress) :
    ∃ result after rest noted,
      Render.block false depth block s = (result, after) ∧ Render.block false depth block.pruned s = (result, rest) ∧
        rest.context = after.context ∧ rest.suppressed = s.suppressed ++ noted ∧
        rest.stats.suppressedErrors = s.stats.suppressedErrors + noted.length ∧
        ∀ x ∈ noted, Leftover depth s.context block.pruned x := by
  by_cases deep : nestingMax < depth
  · obtain ⟨after, ends, here, -⟩ :=
      Render.comesTo_enterBlock_deep deep block (Render.nodes false depth block) s rfl
    obtain ⟨rest, ends', here', notes⟩ :=
      Render.comesTo_enterBlock_deep deep block.pruned (Render.nodes false depth block.pruned) s rfl
    exact ⟨_, after, rest, [], ends, ends', here'.trans here.symm, notes.suppressed, notes.counted, nofun⟩
  · have room : depth ≤ nestingMax := Nat.not_lt.mp deep
    obtain ⟨after, ends, here, -⟩ := Render.gives_block room s.context block s rfl
    obtain ⟨rest, ends', here', notes⟩ := Render.gives_block room s.context block.pruned s rfl
    have text : (Lenient.block depth s.context block.pruned).text = (Lenient.block depth s.context block).text :=
      Lenient.text_block_pruned fun inner => Lenient.text_prunedAll depth inner block
    rw [text] at ends'
    refine ⟨_, after, rest, _, ends, ends', ?_, notes.suppressed, notes.counted, ?_⟩
    · rw [here, here', Context.withBindings_pruned]
    · intro x member
      have drops : Drops depth s.context block.pruned x :=
        Lenient.drops_block (Lenient.drops_nodes room _ block.pruned) member
      exact drops.leftover (Node.legible_prunedAll block)

end TextTemplate
