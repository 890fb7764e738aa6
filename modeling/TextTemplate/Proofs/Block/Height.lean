import TextTemplate.Proofs.Block.Reading

namespace TextTemplate
open Token

namespace Node

mutual

def height : Node → Nat
  | text _ => 0
  | interpolation _ _ => 0
  | binding _ _ _ => 0
  | loop _ _ _ body _ => heights body + 1
  | conditional branches _ => branchHeights branches + 1

def heights : List Node → Nat
  | [] => 0
  | node :: rest => max node.height (heights rest)

def branchHeights : List Branch → Nat
  | [] => 0
  | .mk _ _ body _ :: rest => max (heights body) (branchHeights rest)

end

@[simp] theorem heights_nil : heights [] = 0 := rfl

@[simp] theorem heights_cons (node : Node) (rest : List Node) :
    heights (node :: rest) = max node.height (heights rest) := rfl

@[simp] theorem heights_append (block more : List Node) :
    heights (block ++ more) = max (heights block) (heights more) := by
  induction block with
  | nil => simp
  | cons node rest ih => rw [List.cons_append, heights_cons, ih, heights_cons, Nat.max_assoc]

@[simp] theorem heights_reverse (block : List Node) : heights block.reverse = heights block := by
  induction block with
  | nil => rfl
  | cons node rest ih => simp [ih, Nat.max_comm]

@[simp] theorem branchHeights_nil : branchHeights [] = 0 := rfl

@[simp] theorem branchHeights_cons (kind : BranchKind) (condition : Option Text) (body : Block) (line : Nat)
    (rest : List Branch) :
    branchHeights (.mk kind condition body line :: rest) = max (heights body) (branchHeights rest) := rfl

@[simp] theorem branchHeights_append (branches more : List Branch) :
    branchHeights (branches ++ more) = max (branchHeights branches) (branchHeights more) := by
  induction branches with
  | nil => simp
  | cons branch rest ih =>
      obtain ⟨kind, condition, body, line⟩ := branch
      rw [List.cons_append, branchHeights_cons, ih, branchHeights_cons, Nat.max_assoc]

theorem branchHeights_reverse (branches : List Branch) :
    branchHeights branches.reverse = branchHeights branches := by
  induction branches with
  | nil => rfl
  | cons branch rest ih =>
      obtain ⟨kind, condition, body, line⟩ := branch
      simp [ih, Nat.max_comm]

end Node

namespace Builder
open Node

@[simp] theorem heights_pushText (t : Text) (nodes : List Node) : heights (pushText t nodes) = heights nodes := by
  unfold pushText
  split
  · rfl
  · split <;> simp [height]

theorem heights_trimNode (change : Text → Text) (node : Node) : heights (trimNode change node) = node.height := by
  cases node with
  | text t =>
      rw [trimNode]
      split <;> simp [height]
  | _ => simp [trimNode]

theorem heights_trimFirst (nodes : List Node) : heights (trimFirst nodes) = heights nodes := by
  cases nodes <;> simp [trimFirst, heights_trimNode]

theorem heights_trimLast (nodes : List Node) : heights (trimLast nodes) = heights nodes := by
  cases nodes <;> simp [trimLast, heights_trimNode]

theorem heights_loopBody (nodes : List Node) : heights (loopBody nodes) = heights nodes := by
  unfold loopBody
  split
  · simp [heights_trimNode, height]
  · rw [heights_trimFirst, heights_reverse, heights_trimLast]

end Builder

def OpenDirective.height : OpenDirective → Nat
  | .loop _ _ _ => 0
  | .chain finished _ _ _ => Node.branchHeights finished

namespace Builder
open Node

def Roomy : List Level → Prop
  | [] => True
  | ⟨directive, _, before⟩ :: outer =>
      outer.length + heights before ≤ nestingMax ∧ outer.length + 1 + directive.height ≤ nestingMax ∧ Roomy outer

structure Shallow (b : Builder) : Prop where
  nodes : b.levels.length + heights b.nodes ≤ nestingMax
  levels : Roomy b.levels

theorem accept_shallow {b : Builder} {token : Token} {closed : Bool} (fine : b.problem? closed token.lexeme = none)
    (h : b.Shallow) : (b.accept token).Shallow := by
  obtain ⟨l, position, raw⟩ := token
  obtain ⟨nodes, levels, demoted⟩ := b
  obtain ⟨room, roomy⟩ := h
  cases l with
  | text content => exact ⟨by simpa [accept] using room, roomy⟩
  | interpolation source => exact ⟨by simpa [accept, push, height] using room, roomy⟩
  | binding name expression => exact ⟨by simpa [accept, push, height] using room, roomy⟩
  | endOfText => exact ⟨room, roomy⟩
  | forOpen index item path =>
      -- The new block is empty, and what the block around it holds becomes what stands before the directive.
      obtain ⟨-, more, -⟩ := accept_opening rfl fine
      exact ⟨more, room, more, roomy⟩
  | ifOpen condition =>
      obtain ⟨-, more, -⟩ := accept_opening rfl fine
      exact ⟨more, room, more, roomy⟩
  | _ =>
      rcases levels with _ | ⟨⟨directive | directive, opening, before⟩, outer⟩ <;> try cases fine
      all_goals
        obtain ⟨outside, inside, roomy⟩ := roomy
        simp only [List.length_cons, OpenDirective.height] at room inside
        refine ⟨?_, ?_⟩ <;>
          simp [accept, leave, nextBranch, Roomy, OpenDirective.height, height, heights_loopBody, branchHeights_reverse,
            roomy] <;> omega

theorem step_shallow {strict closed : Bool} {b c : Builder} {token : Token}
    (taken : b.step strict token closed = .ok c) (h : b.Shallow) : c.Shallow := by
  rcases step_eq_ok.mp taken with ⟨fine, rfl⟩ | ⟨problem, -, -, rfl⟩
  · exact accept_shallow fine h
  · exact ⟨by simpa [demote] using h.nodes, h.levels⟩

theorem Reads.shallow {strict : Bool} {b c : Builder} {tokens left : List Token}
    (run : Reads strict b tokens c left) (h : b.Shallow) : c.Shallow := by
  induction run with
  | refl => exact h
  | step taken _ ih => exact ih (step_shallow taken h)

end Builder

theorem ofTokens_heights {strict : Bool} {tokens : List Token} {block : Block} {demoted : List Demotion}
    (parsed : Block.ofTokens strict tokens = .ok (block, demoted)) : Node.heights block ≤ nestingMax := by
  obtain ⟨c, run, rfl, -⟩ := Block.ofTokens_eq_ok.mp parsed
  have shallow := run.shallow ⟨Nat.zero_le _, trivial⟩
  rw [Node.heights_reverse]
  exact Nat.le_trans (Nat.le_add_left _ _) shallow.nodes

end TextTemplate
