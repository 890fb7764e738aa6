import Mathlib.Data.List.Forall2
import TextTemplate.Proofs.Render.Limit
import TextTemplate.Proofs.Render.Pruning

/-!
# Blocks higher than blocks may be

A block that was not read from a template may be of any height. A lenient render of it is one of the block without the
loops and conditionals that stand inside `nestingMax` others (`Block.truncated`). Those of them that a render comes to
with a body to render (`Block.barred`) are suppressed for their depth, in the order it comes to them, and where nothing
else fails a strict render ends at the first of them (`render_truncated`).
-/

namespace TextTemplate

namespace Node

mutual

/-- What is left of a node without the loops and conditionals inside `levels` others. -/
def truncated (levels : Nat) : Node → List Node
  | loop index item path body line =>
      match levels with
      | 0 => []
      | levels + 1 => [loop index item path (truncatedAll levels body) line]
  | conditional branches line =>
      match levels with
      | 0 => []
      | levels + 1 => [conditional (truncatedBranches levels branches) line]
  | node => [node]

def truncatedAll (levels : Nat) : List Node → List Node
  | [] => []
  | node :: rest => node.truncated levels ++ truncatedAll levels rest

def truncatedBranches (levels : Nat) : List Branch → List Branch
  | [] => []
  | .mk kind condition body line :: rest =>
      .mk kind condition (truncatedAll levels body) line :: truncatedBranches levels rest

end

mutual

/--
The loops and conditionals inside `levels` others that a render comes to with a body to render, in the order it comes to
them: the loops over an array that is not empty, and the conditionals of which a branch is selected.
-/
def barred (levels : Nat) (ctx : Context) : Node → List Node
  | loop index item path body line =>
      match Path.read path with
      | .error _ => []
      | .ok p =>
          match ctx.resolve p with
          | some (.array items) =>
              match levels with
              | 0 => if items.isEmpty then [] else [loop index item path body line]
              | levels + 1 =>
                  (items.mapIdx fun i element =>
                    let inner := Context.ofIteration element item (index.map fun name => (name, i))
                    barredAll levels (inner.withBindings body) body).flatten
          | _ => []
  | conditional branches line => barredBranches levels ctx (conditional branches line) branches
  | _ => []

def barredAll (levels : Nat) (ctx : Context) : List Node → List Node
  | [] => []
  | node :: rest => node.barred levels ctx ++ barredAll levels ctx rest

def barredBranches (levels : Nat) (ctx : Context) (whole : Node) : List Branch → List Node
  | [] => []
  | .mk kind condition body _ :: rest =>
      match ctx.test kind condition with
      | .error _ => []
      | .ok false => barredBranches levels ctx whole rest
      | .ok true =>
          match levels with
          | 0 => [whole]
          | levels + 1 => barredAll levels (ctx.enterBranch.withBindings body) body

end

end Node

open Node

def Block.truncated (levels : Nat) (block : Block) : Block := truncatedAll levels block

def Block.barred (levels : Nat) (ctx : Context) (block : Block) : List Node :=
  barredAll levels (ctx.withBindings block) block

/-! ## Truncated blocks -/

namespace Node

mutual

theorem heights_truncated (levels : Nat) : (n : Node) → heights (n.truncated levels) ≤ levels
  | .text _ => Nat.zero_le _
  | .interpolation _ _ => Nat.zero_le _
  | .binding _ _ _ => Nat.zero_le _
  | .loop index item path body line => by
      cases levels with
      | zero => exact Nat.le_refl 0
      | succ levels =>
          have inside := heights_truncatedAll levels body
          simp [truncated, height, inside]
  | .conditional choices line => by
      cases levels with
      | zero => exact Nat.le_refl 0
      | succ levels =>
          have inside := branchHeights_truncatedBranches levels choices
          simp [truncated, height, inside]

theorem heights_truncatedAll (levels : Nat) : (block : List Node) → heights (truncatedAll levels block) ≤ levels
  | [] => Nat.zero_le _
  | first :: rest => by
      rw [truncatedAll, heights_append]
      exact Nat.max_le.mpr ⟨heights_truncated levels first, heights_truncatedAll levels rest⟩

theorem branchHeights_truncatedBranches (levels : Nat) :
    (choices : List Branch) → branchHeights (truncatedBranches levels choices) ≤ levels
  | [] => Nat.zero_le _
  | .mk _ _ body _ :: rest => by
      rw [truncatedBranches, branchHeights_cons]
      exact Nat.max_le.mpr ⟨heights_truncatedAll levels body, branchHeights_truncatedBranches levels rest⟩

end

end Node

theorem Context.withBindings_truncated (ctx : Context) (levels : Nat) (block : Block) :
    ctx.withBindings (block.truncated levels) = ctx.withBindings block := by
  induction block generalizing ctx with
  | nil => rfl
  | cons node rest ih =>
      have own : ctx.withBindings (node.truncated levels) = ctx.withBindings [node] := by
        cases node <;> cases levels <;> rfl
      rw [Block.truncated, truncatedAll, withBindings_append, own, ← Block.truncated, ih]
      exact (withBindings_append ctx [node] rest).symm

namespace Lenient

section

variable {depth : Nat} {ctx : Context}

theorem text_loop_full (full : nestingMax ≤ depth) (index : Option Text) (item path : Text) (body : Block) (line : Nat) :
    (node depth ctx (.loop index item path body line)).text = [] := by
  rcases read : Path.read path with fault | p
  · rw [node_loop_of_error read]
    rfl
  · rcases ctx.resolves_array_or p with ⟨items, resolves⟩ | other
    · rw [node_loop_of_array read resolves]
      split
      · rfl
      · rename_i fits
        have none : items = [] := Classical.byContradiction fun some_ => fits ⟨full, some_⟩
        subst none
        rfl
    · rw [node_loop_of_other read other]
      rfl

theorem text_branches_full (full : nestingMax ≤ depth) (line : Nat) (choices : List Branch) :
    (branches depth ctx line choices).text = [] := by
  induction choices with
  | nil => rfl
  | cons branch rest ih =>
      obtain ⟨kind, condition, body, place⟩ := branch
      rcases test : ctx.test kind condition with fault | selected
      · rw [branches_of_error test]
        rfl
      · cases selected with
        | false => rw [branches_of_false test, ih]
        | true =>
            rw [branches_of_true test, if_pos full]
            rfl

theorem text_block_truncated {levels : Nat} {body : Block} (inside : ∀ inner : Context,
    (nodes depth inner (truncatedAll levels body)).text = (nodes depth inner body).text) :
    (block depth ctx (truncatedAll levels body)).text = (block depth ctx body).text := by
  rw [text_block, text_block, inside, ← Block.truncated, ctx.withBindings_truncated]

end

-- `levels` is the room that is left: the block that a node stands in lies in `depth` others.
mutual

theorem text_truncated {levels depth : Nat} (room : depth + levels = nestingMax) (ctx : Context) :
    (n : Node) → (nodes depth ctx (n.truncated levels)).text = (node depth ctx n).text
  | .text _ => text_nodes_single _
  | .binding _ _ _ => text_nodes_single _
  | .interpolation _ _ => text_nodes_single _
  | .loop index item path body line => by
      cases levels with
      | zero => exact (text_loop_full (Nat.le_of_eq room.symm) index item path body line).symm
      | succ levels =>
          rw [truncated, text_nodes_single]
          rcases read : Path.read path with fault | p
          · rw [node_loop_of_error read, node_loop_of_error read]
          · rcases ctx.resolves_array_or p with ⟨items, resolves⟩ | other
            · rw [node_loop_of_array read resolves, node_loop_of_array read resolves]
              split
              · rfl
              · apply text_lines_mapIdx
                intro i element
                exact text_block_truncated fun inner => text_truncatedAll (by omega) inner body
            · rw [node_loop_of_other read other, node_loop_of_other read other]
  | .conditional choices line => by
      cases levels with
      | zero => exact (text_branches_full (Nat.le_of_eq room.symm) line choices).symm
      | succ levels =>
          rw [truncated, text_nodes_single]
          exact text_truncatedBranches room ctx line choices

theorem text_truncatedAll {levels depth : Nat} (room : depth + levels = nestingMax) (ctx : Context) :
    (block : List Node) → (nodes depth ctx (truncatedAll levels block)).text = (nodes depth ctx block).text
  | [] => rfl
  | first :: rest => by
      rw [truncatedAll, text_nodes, List.flatMap_append, ← text_nodes, ← text_nodes, text_truncated room ctx first]
      rw [text_truncatedAll room ctx rest]
      rfl

theorem text_truncatedBranches {levels depth : Nat} (room : depth + (levels + 1) = nestingMax) (ctx : Context)
    (line : Nat) :
    (choices : List Branch) →
      (branches depth ctx line (truncatedBranches levels choices)).text = (branches depth ctx line choices).text
  | [] => rfl
  | .mk kind condition body place :: rest => by
      rw [truncatedBranches]
      rcases test : ctx.test kind condition with fault | selected
      · rw [branches_of_error test, branches_of_error test]
      · cases selected with
        | false =>
            rw [branches_of_false test, branches_of_false test]
            exact text_truncatedBranches room ctx line rest
        | true =>
            rw [branches_of_true test, branches_of_true test]
            split
            · rfl
            · exact text_block_truncated fun inner => text_truncatedAll (by omega) inner body

end

end Lenient

/-! ## Directives without room for their bodies -/

def Suppression.isRefusal (x : Suppression) : Bool := x.error = .expression .tooDeep

namespace Node

section

variable {ctx : Context} {whole : Node} {kind : BranchKind} {condition : Option Text}

theorem barredBranches_of_error {fault : ExprFault} (fails : ctx.test kind condition = .error fault) (levels : Nat)
    (body : Block) (place : Nat) (rest : List Branch) :
    barredBranches levels ctx whole (.mk kind condition body place :: rest) = [] := by
  simp [barredBranches, fails]

theorem barredBranches_of_false (passed : ctx.test kind condition = .ok false) (levels : Nat) (body : Block)
    (place : Nat) (rest : List Branch) :
    barredBranches levels ctx whole (.mk kind condition body place :: rest) = barredBranches levels ctx whole rest := by
  cases levels <;> simp [barredBranches, passed]

theorem barredBranches_of_true (selected : ctx.test kind condition = .ok true) (levels : Nat) (body : Block)
    (place : Nat) (rest : List Branch) :
    barredBranches levels ctx whole (.mk kind condition body place :: rest) =
      match levels with
      | 0 => [whole]
      | levels + 1 => Block.barred levels ctx.enterBranch body := by
  cases levels <;> simp [barredBranches, selected, Block.barred]

end

mutual

theorem occursAt_barred {levels : Nat} {ctx : Context} {other : Node} :
    (n : Node) → other ∈ n.barred levels ctx → OccursAt other levels [n]
  | .text _, member => nomatch member
  | .binding _ _ _, member => nomatch member
  | .interpolation _ _, member => nomatch member
  | .loop index item path body line, member => by
      rw [barred] at member
      split at member
      · cases member
      · split at member
        · split at member
          · split at member
            · cases member
            · exact .here member
          · obtain ⟨part, among, inside⟩ := List.mem_flatten.mp member
            obtain ⟨i, bound, rfl⟩ := List.mem_mapIdx.mp among
            exact .body List.mem_cons_self (occursAt_barredAll body inside)
        · cases member
  | .conditional choices line, member =>
      occursAt_barredBranches choices (fun _ _ _ _ among => among) member

theorem occursAt_barredAll {levels : Nat} {ctx : Context} {other : Node} :
    (block : List Node) → other ∈ barredAll levels ctx block → OccursAt other levels block
  | [], member => nomatch member
  | first :: rest, member => by
      rw [barredAll] at member
      rcases List.mem_append.mp member with own | later
      · exact (occursAt_barred first own).mono (List.cons_subset.mpr ⟨List.mem_cons_self, List.nil_subset _⟩)
      · exact (occursAt_barredAll rest later).mono (List.subset_cons_self first rest)

theorem occursAt_barredBranches {levels : Nat} {ctx : Context} {other : Node} {whole : List Branch} {line : Nat} :
    (choices : List Branch) →
      (∀ kind condition body place, .mk kind condition body place ∈ choices → .mk kind condition body place ∈ whole) →
      other ∈ barredBranches levels ctx (.conditional whole line) choices →
      OccursAt other levels [.conditional whole line]
  | [], _, member => nomatch member
  | .mk kind condition body place :: rest, part, member => by
      rcases test : ctx.test kind condition with fault | selected
      · rw [barredBranches_of_error test] at member
        cases member
      · cases selected with
        | false =>
            rw [barredBranches_of_false test] at member
            exact occursAt_barredBranches rest (fun _ _ _ _ among => part _ _ _ _ (.tail _ among)) member
        | true =>
            rw [barredBranches_of_true test] at member
            cases levels with
            | zero => exact .here member
            | succ levels =>
                exact .branch List.mem_cons_self (part _ _ _ _ List.mem_cons_self) (occursAt_barredAll body member)

end

end Node

namespace Lenient

theorem refusals_unbound (ctx : Context) (block : Block) : (ctx.unbound block).filter Suppression.isRefusal = [] := by
  rw [List.filter_eq_nil_iff]
  intro x member refusal
  obtain ⟨before, name, expression, line, after, fault, rfl, fails, rfl⟩ := exists_of_mem_unbound member
  obtain rfl : fault = .tooDeep := by simpa [Suppression.isRefusal] using refusal
  exact bind_ne_tooDeep (Expr.read_ne_tooDeep _) (Expr.value_ne_tooDeep _) fails

theorem refusals_block {depth : Nat} {ctx : Context} {body : Block} :
    (block depth ctx body).suppressed.filter Suppression.isRefusal =
      (nodes depth (ctx.withBindings body) body).suppressed.filter Suppression.isRefusal := by
  rw [block, Outcome.append, List.filter_append, refusals_unbound, List.nil_append]

theorem refusals_lines {f : Nat → Value → List Node} {g : Nat → Value → Outcome}
    (each : ∀ i element, List.Forall₂ Node.Refuses (f i element) ((g i element).suppressed.filter Suppression.isRefusal))
    (items : List Value) :
    List.Forall₂ Node.Refuses (items.mapIdx f).flatten
      ((Outcome.lines (items.mapIdx g)).suppressed.filter Suppression.isRefusal) := by
  rw [Outcome.lines]
  induction items generalizing f g with
  | nil => exact .nil
  | cons element rest ih =>
      rw [List.mapIdx_cons, List.mapIdx_cons, List.flatten_cons, List.flatMap_cons, List.filter_append]
      exact List.rel_append (each 0 element) (ih fun i => each (i + 1))

mutual

theorem refusals_node {levels depth : Nat} (room : depth + levels = nestingMax) (ctx : Context) :
    (n : Node) → List.Forall₂ Node.Refuses (n.barred levels ctx)
      ((node depth ctx n).suppressed.filter Suppression.isRefusal)
  | .text _ => .nil
  | .binding _ _ _ => .nil
  | .interpolation source line => by
      rcases shows : (do (← Expr.read source).render ctx) with fault | t
      · rw [node_interpolation_of_error shows]
        have other : fault ≠ .tooDeep := by
          rintro rfl
          exact bind_ne_tooDeep (Expr.read_ne_tooDeep _) (Expr.render_ne_tooDeep _) shows
        simp [Outcome.failed, Suppression.isRefusal, other, barred]
      · rw [node_interpolation_of_ok shows]
        exact .nil
  | .loop index item path body line => by
      rcases read : Path.read path with fault | p
      · have other : fault ≠ .tooDeep := by
          rintro rfl
          exact Path.read_ne_tooDeep _ read
        rw [node_loop_of_error read, barred, read]
        simp [Outcome.failed, Suppression.isRefusal, other]
      · rcases ctx.resolves_array_or p with ⟨items, resolves⟩ | other
        · rw [node_loop_of_array read resolves, barred, read]
          dsimp only
          rw [resolves]
          cases levels with
          | zero =>
              -- A loop over nothing never comes to its body, so there is nothing to refuse.
              cases items with
              | nil =>
                  rw [if_neg fun full => full.2 rfl]
                  exact .nil
              | cons element rest =>
                  rw [if_pos ⟨Nat.le_of_eq room.symm, List.cons_ne_nil element rest⟩]
                  exact .cons .loop .nil
          | succ levels =>
              have fits : ¬ (nestingMax ≤ depth ∧ items ≠ []) := fun full => absurd full.1 (by omega)
              rw [if_neg fits]
              apply refusals_lines
              intro i element
              rw [refusals_block]
              exact refusals_nodes (by omega) _ body
        · rw [node_loop_of_other read other, barred, read]
          dsimp only
          split
          · exact absurd ‹_› (other _)
          · exact .nil
  | .conditional choices line => refusals_branches room ctx choices line choices

theorem refusals_nodes {levels depth : Nat} (room : depth + levels = nestingMax) (ctx : Context) :
    (block : List Node) → List.Forall₂ Node.Refuses (barredAll levels ctx block)
      ((nodes depth ctx block).suppressed.filter Suppression.isRefusal)
  | [] => .nil
  | first :: rest => by
      rw [nodes_cons, Outcome.append, List.filter_append]
      exact List.rel_append (refusals_node room ctx first) (refusals_nodes room ctx rest)

theorem refusals_branches {levels depth : Nat} (room : depth + levels = nestingMax) (ctx : Context)
    (whole : List Branch) (line : Nat) :
    (choices : List Branch) → List.Forall₂ Node.Refuses (barredBranches levels ctx (.conditional whole line) choices)
      ((branches depth ctx line choices).suppressed.filter Suppression.isRefusal)
  | [] => .nil
  | .mk kind condition body place :: rest => by
      rcases test : ctx.test kind condition with fault | selected
      · rw [branches_of_error test, barredBranches_of_error test]
        exact .nil
      · cases selected with
        | false =>
            rw [branches_of_false test, barredBranches_of_false test]
            exact refusals_branches room ctx whole line rest
        | true =>
            rw [branches_of_true test, barredBranches_of_true test]
            cases levels with
            | zero =>
                have full : nestingMax ≤ depth := Nat.le_of_eq room.symm
                rw [if_pos full]
                exact .cons .conditional .nil
            | succ levels =>
                rw [if_neg (by omega), refusals_block]
                exact refusals_nodes (by omega) _ body

end

end Lenient

/--
A lenient render of any block gives a text, and it is the text of the block without the loops and conditionals inside
`nestingMax` others, rendered into the same bindings; nothing in what is left lies too deep. What is suppressed for its
depth is, one by one, those of these directives that the render comes to with a body to render. If nothing else is
suppressed, a strict render ends at the first of them with its line, and where there is none it does the same as the
lenient render.
-/
theorem render_truncated (block : Block) (s : Progress) :
    ∃ text after rest noted,
      Render.block false 0 block s = (.ok text, after) ∧
      Render.block false 0 (block.truncated nestingMax) s = (.ok text, rest) ∧ rest.context = after.context ∧
      Node.heights (block.truncated nestingMax) ≤ nestingMax ∧
      after.suppressed = s.suppressed ++ noted ∧
      List.Forall₂ Node.Refuses (block.barred nestingMax s.context) (noted.filter Suppression.isRefusal) ∧
      ((∀ x ∈ noted, x.isRefusal = true) →
        (block.barred nestingMax s.context = [] → Render.block true 0 block s = (.ok text, after)) ∧
        ∀ first more, block.barred nestingMax s.context = first :: more →
          OccursAt first nestingMax block ∧ ∃ line kind stopped, first.Refuses ⟨line, kind, .expression .tooDeep⟩ ∧
            Render.block true 0 block s = (.error (.directive line .tooDeep), stopped)) := by
  obtain ⟨after, ends, here, notes⟩ := Render.gives_block (Nat.zero_le _) s.context block s rfl
  obtain ⟨rest, ends', here', -⟩ :=
    Render.gives_block (Nat.zero_le _) s.context (block.truncated nestingMax) s rfl
  have text : (Lenient.block 0 s.context (block.truncated nestingMax)).text = (Lenient.block 0 s.context block).text :=
    Lenient.text_block_truncated fun inner => Lenient.text_truncatedAll (Nat.zero_add _) inner block
  have refusals : List.Forall₂ Node.Refuses (block.barred nestingMax s.context)
      ((Lenient.block 0 s.context block).suppressed.filter Suppression.isRefusal) := by
    rw [Lenient.refusals_block]
    exact Lenient.refusals_nodes (Nat.zero_add _) _ block
  rw [text] at ends'
  refine ⟨_, after, rest, _, ends, ends', ?_, heights_truncatedAll nestingMax block, notes.suppressed, refusals, ?_⟩
  · rw [here, here', Context.withBindings_truncated]
  · intro only
    obtain ⟨added, notes', -, agrees⟩ := Render.follows_entered (Nat.zero_le _) block s
    rw [ends] at notes' agrees
    have same : added = (Lenient.block 0 s.context block).suppressed :=
      List.append_cancel_left (notes'.suppressed.symm.trans notes.suppressed)
    rw [List.filter_eq_self.mpr only, ← same] at refusals
    constructor
    · intro none
      rw [none] at refusals
      cases refusals
      exact agrees
    · intro first more some
      have member : first ∈ block.barred nestingMax s.context := some ▸ List.mem_cons_self
      refine ⟨occursAt_barredAll block member, ?_⟩
      rw [some] at refusals
      cases refusals with
      | cons refuses _ =>
          rcases strict : Render.block true 0 block s with ⟨stopped, left⟩
          rw [strict] at agrees
          cases refuses <;> exact ⟨_, _, left, by constructor, congrArg (·, left) agrees⟩

end TextTemplate
