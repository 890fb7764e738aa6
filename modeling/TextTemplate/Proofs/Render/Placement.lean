import Mathlib.Data.List.Forall2
import TextTemplate.Proofs.Render.Iteration
import TextTemplate.Proofs.Render.Lenient

namespace TextTemplate

mutual

inductive Node.PlacementEq : Node → Node → Prop
  | text {content : Text} : Node.PlacementEq (.text content) (.text content)
  | interpolation {source : Text} {line : Nat} :
      Node.PlacementEq (.interpolation source line) (.interpolation source line)
  | loop {index : Option Text} {item path : Text} {body other : List Node} {line : Nat} :
      Block.PlacementEq body other →
      Node.PlacementEq (.loop index item path body line) (.loop index item path other line)
  | conditional {branches others : List Branch} {line : Nat} :
      Branch.PlacementEq branches others → Node.PlacementEq (.conditional branches line) (.conditional others line)

/-- The same bindings in the same order, and apart from these corresponding nodes. -/
inductive Block.PlacementEq : List Node → List Node → Prop
  | of {block other : List Node} :
      block.filter Node.isBinding = other.filter Node.isBinding →
      Node.Correspond (block.filter (!·.isBinding)) (other.filter (!·.isBinding)) → Block.PlacementEq block other

inductive Node.Correspond : List Node → List Node → Prop
  | nil : Node.Correspond [] []
  | cons {first other : Node} {rest others : List Node} :
      Node.PlacementEq first other → Node.Correspond rest others → Node.Correspond (first :: rest) (other :: others)

inductive Branch.PlacementEq : List Branch → List Branch → Prop
  | nil : Branch.PlacementEq [] []
  | cons {kind : BranchKind} {condition : Option Text} {body other : List Node} {line : Nat} {rest others : List Branch} :
      Block.PlacementEq body other → Branch.PlacementEq rest others →
      Branch.PlacementEq (.mk kind condition body line :: rest) (.mk kind condition other line :: others)

end

namespace Render

theorem bindAll_filter (strict : Bool) (block : Block) :
    bindAll strict (block.filter Node.isBinding) = bindAll strict block := by
  induction block with
  | nil => rfl
  | cons node rest ih =>
      cases node with
      | binding name expression line =>
          rw [List.filter_cons_of_pos rfl, bindAll, bindAll, ih]
      | _ => exact ih

theorem nodes_filter (strict : Bool) (depth : Nat) (block : Block) :
    nodes strict depth (block.filter (!·.isBinding)) = nodes strict depth block := by
  induction block with
  | nil => rfl
  | cons node rest ih =>
      cases node with
      | binding name expression line =>
          rw [List.filter_cons_of_neg Bool.false_ne_true, ih, nodes_binding]
      | _ => rw [List.filter_cons_of_pos rfl, nodes, nodes, ih]

mutual

theorem node_placement (strict : Bool) (depth : Nat) {n n' : Node} :
    n.PlacementEq n' → node strict depth n = node strict depth n'
  | .text => rfl
  | .interpolation => rfl
  | .loop body => by
      have inside := enterBlock_placement strict (depth + 1) body
      rw [node, node, inside]
  | .conditional choices => by rw [node, node, branches_placement strict depth choices]

theorem enterBlock_placement (strict : Bool) (depth : Nat) {block other : List Node} :
    Block.PlacementEq block other →
      enterBlock strict depth block (nodes strict depth block) = enterBlock strict depth other (nodes strict depth other)
  | .of bindings others => by
      rw [enterBlock, enterBlock, ← bindAll_filter strict block, ← nodes_filter strict depth block, bindings]
      rw [nodes_placement strict depth others, bindAll_filter, nodes_filter]

theorem nodes_placement (strict : Bool) (depth : Nat) {block other : List Node} :
    Node.Correspond block other → nodes strict depth block = nodes strict depth other
  | .nil => rfl
  | .cons first rest => by
      rw [nodes, nodes, node_placement strict depth first, nodes_placement strict depth rest]

theorem branches_placement (strict : Bool) (depth : Nat) {choices other : List Branch} :
    Branch.PlacementEq choices other → branches strict depth choices = branches strict depth other
  | .nil => rfl
  | .cons body rest => by
      have inside := enterBlock_placement strict (depth + 1) body
      rw [branches, branches, inside, branches_placement strict depth rest]

end

theorem gives_alone {depth : Nat} (room : depth ≤ nestingMax) {n : Node} (free : n.isBinding = false) (s : Progress) :
    ∃ after, Render.block false depth [n] s = (.ok (Lenient.node depth s.context n).text, after) := by
  obtain ⟨after, ends, -⟩ := gives_block room s.context [n] s rfl
  rw [Lenient.text_block, Context.withBindings_cons _ free, Lenient.text_nodes_single] at ends
  exact ⟨after, ends⟩

theorem text_nodes_filter (depth : Nat) (ctx : Context) (block : Block) :
    (Lenient.nodes depth ctx block).text =
      ((block.filter (!·.isBinding)).map fun n => (Lenient.node depth ctx n).text).flatten := by
  rw [Lenient.text_nodes, ← List.flatMap_def]
  induction block with
  | nil => rfl
  | cons node rest ih =>
      cases node with
      | binding name expression line => exact ih
      | _ => rw [List.filter_cons_of_pos rfl, List.flatMap_cons, List.flatMap_cons, ih]

end Render

open Render

/--
Blocks that are equal up to the placement of bindings render alike, in both modes, at any depth and whatever was
rendered before. The text of a lenient render is that of the nodes other than bindings, one behind the other, as each
renders alone in the context behind all bindings of the block.
-/
theorem block_placement {block other : Block} (same : Block.PlacementEq block other) (strict : Bool) (depth : Nat)
    (s : Progress) :
    Render.block strict depth block s = Render.block strict depth other s ∧
      ∀ output after, Render.block false depth block s = (.ok output, after) →
        ∃ texts, output = texts.flatten ∧
          List.Forall₂
            (fun n text => ∀ t : Progress, t.context = (bindAll false block s).2.context →
              (Render.block false depth [n] t).1 = .ok text)
            (block.filter (!·.isBinding)) texts := by
  have equal : Render.block strict depth block = Render.block strict depth other := enterBlock_placement strict depth same
  refine ⟨congrFun equal s, ?_⟩
  intro output after gives
  by_cases deep : nestingMax < depth
  · obtain ⟨_, fails, -⟩ := comesTo_enterBlock_deep deep block (nodes false depth block) s rfl
    rw [Render.block, fails] at gives
    cases gives
  · -- All bindings are made before the first node is rendered, and no node changes the context.
    have room : depth ≤ nestingMax := Nat.not_lt.mp deep
    obtain ⟨_, ends, -⟩ := gives_block room s.context block s rfl
    obtain ⟨_, bound, behind, -⟩ := comesTo_bindAll block s rfl
    rw [ends] at gives
    obtain ⟨rfl⟩ := gives
    refine ⟨_, text_nodes_filter depth (s.context.withBindings block) block, ?_⟩
    rw [List.forall₂_map_right_iff, List.forall₂_same]
    intro n member t at_
    have free : n.isBinding = false := by simpa using (List.mem_filter.mp member).2
    obtain ⟨_, alone⟩ := gives_alone room free t
    rw [alone, at_, bound, behind]

def salutation : Block :=
  [.text "Dear ".toList, .interpolation "name".toList 1, .binding "name".toList "'Ann'".toList 2]

def salutationBound : Block :=
  [.binding "name".toList "'Ann'".toList 2, .text "Dear ".toList, .interpolation "name".toList 1]

theorem salutation_placement : Block.PlacementEq salutation salutationBound :=
  .of rfl (.cons .text (.cons .interpolation .nil))

theorem block_placement_salutation :
    Block.PlacementEq salutation salutationBound ∧
      (Render.block true 0 salutation (.fresh (.ofRoot []))).1 = .ok "Dear Ann".toList := by
  refine ⟨salutation_placement, ?_⟩
  rw [(block_placement salutation_placement true 0 (.fresh (.ofRoot []))).1]
  rfl

end TextTemplate
