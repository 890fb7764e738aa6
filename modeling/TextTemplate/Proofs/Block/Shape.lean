import TextTemplate.Proofs.Block.Lossless
import TextTemplate.Proofs.Block.Print

namespace TextTemplate
open Token

namespace Block

/-- A block that lies in `depth` directives is in order, and so are all blocks inside it. -/
inductive WellShaped : (depth : Nat) → Block → Prop
  | intro {depth : Nat} {block : Block} :
      Tidy block → depth ≤ nestingMax →
      (∀ branches line, .conditional branches line ∈ block → WholeBranches branches) →
      (∀ index item path body line, .loop index item path body line ∈ block → WellShaped (depth + 1) body) →
      (∀ branches line kind condition body place, .conditional branches line ∈ block →
        .mk kind condition body place ∈ branches → WellShaped (depth + 1) body) →
      WellShaped depth block

namespace Tidy

variable {node : Node} {nodes : List Node}

theorem reverse (h : Tidy nodes) : Tidy nodes.reverse where
  full := fun node member => h.full node (List.mem_reverse.mp member)
  apart := h.apart.reverse

theorem trimNode (h : Tidy (node :: nodes)) (change : Text → Text) : Tidy (Builder.trimNode change node ++ nodes) := by
  cases node with
  | text t =>
      by_cases empty : change t = []
      · simpa [Builder.trimNode, empty] using h.tail
      · have differ : ∀ u after, nodes ≠ .text u :: after := fun u after same => h.apart [] t u after (by simp [same])
        simpa [Builder.trimNode, empty] using h.tail.text empty differ
  | _ => exact h

end Tidy

namespace WellShaped

variable {depth : Nat} {node : Node} {nodes more : List Node}

theorem tidy (h : WellShaped depth nodes) : Tidy nodes := by
  cases h
  assumption

theorem room (h : WellShaped depth nodes) : depth ≤ nestingMax := by
  cases h
  assumption

theorem nil (room : depth ≤ nestingMax) : WellShaped depth [] := .intro .nil room nofun nofun nofun

theorem of_directives (h : WellShaped depth nodes) (tidy : Tidy more)
    (part : ∀ node ∈ more, node.isDirective = true → node ∈ nodes) : WellShaped depth more := by
  obtain ⟨-, room, whole, loops, bodies⟩ := h
  exact .intro tidy room (fun branches line member => whole branches line (part _ member rfl))
    (fun index item path body line member => loops index item path body line (part _ member rfl))
    fun branches line kind condition body place member =>
      bodies branches line kind condition body place (part _ member rfl)

theorem reverse (h : WellShaped depth nodes) : WellShaped depth nodes.reverse :=
  h.of_directives h.tidy.reverse fun _ member _ => List.mem_reverse.mp member

theorem text (room : depth ≤ nestingMax) {t : Text} (full : t ≠ []) : WellShaped depth [.text t] :=
  (nil room).of_directives (Tidy.nil.text full (by simp)) fun node member directive => by
    rw [List.mem_singleton.mp member] at directive
    cases directive

theorem pushText (h : WellShaped depth nodes) (t : Text) : WellShaped depth (Builder.pushText t nodes) := by
  refine h.of_directives (h.tidy.pushText t) fun node member directive => ?_
  unfold Builder.pushText at member
  split at member
  · exact member
  · split at member <;> rcases List.mem_cons.mp member with rfl | member
    · cases directive
    · exact .tail _ member
    · cases directive
    · exact member

theorem trimNode (h : WellShaped depth (node :: nodes)) (change : Text → Text) :
    WellShaped depth (Builder.trimNode change node ++ nodes) := by
  refine h.of_directives (h.tidy.trimNode change) fun other member directive => ?_
  rcases List.mem_append.mp member with member | member
  · cases node with
    | text t =>
        rw [Builder.trimNode] at member
        split at member
        · cases member
        · rw [List.mem_singleton.mp member] at directive
          cases directive
    | _ => exact List.mem_append_left _ member
  · exact .tail _ member

theorem trimFirst (h : WellShaped depth nodes) : WellShaped depth (Builder.trimFirst nodes) := by
  cases nodes with
  | nil => exact h
  | cons node rest => exact h.trimNode _

theorem trimLast (h : WellShaped depth nodes) : WellShaped depth (Builder.trimLast nodes) := by
  cases nodes with
  | nil => exact h
  | cons node rest => exact h.trimNode _

theorem loopBody (h : WellShaped depth nodes) : WellShaped depth (Builder.loopBody nodes) := by
  unfold Builder.loopBody
  split
  case h_1 t =>
    by_cases empty : t.dropFirstBreak.dropLastBreak = []
    · simpa [Builder.trimNode, empty] using nil h.room
    · simpa [Builder.trimNode, empty] using text h.room empty
  case h_2 => exact h.trimLast.reverse.trimFirst

theorem cons (h : WellShaped depth nodes) (own : WellShaped depth [node]) (directive : node.isDirective = true) :
    WellShaped depth (node :: nodes) := by
  obtain ⟨tidy, room, whole, loops, bodies⟩ := h
  obtain ⟨-, -, whole', loops', bodies'⟩ := own
  refine .intro (tidy.directive directive) room ?_ ?_ ?_
  · intro branches line member
    rcases List.mem_cons.mp member with rfl | member
    · exact whole' branches line List.mem_cons_self
    · exact whole branches line member
  · intro index item path body line member
    rcases List.mem_cons.mp member with rfl | member
    · exact loops' index item path body line List.mem_cons_self
    · exact loops index item path body line member
  · intro branches line kind condition body place member
    rcases List.mem_cons.mp member with rfl | member
    · exact bodies' branches line kind condition body place List.mem_cons_self
    · exact bodies branches line kind condition body place member

theorem leaf (room : depth ≤ nestingMax) (directive : node.isDirective = true)
    (bare : ∀ index item path body line, node ≠ .loop index item path body line)
    (single : ∀ branches line, node ≠ .conditional branches line) : WellShaped depth [node] :=
  .intro (Tidy.nil.directive directive) room
    (fun branches line member => absurd (List.mem_singleton.mp member).symm (single branches line))
    (fun index item path body line member => absurd (List.mem_singleton.mp member).symm (bare index item path body line))
    fun branches line _ _ _ _ member => absurd (List.mem_singleton.mp member).symm (single branches line)

theorem loop {body : Block} (inside : WellShaped (depth + 1) body) (index : Option Text) (item path : Text)
    (line : Nat) : WellShaped depth [.loop index item path body line] := by
  refine .intro (Tidy.nil.directive rfl) (Nat.le_of_succ_le inside.room) (by simp) ?_ (by simp)
  intro index' item' path' body' line' member
  cases List.mem_singleton.mp member
  exact inside

theorem conditional {branches : List Branch} (room : depth ≤ nestingMax) (whole : WholeBranches branches)
    (inside : ∀ kind condition body place, .mk kind condition body place ∈ branches → WellShaped (depth + 1) body)
    (line : Nat) : WellShaped depth [.conditional branches line] := by
  refine .intro (Tidy.nil.directive rfl) room ?_ (by simp) ?_
  · intro branches' line' member
    cases List.mem_singleton.mp member
    exact whole
  · intro branches' line' kind condition body place member
    cases List.mem_singleton.mp member
    exact inside kind condition body place

end WellShaped

end Block

open Block

def OpenDirective.Shaped (depth : Nat) : OpenDirective → Prop
  | .loop _ _ _ => True
  | .chain finished kind condition line =>
      (∀ body more, FurtherBranches more → (kind = .otherwise → more = []) →
        WholeBranches (finished.reverse ++ .mk kind condition body line :: more)) ∧
      ∀ kind condition body place, .mk kind condition body place ∈ finished → WellShaped (depth + 1) body

namespace Builder

def ShapedLevels : List Level → Prop
  | [] => True
  | ⟨directive, _, before⟩ :: outer =>
      WellShaped outer.length before ∧ directive.Shaped outer.length ∧ ShapedLevels outer

structure Shaped (b : Builder) : Prop where
  nodes : WellShaped b.levels.length b.nodes
  levels : ShapedLevels b.levels

section

variable {depth : Nat} {finished : List Branch} {kind : BranchKind} {condition : Option Text} {line : Nat}
  {body : Block}

theorem shaped_first (condition : Text) (line depth : Nat) :
    (OpenDirective.chain [] .first (some condition) line).Shaped depth :=
  ⟨fun _ _ further _ => .first further, nofun⟩

theorem shaped_next (h : (OpenDirective.chain finished kind condition line).Shaped depth)
    (inside : WellShaped (depth + 1) body) (early : kind ≠ .otherwise) {kind' : BranchKind} {condition' : Option Text}
    {line' : Nat} (further : ∀ body' more, FurtherBranches more → (kind' = .otherwise → more = []) →
      FurtherBranches (.mk kind' condition' body' line' :: more)) :
    (OpenDirective.chain (.mk kind condition body line :: finished) kind' condition' line').Shaped depth := by
  obtain ⟨whole, bodies⟩ := h
  constructor
  · intro body' more rest last
    rw [List.reverse_cons, List.append_assoc]
    exact whole body _ (further body' more rest last) fun stops => absurd stops early
  · intro kind condition body place member
    rcases List.mem_cons.mp member with same | member
    · cases same
      exact inside
    · exact bodies kind condition body place member

theorem shaped_conditional (h : (OpenDirective.chain finished kind condition line).Shaped depth)
    (inside : WellShaped (depth + 1) body) (place : Nat) :
    WellShaped depth [.conditional (.mk kind condition body line :: finished).reverse place] := by
  obtain ⟨whole, bodies⟩ := h
  refine .conditional (Nat.le_of_succ_le inside.room) ?_ ?_ place
  · rw [List.reverse_cons]
    exact whole body [] .nil fun _ => rfl
  · intro kind condition body place member
    rcases List.mem_cons.mp (List.mem_reverse.mp member) with same | member
    · cases same
      exact inside
    · exact bodies kind condition body place member

end

theorem accept_shaped {b : Builder} {token : Token} {closed : Bool} (fine : b.problem? closed token.lexeme = none)
    (h : b.Shaped) : (b.accept token).Shaped := by
  obtain ⟨l, position, raw⟩ := token
  obtain ⟨nodes, levels, demoted⟩ := b
  obtain ⟨inside, around⟩ := h
  cases l with
  | text content => exact ⟨inside.pushText content, around⟩
  | interpolation source => exact ⟨inside.cons (.leaf inside.room rfl nofun nofun) rfl, around⟩
  | binding name expression => exact ⟨inside.cons (.leaf inside.room rfl nofun nofun) rfl, around⟩
  | endOfText => exact ⟨inside, around⟩
  | forOpen index item path =>
      obtain ⟨-, more, -⟩ := accept_opening rfl fine
      exact ⟨.nil more, inside, trivial, around⟩
  | ifOpen condition =>
      obtain ⟨-, more, -⟩ := accept_opening rfl fine
      exact ⟨.nil more, inside, shaped_first condition position.line _, around⟩
  | forClose =>
      rcases levels with _ | ⟨⟨directive | directive, opening, before⟩, outer⟩ <;> try cases fine
      obtain ⟨outside, -, around⟩ := around
      exact ⟨outside.cons (inside.loopBody.loop _ _ _ _) rfl, around⟩
  | ifClose =>
      rcases levels with _ | ⟨⟨directive | directive, opening, before⟩, outer⟩ <;> try cases fine
      obtain ⟨outside, chain, around⟩ := around
      exact ⟨outside.cons (shaped_conditional chain inside.reverse _) rfl, around⟩
  | elseIf condition =>
      rcases levels with _ | ⟨⟨directive | ⟨finished, kind, condition', line⟩, opening, before⟩, outer⟩ <;>
        try cases fine
      obtain ⟨outside, chain, around⟩ := around
      -- Behind a last branch the tag is a problem, which `fine` rules out.
      have early : kind ≠ .otherwise := by
        rintro rfl
        cases fine
      refine ⟨.nil inside.room, outside, ?_, around⟩
      exact shaped_next chain inside.reverse early fun _ _ further _ => .elseIf further
  | otherwise =>
      rcases levels with _ | ⟨⟨directive | ⟨finished, kind, condition', line⟩, opening, before⟩, outer⟩ <;>
        try cases fine
      obtain ⟨outside, chain, around⟩ := around
      have early : kind ≠ .otherwise := by
        rintro rfl
        cases fine
      refine ⟨.nil inside.room, outside, ?_, around⟩
      refine shaped_next chain inside.reverse early fun _ more _ last => ?_
      rw [last rfl]
      exact .otherwise

theorem step_shaped {strict closed : Bool} {b c : Builder} {token : Token}
    (taken : b.step strict token closed = .ok c) (h : b.Shaped) : c.Shaped := by
  rcases step_eq_ok.mp taken with ⟨fine, rfl⟩ | ⟨problem, -, -, rfl⟩
  · exact accept_shaped fine h
  · exact ⟨h.nodes.pushText token.raw, h.levels⟩

theorem Reads.shaped {strict : Bool} {b c : Builder} {tokens left : List Token}
    (run : Reads strict b tokens c left) (h : b.Shaped) : c.Shaped := by
  induction run with
  | refl => exact h
  | step taken _ ih => exact ih (step_shaped taken h)

end Builder

theorem ofTokens_shaped {strict : Bool} {tokens : List Token} {block : Block} {demoted : List Demotion}
    (parsed : Block.ofTokens strict tokens = .ok (block, demoted)) : WellShaped 0 block := by
  obtain ⟨c, run, rfl, -⟩ := Block.ofTokens_eq_ok.mp parsed
  have shaped : c.Shaped := run.shaped ⟨.nil (Nat.zero_le _), trivial⟩
  have atTop : c.levels = [] := run.levels_eq_nil rfl
  have nodes := shaped.nodes
  rw [atTop] at nodes
  exact nodes.reverse

end TextTemplate
