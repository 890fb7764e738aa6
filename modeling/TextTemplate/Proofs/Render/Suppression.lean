import TextTemplate.Proofs.Render.Lenient

namespace TextTemplate

inductive OccursAt (node : Node) : Nat → Block → Prop
  | here {block : Block} : node ∈ block → OccursAt node 0 block
  | body {n : Nat} {block body : Block} {index : Option Text} {item path : Text} {line : Nat} :
      .loop index item path body line ∈ block → OccursAt node n body → OccursAt node (n + 1) block
  | branch {n : Nat} {block body : Block} {branches : List Branch} {kind : BranchKind} {condition : Option Text}
      {line place : Nat} :
      .conditional branches line ∈ block → .mk kind condition body place ∈ branches → OccursAt node n body →
      OccursAt node (n + 1) block

inductive Node.Refuses : Node → Suppression → Prop
  | loop {index : Option Text} {item path : Text} {body : Block} {line : Nat} :
      Refuses (.loop index item path body line) ⟨line, .loop, .expression .tooDeep⟩
  | conditional {branches : List Branch} {line : Nat} :
      Refuses (.conditional branches line) ⟨line, .conditional, .expression .tooDeep⟩

/-- What a lenient render of a block in a context, inside `depth` others, can suppress. -/
inductive Drops (depth : Nat) (ctx : Context) (block : Block) (x : Suppression) : Prop
  | failed {inner : Context} {node : Node} {line : Nat} {fault : ExprFault} :
      Reaches ctx block inner node → node.FailsIn inner line fault → node.Fails x line fault → Drops depth ctx block x
  | refused {node : Node} {n : Nat} :
      OccursAt node n block → depth + n = nestingMax → node.Refuses x → Drops depth ctx block x

theorem OccursAt.mono {node : Node} {n : Nat} {block more : Block} (h : OccursAt node n block) (part : block ⊆ more) :
    OccursAt node n more := by
  cases h with
  | here member => exact .here (part member)
  | body member inside => exact .body (part member) inside
  | branch member choice inside => exact .branch (part member) choice inside

namespace Drops

variable {depth : Nat} {ctx : Context} {x : Suppression}

theorem of_mem {block : Block} {node : Node} (h : Drops depth (ctx.withBindings block) [node] x)
    (member : node ∈ block) (free : node.isBinding = false) : Drops depth ctx block x := by
  cases h with
  | failed reached fails noted => exact .failed (reached.of_mem member free) fails noted
  | refused occurs level refuses =>
      exact .refused (occurs.mono (List.cons_subset.mpr ⟨member, List.nil_subset _⟩)) level refuses

theorem own {node : Node} {line : Nat} {fault : ExprFault} (fails : node.FailsIn ctx line fault)
    (noted : node.Fails x line fault) (free : node.isBinding = false) : Drops depth ctx [node] x := by
  have reached : Reaches ctx [node] (ctx.withBindings [node]) node := .own List.mem_cons_self free
  rw [Context.withBindings_cons _ free] at reached
  exact .failed reached fails noted

theorem element {index : Option Text} {item path : Text} {body : Block} {line : Nat} {p : Path} {items : List Value}
    {i : Nat} {element : Value} (read : Path.read path = .ok p) (resolves : ctx.resolve p = some (.array items))
    (at_ : items[i]? = some element)
    (h : Drops (depth + 1) (.ofIteration element item (index.map fun name => (name, i))) body x) :
    Drops depth ctx [.loop index item path body line] x := by
  cases h with
  | failed reached fails noted => exact .failed (.element List.mem_cons_self read resolves at_ reached) fails noted
  | refused occurs level refuses => exact .refused (.body List.mem_cons_self occurs) (by omega) refuses

theorem branch {choices : List Branch} {line : Nat} {kind : BranchKind} {condition : Option Text} {body : Block}
    {place : Nat} (member : .mk kind condition body place ∈ choices) (chosen : ctx.selected? choices = some body)
    (h : Drops (depth + 1) ctx.enterBranch body x) : Drops depth ctx [.conditional choices line] x := by
  cases h with
  | failed reached fails noted => exact .failed (.branch List.mem_cons_self chosen reached) fails noted
  | refused occurs level refuses => exact .refused (.branch List.mem_cons_self member occurs) (by omega) refuses

end Drops

inductive DropsIn (depth : Nat) (ctx : Context) (line : Nat) (choices : List Branch) (x : Suppression) : Prop
  | misread {kind : BranchKind} {source : Text} {body : Block} {place : Nat} {fault : ExprFault} :
      .mk kind (some source) body place ∈ choices → kind ≠ .otherwise → Condition.read source = .error fault →
      x = ⟨line, .conditional, .directive place fault⟩ → DropsIn depth ctx line choices x
  | refused : depth = nestingMax → x = ⟨line, .conditional, .expression .tooDeep⟩ → DropsIn depth ctx line choices x
  | inside {kind : BranchKind} {condition : Option Text} {body : Block} {place : Nat} :
      .mk kind condition body place ∈ choices → ctx.selected? choices = some body →
      Drops (depth + 1) ctx.enterBranch body x → DropsIn depth ctx line choices x

theorem DropsIn.cons {depth : Nat} {ctx : Context} {line : Nat} {rest : List Branch} {x : Suppression}
    (h : DropsIn depth ctx line rest x) {branch : Branch}
    (passed : ctx.selected? (branch :: rest) = ctx.selected? rest) : DropsIn depth ctx line (branch :: rest) x := by
  cases h with
  | misread among early fails same => exact .misread (.tail _ among) early fails same
  | refused level same => exact .refused level same
  | inside among chosen drops => exact .inside (.tail _ among) (passed.trans chosen) drops

namespace Context

variable {ctx : Context} {kind : BranchKind} {condition : Option Text}

theorem test_eq_error {fault : ExprFault} :
    ctx.test kind condition = .error fault ↔
      ∃ source, condition = some source ∧ kind ≠ .otherwise ∧ Condition.read source = .error fault := by
  cases kind <;> cases condition with
  | none => simp [test]
  | some source => cases read : Condition.read source <;> simp [test, read, Except.map]

theorem selects_of_test {selected : Bool} (h : ctx.test kind condition = .ok selected) :
    ctx.selects kind condition = selected := by
  by_cases last : kind = .otherwise
  · subst last
    simpa [test, selects] using h
  · cases condition with
    | none => cases kind <;> simpa [test, selects] using h
    | some source =>
        rw [test_some last] at h
        rcases read : Condition.read source with fault | c <;> rw [read] at h <;> cases h
        cases kind <;> simp [selects, read] at last ⊢

end Context

namespace Lenient
open Context

section

variable {depth : Nat} {ctx : Context} {x : Suppression}

theorem exists_of_mem_unbound {block : Block} (member : x ∈ ctx.unbound block) :
    ∃ before name expression line after fault, block = before ++ .binding name expression line :: after ∧
      (do (← Expr.read expression).value (ctx.withBindings before)) = .error fault ∧
      x = ⟨line, .binding, .expression fault⟩ := by
  induction block generalizing ctx with
  | nil => cases member
  | cons node rest ih =>
      cases node with
      | binding name expression line =>
          rw [Context.unbound] at member
          rcases value : (do (← Expr.read expression).value ctx) with fault | v
          · rw [value] at member
            rcases List.mem_cons.mp member with rfl | later
            · exact ⟨[], name, expression, line, rest, fault, rfl, value, rfl⟩
            · obtain ⟨before, name', expression', line', after, fault', rfl, fails, same⟩ := ih later
              refine ⟨.binding name expression line :: before, name', expression', line', after, fault', rfl, ?_, same⟩
              rw [Context.withBindings, value]
              exact fails
          · rw [value] at member
            obtain ⟨before, name', expression', line', after, fault', rfl, fails, same⟩ := ih member
            refine ⟨.binding name expression line :: before, name', expression', line', after, fault', rfl, ?_, same⟩
            rw [Context.withBindings, value]
            exact fails
      | _ =>
          obtain ⟨before, name, expression, line, after, fault, rfl, fails, same⟩ := ih member
          refine ⟨_ :: before, name, expression, line, after, fault, rfl, ?_, same⟩
          rw [Context.withBindings_cons _ rfl]
          exact fails

theorem drops_unbound {block : Block} (member : x ∈ ctx.unbound block) : Drops depth ctx block x := by
  obtain ⟨before, name, expression, line, after, fault, rfl, fails, rfl⟩ := exists_of_mem_unbound member
  exact .failed .binding (.binding fails) (.binding fails)

theorem drops_block {body : Block}
    (inside : x ∈ (nodes depth (ctx.withBindings body) body).suppressed →
      ∃ n ∈ body, n.isBinding = false ∧ Drops depth (ctx.withBindings body) [n] x)
    (member : x ∈ (block depth ctx body).suppressed) : Drops depth ctx body x := by
  rcases List.mem_append.mp member with unbound | own
  · exact drops_unbound unbound
  · obtain ⟨n, among, free, drops⟩ := inside own
    exact drops.of_mem among free

end

mutual

theorem drops_node {depth : Nat} (room : depth ≤ nestingMax) (ctx : Context) {x : Suppression} :
    (n : Node) → x ∈ (node depth ctx n).suppressed → n.isBinding = false ∧ Drops depth ctx [n] x
  | .text _, member => nomatch member
  | .binding _ _ _, member => nomatch member
  | .interpolation source line, member => by
      rcases shows : (do (← Expr.read source).render ctx) with fault | t
      · rw [node_interpolation_of_error shows] at member
        obtain rfl := List.mem_singleton.mp member
        exact ⟨rfl, .own (.interpolation shows) (.interpolation shows) rfl⟩
      · rw [node_interpolation_of_ok shows] at member
        cases member
  | .loop index item path body line, member => by
      refine ⟨rfl, ?_⟩
      rcases read : Path.read path with fault | p
      · rw [node_loop_of_error read] at member
        obtain rfl := List.mem_singleton.mp member
        exact .own (.loop read) (.loop read) rfl
      · rcases ctx.resolves_array_or p with ⟨items, resolves⟩ | other
        · rw [node_loop_of_array read resolves] at member
          split at member
          · rename_i deep
            obtain rfl := List.mem_singleton.mp member
            exact .refused (.here List.mem_cons_self) (by omega) .loop
          · rename_i fits
            obtain ⟨part, among, noted⟩ := List.mem_flatMap.mp member
            obtain ⟨i, bound, rfl⟩ := List.mem_mapIdx.mp among
            -- A body without room would have been refused before its first element.
            have some : items ≠ [] := List.ne_nil_of_length_pos (by omega)
            have room' : depth < nestingMax := Nat.lt_of_not_le fun deep => fits ⟨deep, some⟩
            refine .element read resolves (List.getElem?_eq_getElem bound) ?_
            exact drops_block (drops_nodes room' _ body) noted
        · rw [node_loop_of_other read other] at member
          cases member
  | .conditional choices line, member => by
      refine ⟨rfl, ?_⟩
      cases drops_branches room ctx line choices member with
      | misread among early fails same =>
          subst same
          exact .own (.conditional among early fails) (.conditional among early fails) rfl
      | refused level same =>
          subst same
          exact .refused (.here List.mem_cons_self) (by omega) .conditional
      | inside among chosen drops => exact drops.branch among chosen

theorem drops_nodes {depth : Nat} (room : depth ≤ nestingMax) (ctx : Context) {x : Suppression} :
    (block : List Node) → x ∈ (nodes depth ctx block).suppressed →
      ∃ n ∈ block, n.isBinding = false ∧ Drops depth ctx [n] x
  | [], member => nomatch member
  | first :: rest, member => by
      rcases List.mem_append.mp member with own | later
      · obtain ⟨free, drops⟩ := drops_node room ctx first own
        exact ⟨first, List.mem_cons_self, free, drops⟩
      · obtain ⟨n, among, free, drops⟩ := drops_nodes room ctx rest later
        exact ⟨n, .tail _ among, free, drops⟩

theorem drops_branches {depth : Nat} (room : depth ≤ nestingMax) (ctx : Context) (line : Nat) {x : Suppression} :
    (choices : List Branch) → x ∈ (branches depth ctx line choices).suppressed → DropsIn depth ctx line choices x
  | [], member => nomatch member
  | .mk kind condition body place :: rest, member => by
      rcases test : ctx.test kind condition with fault | selected
      · rw [branches_of_error test] at member
        obtain ⟨source, rfl, early, fails⟩ := test_eq_error.mp test
        exact .misread List.mem_cons_self early fails (List.mem_singleton.mp member)
      · have chooses := selects_of_test test
        cases selected with
        | false =>
            rw [branches_of_false test] at member
            refine (drops_branches room ctx line rest member).cons ?_
            rw [Context.selected?, chooses]
            rfl
        | true =>
            rw [branches_of_true test] at member
            split at member
            · exact .refused (by omega) (List.mem_singleton.mp member)
            · have chosen : ctx.selected? (.mk kind condition body place :: rest) = some body := by
                rw [Context.selected?, chooses, if_pos rfl]
              have fits : depth + 1 ≤ nestingMax := by omega
              exact .inside List.mem_cons_self chosen (drops_block (drops_nodes fits _ body) member)

end

end Lenient

end TextTemplate
