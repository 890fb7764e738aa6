import TextTemplate.Proofs.Block.Grammar
import TextTemplate.Proofs.Block.Script

/-!
# Nothing is lost between tokens and blocks

Whatever stands where it may not, lenient reading drops, doubles and moves nothing: the script of the block it gives is
that of the tokens, with the misplaced tags as text and the line breaks at the ends of loop bodies cut (`Told`). The
builder's part of this is `Spells`: its levels and nodes spell the script of the tokens read so far, where the breaks of
a loop still open are not yet cut.
-/

namespace TextTemplate
open Token

namespace Block

def Apart (block : Block) : Prop := ∀ before t u after, block ≠ before ++ .text t :: .text u :: after

theorem Apart.tail {node : Node} {rest : Block} (h : Apart (node :: rest)) : Apart rest := by
  intro before t u after split
  exact h (node :: before) t u after (by rw [split, List.cons_append])

theorem Apart.cons {node : Node} {rest : Block} (h : Apart rest)
    (differ : ∀ t u after, node = .text t → rest ≠ .text u :: after) : Apart (node :: rest) := by
  intro before t u after split
  cases before with
  | nil =>
      obtain ⟨same, tail⟩ := List.cons.inj split
      exact differ t u after same tail
  | cons first before =>
      obtain ⟨-, tail⟩ := List.cons.inj split
      exact h before t u after tail

theorem Apart.retext {t : Text} {rest : Block} (h : Apart (.text t :: rest)) (u : Text) : Apart (.text u :: rest) :=
  h.tail.cons fun _ v after _ same => h [] t v after (by rw [same]; rfl)

theorem Apart.reverse {block : Block} (h : Apart block) : Apart block.reverse := by
  intro before t u after split
  apply h after.reverse u t before.reverse
  rw [← List.reverse_reverse block, split]
  simp

end Block

namespace Node
open Script Block

/-! ## Scripts of blocks -/

@[simp] theorem scripts_nil : scripts [] = .text [] := rfl

@[simp] theorem scripts_cons (node : Node) (rest : List Node) :
    scripts (node :: rest) = node.script ++ scripts rest := rfl

theorem scripts_append (block more : List Node) : scripts (block ++ more) = scripts block ++ scripts more := by
  induction block with
  | nil => simp
  | cons node rest ih => rw [List.cons_append, scripts_cons, ih, scripts_cons, Script.append_assoc]

theorem branchScripts_append (branches more : List Branch) :
    branchScripts (branches ++ more) = branchScripts branches ++ branchScripts more := by
  induction branches with
  | nil => simp [branchScripts]
  | cons branch rest ih =>
      obtain ⟨kind, condition, body, line⟩ := branch
      rw [List.cons_append, branchScripts, ih, branchScripts, Script.append_assoc, Script.append_assoc]

theorem scripts_filter (block : Block) : scripts (block.filter fun node => !isEmptyText node) = scripts block := by
  induction block with
  | nil => rfl
  | cons node rest ih =>
      by_cases empty : isEmptyText node
      · cases node with
        | text t =>
            obtain rfl : t = [] := by simpa [isEmptyText] using empty
            simpa [isEmptyText, script] using ih
        | _ => cases empty
      · rw [List.filter_cons_of_pos (by simp [empty]), scripts_cons, ih, scripts_cons]

theorem script_begins {node : Node} (directive : node.isDirective = true) : ∃ m s, node.script = .of m ++ s := by
  cases node with
  | text t => cases directive
  | interpolation source line => exact ⟨_, .text [], (append_nil _).symm⟩
  | binding name expression line => exact ⟨_, .text [], (append_nil _).symm⟩
  | loop index item path body line => exact ⟨_, _, rfl⟩
  | conditional branches line =>
      rcases branches with _ | ⟨⟨kind, condition, body, line⟩, rest⟩
      · exact ⟨.conditionalEnd, .text [], rfl⟩
      · exact ⟨_, _, Script.append_assoc _ _ _⟩

theorem script_ends {node : Node} (directive : node.isDirective = true) : ∃ s m, node.script = s ++ .of m := by
  cases node with
  | text t => cases directive
  | interpolation source line => exact ⟨.text [], _, (nil_append _).symm⟩
  | binding name expression line => exact ⟨.text [], _, (nil_append _).symm⟩
  | loop index item path body line => exact ⟨_, _, (Script.append_assoc _ _ _).symm⟩
  | conditional branches line => exact ⟨_, _, rfl⟩

theorem isDirective_of_ne_text {node : Node} (differs : ∀ t, node ≠ .text t) : node.isDirective = true := by
  cases node with
  | text t => exact absurd rfl (differs t)
  | _ => rfl

theorem firstText_scripts {node : Node} (directive : node.isDirective = true) (rest : List Node) :
    (scripts (node :: rest)).firstText = [] := by
  obtain ⟨m, s, same⟩ := script_begins directive
  rw [scripts_cons, same, Script.append_assoc, firstText_of_append]

theorem lastText_scripts (rest : List Node) {node : Node} (directive : node.isDirective = true) :
    (scripts (rest ++ [node])).lastText = [] := by
  obtain ⟨s, m, same⟩ := script_ends directive
  rw [scripts_append, scripts_cons, same, scripts_nil, append_nil, ← Script.append_assoc, lastText_append_of]

theorem scripts_trimStart {block : Block} (apart : Apart block) :
    scripts (trimStart block) = (scripts block).cutFirst := by
  cases block with
  | nil => rfl
  | cons node rest =>
      cases node with
      | text t =>
          have bare : (scripts rest).firstText = [] := by
            cases rest with
            | nil => rfl
            | cons next rest =>
                refine firstText_scripts (isDirective_of_ne_text fun u same => apart [] t u rest ?_) rest
                rw [same, List.nil_append]
          exact (cutFirst_text_append t bare).symm
      | _ => exact (cutFirst_of_firstText (firstText_scripts rfl rest)).symm

theorem scripts_trimEnd {block : Block} (apart : Apart block) : scripts (trimEnd block) = (scripts block).cutLast := by
  rcases List.eq_nil_or_concat block with rfl | ⟨rest, node, same⟩
  · rfl
  · rw [List.concat_eq_append] at same
    subst same
    rw [Builder.trimEnd_concat]
    cases node with
    | text t =>
        have bare : (scripts rest).lastText = [] := by
          rcases List.eq_nil_or_concat rest with rfl | ⟨before, last, same⟩
          · rfl
          · rw [List.concat_eq_append] at same
            subst same
            refine lastText_scripts before (isDirective_of_ne_text fun u same => apart before u t [] ?_)
            rw [same, List.append_assoc, List.singleton_append]
        rw [Builder.retext, scripts_append, scripts_append, scripts_cons, scripts_cons, scripts_nil, append_nil,
          append_nil, script, script, cutLast_append_text bare]
    | _ => exact (cutLast_of_lastText (lastText_scripts rest rfl)).symm

theorem apart_trimStart {block : Block} (apart : Apart block) : Apart (trimStart block) := by
  cases block with
  | nil => exact apart
  | cons node rest =>
      cases node with
      | text t => exact apart.retext _
      | _ => exact apart

theorem scripts_trimmed {block : Block} (apart : Apart block) :
    scripts (Block.trimmed block) = (scripts block).cutFirst.cutLast := by
  rw [Block.trimmed, scripts_filter, scripts_trimEnd (apart_trimStart apart), scripts_trimStart apart]

end Node

/-! ## What the builder holds -/

namespace Block
open Builder

structure Tidy (block : Block) : Prop where
  full : Full block
  apart : Apart block

namespace Tidy

variable {node : Node} {nodes : List Node}

theorem nil : Tidy [] := by
  refine ⟨by simp [Full], fun before t u after split => ?_⟩
  simp at split

theorem tail (h : Tidy (node :: nodes)) : Tidy nodes := ⟨h.full.tail, h.apart.tail⟩

theorem cons (h : Tidy nodes) (full : isEmptyText node = false)
    (differ : ∀ t u after, node = .text t → nodes ≠ .text u :: after) : Tidy (node :: nodes) where
  full := by simpa [Full, full] using h.full
  apart := h.apart.cons differ

theorem directive (h : Tidy nodes) (directive : node.isDirective = true) : Tidy (node :: nodes) := by
  cases node with
  | text t => cases directive
  | _ => exact h.cons rfl (by simp)

theorem text (h : Tidy nodes) {t : Text} (full : t ≠ []) (differ : ∀ u after, nodes ≠ .text u :: after) :
    Tidy (.text t :: nodes) :=
  h.cons (by simpa [isEmptyText] using full) fun _ u after _ => differ u after

theorem pushText (h : Tidy nodes) (t : Text) : Tidy (pushText t nodes) := by
  by_cases empty : t = []
  · simpa [empty] using h
  · rcases nodes with _ | ⟨node, rest⟩
    · simpa [Builder.pushText, empty] using h.text empty (by simp)
    · cases node with
      | text u =>
          have full : u ++ t ≠ [] := by simp [empty]
          have differ : ∀ v after, rest ≠ .text v :: after := fun v after same => h.apart [] u v after (by simp [same])
          simpa [Builder.pushText, empty] using h.tail.text full differ
      | _ => simpa [Builder.pushText, empty] using h.text empty (by simp)

end Tidy

end Block

namespace Builder
open Node Script Block

theorem scripts_pushText (t : Text) (nodes : List Node) :
    scripts (Builder.pushText t nodes).reverse = scripts nodes.reverse ++ .text t := by
  by_cases empty : t = []
  · rw [empty, pushText_nil, append_nil]
  · rcases nodes with _ | ⟨node, rest⟩
    · simp [Builder.pushText, empty, Node.script]
    · cases node <;> simp [Builder.pushText, empty, Node.script, scripts_append, Script.append_assoc]

theorem scripts_loopBody {nodes : List Node} (h : Tidy nodes) :
    scripts (loopBody nodes) = (scripts nodes.reverse).cutFirst.cutLast := by
  rw [loopBody_eq_trimmed h.full, scripts_trimmed h.apart.reverse]

/--
A builder's open directives and nodes spell a script. Of each block that is open, the breaks around the loops in it are
cut; those at its own ends are not, since it is not known yet what comes next.
-/
inductive Spells : List Level → List Node → Script → Prop
  | top {nodes : List Node} {s : Script} :
      Tidy nodes → s.Quiet → scripts nodes.reverse = s.trimmed → Spells [] nodes s
  | loop {outer : List Level} {index : Option Text} {item path : Text} {opening : Token} {before nodes : List Node}
      {around s : Script} :
      Spells outer before around → Tidy nodes → s.Quiet → scripts nodes.reverse = s.trimmed →
      Spells (⟨.loop index item path, opening, before⟩ :: outer) nodes
        (around ++ (.of (.loop index item path opening.position.line) ++ s))
  | chain {outer : List Level} {finished : List Branch} {kind : BranchKind} {condition : Option Text} {line : Nat}
      {opening : Token} {before nodes : List Node} {around s : Script} :
      Spells outer before around → Tidy nodes → s.Quiet →
      branchScripts finished.reverse ++ (.of (.branch kind condition line) ++ scripts nodes.reverse) = s.trimmed →
      Spells (⟨.chain finished kind condition line, opening, before⟩ :: outer) nodes (around ++ s)

namespace Spells

variable {levels : List Level} {nodes : List Node} {s : Script}

theorem tidy (h : Spells levels nodes s) : Tidy nodes := by
  cases h <;> assumption

theorem extend (h : Spells levels nodes s) {more : Script} (quiet : more.Quiet) {longer : List Node}
    (tidy : Tidy longer) (adds : scripts longer.reverse = scripts nodes.reverse ++ more.trimmed) :
    Spells levels longer (s ++ more) := by
  cases h with
  | top _ quiet' same =>
      refine .top tidy (quiet'.append quiet) ?_
      rw [adds, same, quiet'.trimmed_append quiet]
  | loop around _ quiet' same =>
      rw [Script.append_assoc, Script.append_assoc]
      refine .loop around tidy (quiet'.append quiet) ?_
      rw [adds, same, quiet'.trimmed_append quiet]
  | chain around _ quiet' same =>
      rw [Script.append_assoc]
      refine .chain around tidy (quiet'.append quiet) ?_
      rw [adds, quiet'.trimmed_append quiet, ← same, Script.append_assoc, Script.append_assoc]

theorem text (h : Spells levels nodes s) (t : Text) : Spells levels (Builder.pushText t nodes) (s ++ .text t) :=
  h.extend (quiet_text t) (h.tidy.pushText t) (scripts_pushText t nodes)

theorem push (h : Spells levels nodes s) {more : Script} (quiet : more.Quiet) {node : Node}
    (directive : node.isDirective = true) (same : node.script = more.trimmed) :
    Spells levels (node :: nodes) (s ++ more) := by
  refine h.extend quiet (h.tidy.directive directive) ?_
  rw [List.reverse_cons, scripts_append, scripts_cons, scripts_nil, append_nil, same]

section
variable {outer : List Level} {opening : Token} {before : List Node} {finished : List Branch} {kind : BranchKind}
  {condition : Option Text} {line : Nat}

theorem openLoop (h : Spells levels nodes s) (index : Option Text) (item path : Text) (opening : Token) :
    Spells (⟨.loop index item path, opening, nodes⟩ :: levels) []
      (s ++ .of (.loop index item path opening.position.line)) := by
  rw [← append_nil (of _)]
  exact .loop h .nil (quiet_text []) rfl

theorem openChain (h : Spells levels nodes s) (kind : BranchKind) (condition : Option Text) (line : Nat) :
    Spells (⟨.chain [] kind condition line, opening, nodes⟩ :: levels) [] (s ++ .of (.branch kind condition line)) := by
  refine .chain h .nil (quiet_of rfl rfl) ?_
  simp [branchScripts]

theorem nextBranch (h : Spells (⟨.chain finished kind condition line, opening, before⟩ :: outer) nodes s)
    (kind' : BranchKind) (condition' : Option Text) (line' : Nat) :
    Spells
      (⟨.chain (.mk kind condition nodes.reverse line :: finished) kind' condition' line', opening, before⟩ :: outer)
      [] (s ++ .of (.branch kind' condition' line')) := by
  cases h with
  | chain around _ quiet same =>
      have quiet' : (of (.branch kind' condition' line')).Quiet := quiet_of rfl rfl
      rw [Script.append_assoc]
      refine .chain around .nil (quiet.append quiet') ?_
      rw [quiet.trimmed_append quiet', ← same, List.reverse_cons, branchScripts_append]
      simp [branchScripts, Script.append_assoc]

theorem leaveLoop {index : Option Text} {item path : Text}
    (h : Spells (⟨.loop index item path, opening, before⟩ :: outer) nodes s) :
    Spells outer (.loop index item path (loopBody nodes) opening.position.line :: before) (s ++ .of .loopEnd) := by
  cases h with
  | @loop _ _ _ _ _ _ _ _ inside around tidy quiet same =>
      rw [Script.append_assoc, Script.append_assoc]
      refine around.push ⟨?_, ?_⟩ rfl ?_
      · rw [of_append]
        rfl
      · rw [lastOpens_append, lastOpens_append]
        rfl
      · rw [Script.trimmed, trim_of_append, trim_append_of, Mark.opensLoop, Mark.closesLoop, quiet.trim_both, ← same,
          ← scripts_loopBody tidy, Node.script]

theorem leaveChain (h : Spells (⟨.chain finished kind condition line, opening, before⟩ :: outer) nodes s) :
    Spells outer
      (.conditional (.mk kind condition nodes.reverse line :: finished).reverse opening.position.line :: before)
      (s ++ .of .conditionalEnd) := by
  cases h with
  | chain around tidy quiet same =>
      have quiet' : (of .conditionalEnd).Quiet := quiet_of rfl rfl
      rw [Script.append_assoc]
      refine around.push (quiet.append quiet') rfl ?_
      rw [quiet.trimmed_append quiet', trimmed_of, ← same, Node.script, List.reverse_cons, branchScripts_append]
      simp [branchScripts]

end

theorem accept {b : Builder} (h : Spells b.levels b.nodes s) {token : Token} {closed : Bool}
    (fine : b.problem? closed token.lexeme = none) :
    Spells (b.accept token).levels (b.accept token).nodes (s ++ token.script) := by
  obtain ⟨nodes, levels, demoted⟩ := b
  obtain ⟨l, position, raw⟩ := token
  cases l with
  | text content => exact h.text content
  | interpolation source => exact h.push (quiet_of rfl rfl) rfl rfl
  | binding name expression => exact h.push (quiet_of rfl rfl) rfl rfl
  | forOpen index item path => exact h.openLoop index item path ⟨.forOpen index item path, position, raw⟩
  | ifOpen condition => exact h.openChain .first (some condition) position.line
  | elseIf condition =>
      rcases levels with _ | ⟨⟨_ | _, _, _⟩, _⟩
      · cases fine
      · cases fine
      · exact h.nextBranch .elseIf (some condition) position.line
  | otherwise =>
      rcases levels with _ | ⟨⟨_ | _, _, _⟩, _⟩
      · cases fine
      · cases fine
      · exact h.nextBranch .otherwise none position.line
  | forClose =>
      rcases levels with _ | ⟨⟨_ | _, _, _⟩, _⟩
      · cases fine
      · exact h.leaveLoop
      · cases fine
  | ifClose =>
      rcases levels with _ | ⟨⟨_ | _, _, _⟩, _⟩
      · cases fine
      · cases fine
      · exact h.leaveChain
  | endOfText => simpa [Builder.accept, Token.script] using h

end Spells

theorem accept_demoted (b : Builder) (token : Token) : (b.accept token).demoted = b.demoted := by
  obtain ⟨nodes, levels, demoted⟩ := b
  obtain ⟨l, position, raw⟩ := token
  cases l <;> rcases levels with _ | ⟨⟨_ | _, _, _⟩, _⟩ <;> rfl

theorem problem?_of_leaf {l : Lexeme} (leaf : l.isLeaf = true) (b : Builder) (closed : Bool) :
    b.problem? closed l = none := by
  cases l <;> first | rfl | cases leaf

structure Told (b : Builder) (taken : List (Token × Bool)) : Prop where
  spells : Spells b.levels b.nodes (Script.ofTokens taken)
  demoted : (taken.filter Prod.snd).map Prod.fst = b.demoted.reverse.map Demotion.token
  tags : ∀ token, (token, true) ∈ taken → token.lexeme.isLeaf = false

theorem told_empty : Told .empty [] where
  spells := .top .nil (quiet_text []) rfl
  demoted := rfl
  tags := by simp

theorem Told.step {b c : Builder} {taken : List (Token × Bool)} {token : Token} {closed : Bool} (h : Told b taken)
    (step : b.step false token closed = .ok c) : ∃ asText, Told c (taken ++ [(token, asText)]) := by
  rcases step_eq_ok.mp step with ⟨fine, rfl⟩ | ⟨problem, found, -, rfl⟩
  · refine ⟨false, ?_, ?_, ?_⟩
    · simpa [ofTokens_append, Script.ofTokens] using h.spells.accept fine
    · simpa [accept_demoted] using h.demoted
    · simpa using h.tags
  · have tag : token.lexeme.isLeaf = false := by
      refine Bool.eq_false_iff.mpr fun leaf => ?_
      rw [problem?_of_leaf leaf] at found
      cases found
    refine ⟨true, ?_, ?_, ?_⟩
    · simpa [demote, ofTokens_append, Script.ofTokens] using h.spells.text token.raw
    · simp [demote, h.demoted]
    · intro other member
      rcases List.mem_append.mp member with before | last
      · exact h.tags other before
      · obtain rfl : other = token := by simpa using last
        exact tag

theorem Reads.told {b c : Builder} {tokens left : List Token} (run : Reads false b tokens c left) :
    ∀ {taken : List (Token × Bool)}, Told b taken →
      ∃ more, more.map Prod.fst ++ left = tokens ∧ Told c (taken ++ more) := by
  induction run with
  | refl b tokens => exact fun {taken} h => ⟨[], rfl, by rwa [List.append_nil]⟩
  | @step b next c token rest left step _ ih =>
      intro taken h
      obtain ⟨asText, h⟩ := h.step step
      obtain ⟨more, same, h⟩ := ih h
      refine ⟨(token, asText) :: more, by rw [List.map_cons, List.cons_append, same], ?_⟩
      rwa [List.append_cons]

end Builder

/-! ## Counts -/

namespace NodeCounts

@[simp] theorem zero_add (a : NodeCounts) : zero.add a = a := by simp [zero, add]

@[simp] theorem add_zero (a : NodeCounts) : a.add zero = a := by simp [zero, add]

theorem add_assoc (a b c : NodeCounts) : (a.add b).add c = a.add (b.add c) := by simp [add, Nat.add_assoc]

theorem add_comm (a b : NodeCounts) : a.add b = b.add a := by simp [add, Nat.add_comm]

end NodeCounts

namespace Script

@[simp] theorem counts_append (a b : Script) : (a ++ b).counts = a.counts.add b.counts := by
  induction a with
  | text t => cases b <;> simp [counts]
  | mark t m rest ih => rw [mark_append, counts, ih, counts, NodeCounts.add_assoc]

theorem counts_of (m : Mark) : (of m).counts = m.counts := NodeCounts.add_zero _

@[simp] theorem counts_trim (opened closed : Bool) (s : Script) : (s.trim opened closed).counts = s.counts := by
  induction s generalizing opened with
  | text t => rfl
  | mark t m rest ih => rw [trim, counts, ih, counts]

theorem counts_token (token : Token) :
    token.script.counts.interpolations = (if token.lexeme.isInterpolation then 1 else 0) ∧
      token.script.counts.bindings = if token.lexeme.isBinding then 1 else 0 := by
  obtain ⟨l, position, raw⟩ := token
  cases l <;> exact ⟨rfl, rfl⟩

theorem counts_ofTokens {taken : List (Token × Bool)}
    (tags : ∀ token, (token, true) ∈ taken → token.lexeme.isLeaf = false) :
    (ofTokens taken).counts.interpolations = (taken.map Prod.fst).countP (·.lexeme.isInterpolation) ∧
      (ofTokens taken).counts.bindings = (taken.map Prod.fst).countP (·.lexeme.isBinding) := by
  induction taken with
  | nil => exact ⟨rfl, rfl⟩
  | cons head rest ih =>
      obtain ⟨token, asText⟩ := head
      obtain ⟨interpolations, bindings⟩ := ih fun token member => tags token (List.mem_cons_of_mem _ member)
      have same : (if asText then Script.text token.raw else token.script).counts.interpolations =
            (if token.lexeme.isInterpolation then 1 else 0) ∧
          (if asText then Script.text token.raw else token.script).counts.bindings =
            if token.lexeme.isBinding then 1 else 0 := by
        cases asText with
        | true =>
            have tag := tags token List.mem_cons_self
            cases kind : token.lexeme <;> rw [kind] at tag <;> first | exact ⟨rfl, rfl⟩ | cases tag
        | false => exact counts_token token
      rw [ofTokens, counts_append, List.map_cons, List.countP_cons, List.countP_cons, ← interpolations, ← bindings,
        ← same.1, ← same.2]
      exact ⟨Nat.add_comm _ _, Nat.add_comm _ _⟩

end Script

namespace Node
open Script

mutual

theorem counts_script : (node : Node) → node.script.counts = node.counts
  | text _ => rfl
  | interpolation _ _ => rfl
  | binding _ _ _ => rfl
  | loop _ _ _ body _ => by simp [script, counts, counts_of, counts_scripts body, Mark.counts]
  | conditional branches _ => by
      rw [script, counts_append, counts_branchScripts branches, NodeCounts.add_comm]
      rfl

theorem counts_scripts : (block : List Node) → (scripts block).counts = blockCounts block
  | [] => rfl
  | node :: rest => by rw [scripts, counts_append, counts_script node, counts_scripts rest, blockCounts]

theorem counts_branchScripts : (branches : List Branch) → (branchScripts branches).counts = branchCounts branches
  | [] => rfl
  | .mk _ _ body _ :: rest => by
      simp [branchScripts, branchCounts, counts_of, counts_scripts body, counts_branchScripts rest, Mark.counts]

end

end Node

open Builder

/--
Lenient reading loses, doubles and moves nothing. Of the tokens of a template the misplaced tags stand as their
characters and all others as they are; what they then spell is what the block spells, less the line breaks at the ends
of loop bodies.
-/
theorem scripts_ofTokens_lenient (tokens : List Token) :
    ∃ block demoted standing, Block.ofTokens false tokens = .ok (block, demoted) ∧
      standing.map Prod.fst = upToEnd tokens ∧
      (standing.filter Prod.snd).map Prod.fst = demoted.map Demotion.token ∧
      (∀ token, (token, true) ∈ standing → token.lexeme.isLeaf = false) ∧
      Node.scripts block = (Script.ofTokens standing).trimmed ∧
      block.counts.interpolations = (upToEnd tokens).countP (·.lexeme.isInterpolation) ∧
      block.counts.bindings = (upToEnd tokens).countP (·.lexeme.isBinding) := by
  obtain ⟨c, run⟩ := reads_lenient .empty (upToEnd tokens)
  obtain ⟨standing, all, told⟩ := run.told told_empty
  rw [List.append_nil] at all
  rw [List.nil_append] at told
  have spelled : Node.scripts c.nodes.reverse = (Script.ofTokens standing).trimmed := by
    have spells := told.spells
    rw [run.levels_eq_nil rfl] at spells
    cases spells with
    | top _ _ same => exact same
  have counted : Block.counts c.nodes.reverse = (Script.ofTokens standing).counts := by
    rw [Block.counts, ← Node.counts_scripts, spelled, Script.trimmed, Script.counts_trim]
  obtain ⟨interpolations, bindings⟩ := Script.counts_ofTokens told.tags
  rw [← counted, all] at interpolations bindings
  exact ⟨_, _, standing, Block.ofTokens_eq_ok.mpr ⟨c, run, rfl, rfl⟩, all, told.demoted, told.tags, spelled,
    interpolations, bindings⟩

end TextTemplate
