import TextTemplate.Proofs.Block.Phrase
import TextTemplate.Proofs.Block.Reading

/-!
# Strict reading accepts the grammar

Strict reading gives a block exactly when the tokens are the yield of phrases that are not nested too deeply, and then
the block is the one the phrases stand for. In one direction a run over the yield of phrases is followed phrase by
phrase; the closing tag found for an opening one is the closing tag of its phrase, since the yield of phrases inside is
passed over as a whole. In the other direction phrases are read off an accepted run, shorter remainders first.
-/

namespace TextTemplate
open Token

/-! ## Nodes in the order they are read -/

namespace Block

def Full (block : Block) : Prop := ∀ node ∈ block, isEmptyText node = false

theorem Full.ne_nil {t : Text} {rest : Block} (h : Full (.text t :: rest)) : t ≠ [] := by
  simpa [isEmptyText] using h (.text t) List.mem_cons_self

theorem Full.tail {node : Node} {rest : Block} (h : Full (node :: rest)) : Full rest :=
  fun other member => h other (List.mem_cons_of_mem _ member)

theorem prependText_full {t : Text} {block : Block} (h : Full block) : Full (prependText t block) := by
  by_cases empty : t = []
  · simpa [prependText, empty] using h
  · rcases block with _ | ⟨node, rest⟩
    · simp [prependText, empty, isEmptyText, Full]
    · cases node <;> simp_all [prependText, isEmptyText, Full]

theorem merged_full (more : List Node) : Full (merged more) := by
  induction more with
  | nil => simp [merged, Full]
  | cons node rest ih =>
      cases node with
      | text t => exact prependText_full ih
      | _ => simpa [merged, isEmptyText, Full] using ih

end Block

namespace Builder
open Block

def pushNode (nodes : List Node) : Node → List Node
  | .text t => pushText t nodes
  | node => node :: nodes

def pushAll (nodes more : List Node) : List Node := more.foldl pushNode nodes

def glue (nodes : List Node) : Block → Block
  | .text t :: rest => (pushText t nodes).reverse ++ rest
  | block => nodes.reverse ++ block

@[simp] theorem pushText_nil (nodes : List Node) : pushText [] nodes = nodes := by simp [pushText]

theorem pushText_append (t u : Text) (nodes : List Node) : pushText (t ++ u) nodes = pushText u (pushText t nodes) := by
  by_cases empty : t = []
  · simp [empty]
  · by_cases empty' : u = []
    · simp [empty']
    · rcases nodes with _ | ⟨node, nodes⟩
      · simp [pushText, empty, empty']
      · cases node <;> simp [pushText, empty, empty']

theorem glue_prependText (nodes : List Node) (t : Text) (block : Block) :
    glue nodes (prependText t block) = glue (pushText t nodes) block := by
  by_cases empty : t = []
  · simp [prependText, empty]
  · rcases block with _ | ⟨node, rest⟩
    · simp [prependText, empty, glue]
    · cases node <;> simp [prependText, empty, glue, pushText_append]

theorem pushText_of_apart {t : Text} {nodes : List Node} (apart : ∀ u rest, nodes ≠ .text u :: rest) (full : t ≠ []) :
    pushText t nodes = .text t :: nodes := by
  rcases nodes with _ | ⟨node, rest⟩
  · simp [pushText, full]
  · cases node with
    | text u => exact absurd rfl (apart u rest)
    | _ => simp [pushText, full]

theorem glue_of_apart {nodes : List Node} {block : Block} (apart : ∀ t rest, nodes ≠ .text t :: rest)
    (full : Full block) : glue nodes block = nodes.reverse ++ block := by
  rcases block with _ | ⟨node, rest⟩
  · rfl
  · cases node with
    | text t => simp [glue, pushText_of_apart apart full.ne_nil]
    | _ => rfl

theorem pushAll_reverse (nodes more : List Node) : (pushAll nodes more).reverse = glue nodes (merged more) := by
  induction more generalizing nodes with
  | nil => simp [pushAll, merged, glue]
  | cons node rest ih =>
      rw [pushAll, List.foldl_cons, ← pushAll, ih]
      cases node with
      | text t => rw [pushNode, merged, glue_prependText]
      | _ =>
          simp only [pushNode, merged]
          rw [glue_of_apart _ (merged_full rest)]
          · simp [glue]
          · simp

theorem pushAll_nil (more : List Node) : (pushAll [] more).reverse = merged more := by
  rw [pushAll_reverse, glue_of_apart (by simp) (merged_full more), List.reverse_nil, List.nil_append]

def retext (change : Text → Text) : Node → Node
  | .text t => .text (change t)
  | node => node

theorem trimNode_eq_filter {node : Node} (change : Text → Text) (full : isEmptyText node = false) :
    trimNode change node = [retext change node].filter fun node => !isEmptyText node := by
  cases node with
  | text t => by_cases empty : change t = [] <;> simp [trimNode, retext, isEmptyText, empty]
  | _ => simp [trimNode, retext, isEmptyText]

theorem trimNode_reverse (change : Text → Text) (node : Node) :
    (trimNode change node).reverse = trimNode change node := by
  cases node with
  | text t => by_cases empty : change t = [] <;> simp [trimNode, empty]
  | _ => rfl

theorem trimStart_cons (node : Node) (rest : Block) :
    trimStart (node :: rest) = retext Text.dropFirstBreak node :: rest := by
  cases node <;> rfl

theorem trimEnd_concat (rest : Block) (node : Node) :
    trimEnd (rest ++ [node]) = rest ++ [retext Text.dropLastBreak node] := by
  cases node <;> simp [trimEnd, retext]

theorem loopBody_eq_trimmed {nodes : List Node} (full : Full nodes) : loopBody nodes = trimmed nodes.reverse := by
  rcases nodes with _ | ⟨last, rest⟩
  · rfl
  · have fullLast : isEmptyText last = false := full last List.mem_cons_self
    rcases same : rest.reverse with _ | ⟨first, middle⟩
    · obtain rfl : rest = [] := by simpa using same
      cases last with
      | text t =>
          by_cases empty : t.dropFirstBreak.dropLastBreak = [] <;>
            simp [loopBody, trimNode, trimmed, trimStart, trimEnd, isEmptyText, empty]
      | _ => simp [loopBody, trimFirst, trimLast, trimNode, trimmed, trimStart, trimEnd, isEmptyText]
    · -- The first and the last node are different ones, and those between stay as they are.
      obtain rfl : rest = middle.reverse ++ [first] := by simpa using congrArg List.reverse same
      have fullFirst : isEmptyText first = false := full first (by simp)
      have kept : middle.filter (fun node => !isEmptyText node) = middle :=
        List.filter_eq_self.mpr fun node member => by simp [full node (by simp [member])]
      calc loopBody (last :: (middle.reverse ++ [first]))
        _ = trimFirst (trimLast (last :: (middle.reverse ++ [first]))).reverse := by
            cases middle.reverse <;> cases last <;> rfl
        _ = trimNode Text.dropFirstBreak first ++ (middle ++ trimNode Text.dropLastBreak last) := by
            simp [trimLast, trimFirst, trimNode_reverse]
        _ = trimmed (last :: (middle.reverse ++ [first])).reverse := by
            rw [List.reverse_cons, same, List.cons_append, trimmed, trimStart_cons, ← List.cons_append, trimEnd_concat,
              List.filter_append, List.filter_cons, kept, trimNode_eq_filter _ fullFirst,
              trimNode_eq_filter _ fullLast]
            simp [List.filter_cons]
            split <;> simp

theorem pushAll_full (more : List Node) : Full (pushAll [] more) := by
  intro node member
  exact merged_full more node (by rw [← pushAll_nil]; simpa using member)

theorem loopBody_pushAll (more : List Node) : loopBody (pushAll [] more) = trimmed (merged more) := by
  rw [loopBody_eq_trimmed (pushAll_full more), pushAll_nil]

end Builder

/-! ## Phrases are passed over as a whole -/

namespace Phrase
open Builder

mutual

theorem ending_yield (a : Awaited) :
    (p : Phrase) → (rest : List Token) → ending a (p.yield ++ rest) = ending a rest
  | .text _ _, rest => ending_of_leaf rfl a rest
  | .interpolation _ _, rest => ending_of_leaf rfl a rest
  | .binding _ _ _, rest => ending_of_leaf rfl a rest
  | .loop _ _ _ _ body close, rest => by
      rw [yield, List.cons_append]
      refine ending_of_opened ?_ a
      rw [opened_of_awaits rfl, List.append_assoc, ending_yieldAll .loop body]
      exact ending_of_closes rfl rest
  | .conditional _ _ body more, rest => by
      rw [yield, List.cons_append]
      refine ending_of_opened ?_ a
      rw [opened_of_awaits rfl, List.append_assoc, ending_yieldAll .chain body]
      exact ending_yieldRest more rest

theorem ending_yieldAll (a : Awaited) :
    (ps : List Phrase) → (rest : List Token) → ending a (yieldAll ps ++ rest) = ending a rest
  | [], rest => by rw [yieldAll_nil, List.nil_append]
  | p :: ps, rest => by
      rw [yieldAll_cons, List.append_assoc, ending_yield a p, ending_yieldAll a ps]

theorem ending_yieldRest :
    (c : Continuation) → (rest : List Token) → ending .chain (yieldRest c ++ rest) = some rest
  | .close _, rest => ending_of_closes rfl rest
  | .otherwise _ body close, rest => by
      rw [yieldRest, List.cons_append, ending_of_stays (by simp [Place.token]) rfl rfl, List.append_assoc,
        ending_yieldAll _ body]
      exact ending_of_closes rfl rest
  | .elseIf _ _ body more, rest => by
      rw [yieldRest, List.cons_append, ending_of_stays (by simp [Place.token]) rfl rfl, List.append_assoc,
        ending_yieldAll _ body]
      exact ending_yieldRest more rest

end

theorem opened_loop (index : Option Text) (item path : Text) (place : Place) (body : List Phrase) (close : Place)
    (rest : List Token) :
    opened (place.token (.forOpen index item path)) (yieldAll body ++ close.token .forClose :: rest) = some rest := by
  rw [opened_of_awaits rfl, ending_yieldAll]
  exact ending_of_closes rfl rest

theorem opened_conditional (condition : Text) (place : Place) (body : List Phrase) (more : Continuation)
    (rest : List Token) :
    opened (place.token (.ifOpen condition)) (yieldAll body ++ (yieldRest more ++ rest)) = some rest := by
  rw [opened_of_awaits rfl, ending_yieldAll]
  exact ending_yieldRest more rest

theorem yieldAll_inside (ps : List Phrase) : ∀ token ∈ yieldAll ps, token.lexeme ≠ .endOfText := by
  intro stop member ends
  obtain ⟨before, behind, split⟩ := List.append_of_mem member
  let close : Token := ⟨.forClose, .start, []⟩
  have closed : ending .loop (yieldAll ps ++ [close]) = some [] := by
    rw [ending_yieldAll]
    exact ending_of_closes rfl []
  rw [split, List.append_assoc, List.cons_append, ending_append ends, Option.map_eq_some_iff] at closed
  obtain ⟨us, -, empty⟩ := closed
  simp at empty

theorem problem?_of_opening {b : Builder} {l : Lexeme} {k : Awaited} (begins : l.awaits = some k)
    (room : b.levels.length < nestingMax) : b.problem? true l = none := by
  cases l <;> cases begins
  all_goals
    simp only [problem?]
    rw [if_neg (by simp), if_neg (Nat.not_le.mpr room)]

theorem step_of_fine {strict closed : Bool} {b : Builder} {token : Token}
    (fine : b.problem? closed token.lexeme = none) : b.step strict token closed = .ok (b.accept token) :=
  step_eq_ok.mpr (.inl ⟨fine, rfl⟩)

mutual

theorem reads_yield (strict : Bool) (demoted : List Demotion) :
    (p : Phrase) → (nodes : List Node) → (levels : List Level) → (rest : List Token) →
      levels.length + p.nesting ≤ nestingMax →
      Reads strict ⟨nodes, levels, demoted⟩ (p.yield ++ rest) ⟨pushNode nodes p.node, levels, demoted⟩ rest
  | .text _ _, nodes, levels, rest, _ => .step rfl (.refl _ _)
  | .interpolation _ _, nodes, levels, rest, _ => .step rfl (.refl _ _)
  | .binding _ _ _, nodes, levels, rest, _ => .step rfl (.refl _ _)
  | .loop index item path place body close, nodes, levels, rest, shallow => by
      rw [nesting] at shallow
      rw [yield, List.cons_append, List.append_assoc, List.singleton_append]
      have room : levels.length < nestingMax := by omega
      refine .step (by rw [opened_loop]; exact step_of_fine (problem?_of_opening rfl room)) ?_
      refine (reads_yieldAll strict demoted body _ _ _ (by simp only [List.length_cons]; omega)).trans ?_
      refine .step (step_of_fine rfl) ?_
      rw [node, ← loopBody_pushAll]
      exact .refl _ _
  | .conditional condition place body more, nodes, levels, rest, shallow => by
      rw [nesting] at shallow
      rw [yield, List.cons_append, List.append_assoc]
      have room : levels.length < nestingMax := by omega
      refine .step (by rw [opened_conditional]; exact step_of_fine (problem?_of_opening rfl room)) ?_
      refine (reads_yieldAll strict demoted body _ _ _ (by simp only [List.length_cons]; omega)).trans ?_
      have last := reads_yieldRest strict demoted more [] .first (some condition) place.position.line
        (place.token (.ifOpen condition)) nodes levels (pushAll [] (Phrase.nodes body)) rest (by omega) (.inl nofun)
      rw [pushAll_nil] at last
      exact last

theorem reads_yieldAll (strict : Bool) (demoted : List Demotion) :
    (ps : List Phrase) → (nodes : List Node) → (levels : List Level) → (rest : List Token) →
      levels.length + nestingAll ps ≤ nestingMax →
      Reads strict ⟨nodes, levels, demoted⟩ (yieldAll ps ++ rest)
        ⟨pushAll nodes (Phrase.nodes ps), levels, demoted⟩ rest
  | [], nodes, levels, rest, _ => .refl _ _
  | p :: ps, nodes, levels, rest, shallow => by
      rw [nestingAll] at shallow
      rw [yieldAll_cons, List.append_assoc]
      exact (reads_yield strict demoted p nodes levels _ (by omega)).trans
        (reads_yieldAll strict demoted ps _ levels rest (by omega))

theorem reads_yieldRest (strict : Bool) (demoted : List Demotion) :
    (c : Continuation) → (finished : List Branch) → (kind : BranchKind) → (condition : Option Text) → (line : Nat) →
      (opening : Token) → (before : List Node) → (levels : List Level) → (nodes : List Node) → (rest : List Token) →
      levels.length + 1 + nestingRest c ≤ nestingMax → kind ≠ .otherwise ∨ (∃ place, c = .close place) →
      Reads strict ⟨nodes, ⟨.chain finished kind condition line, opening, before⟩ :: levels, demoted⟩
        (yieldRest c ++ rest)
        ⟨.conditional (finished.reverse ++ .mk kind condition nodes.reverse line :: branches c) opening.position.line ::
          before, levels, demoted⟩ rest
  | .close place, finished, kind, condition, line, opening, before, levels, nodes, rest, _, _ => by
      rw [yieldRest, List.singleton_append, branches, ← List.reverse_cons]
      exact .step rfl (.refl _ _)
  | .otherwise place body close, finished, kind, condition, line, opening, before, levels, nodes, rest, shallow,
      once => by
      rw [nestingRest] at shallow
      have early : kind ≠ .otherwise := once.resolve_right (by simp)
      rw [yieldRest, List.cons_append, List.append_assoc, List.singleton_append]
      refine .step (step_of_fine (if_neg early)) ?_
      refine (reads_yieldAll strict demoted body _ _ _ (by simpa only [List.length_cons] using shallow)).trans ?_
      rw [branches, ← pushAll_nil, List.append_cons, ← List.reverse_cons, ← List.reverse_cons]
      exact .step rfl (.refl _ _)
  | .elseIf source place body more, finished, kind, condition, line, opening, before, levels, nodes, rest, shallow,
      once => by
      rw [nestingRest] at shallow
      have early : kind ≠ .otherwise := once.resolve_right (by simp)
      rw [yieldRest, List.cons_append, List.append_assoc]
      refine .step (step_of_fine (if_neg early)) ?_
      refine (reads_yieldAll strict demoted body _ _ _ (by simp only [List.length_cons]; omega)).trans ?_
      have last := reads_yieldRest strict demoted more (.mk kind condition nodes.reverse line :: finished) .elseIf
        (some source) place.position.line opening before levels (pushAll [] (Phrase.nodes body)) rest (by omega)
        (.inl nofun)
      rw [pushAll_nil, List.reverse_cons, List.append_assoc, List.singleton_append] at last
      exact last

end

/-! ## Phrases from a run -/

/-- Tokens begin with phrases that fit inside `depth` open directives, and nothing behind them continues the block. -/
def Begins (depth : Nat) (tokens : List Token) : Prop :=
  ∃ ps rest, tokens = yieldAll ps ++ rest ∧ Stops rest ∧ depth + nestingAll ps ≤ nestingMax

theorem Begins.of_stops {depth : Nat} {tokens : List Token} (shallow : depth ≤ nestingMax) (stops : Stops tokens) :
    Begins depth tokens := ⟨[], tokens, rfl, stops, shallow⟩

theorem Begins.cons {depth : Nat} {rest : List Token} (p : Phrase) (shallow : depth + p.nesting ≤ nestingMax)
    (h : Begins depth rest) : Begins depth (p.yield ++ rest) := by
  obtain ⟨ps, left, rfl, stops, shallow'⟩ := h
  refine ⟨p :: ps, left, by rw [yieldAll_cons, List.append_assoc], stops, ?_⟩
  rw [nestingAll]
  omega

theorem uncons_strict {b c : Builder} {token : Token} {rest : List Token} (run : Reads true b (token :: rest) c []) :
    b.problem? (opened token rest).isSome token.lexeme = none ∧ Reads true (b.accept token) rest c [] := by
  obtain ⟨next, taken, more⟩ := run.uncons (Nat.zero_le _)
  rcases step_eq_ok.mp taken with ⟨fine, rfl⟩ | ⟨_, _, strict, _⟩
  · exact ⟨fine, more⟩
  · cases strict

theorem Begins.resume {nodes : List Node} {levels : List Level} {demoted : List Demotion} {tokens : List Token}
    {c : Builder} (h : Begins levels.length tokens) (run : Reads true ⟨nodes, levels, demoted⟩ tokens c []) :
    ∃ ps rest, tokens = yieldAll ps ++ rest ∧ Stops rest ∧ levels.length + nestingAll ps ≤ nestingMax ∧
      Reads true ⟨pushAll nodes (Phrase.nodes ps), levels, demoted⟩ rest c [] := by
  obtain ⟨ps, rest, rfl, stops, deep⟩ := h
  exact ⟨ps, rest, rfl, stops, deep, run.resume (reads_yieldAll true demoted ps nodes levels rest deep) (Nat.zero_le _)⟩

mutual

theorem phrases_of_reads {c : Builder} (done : c.levels = []) (demoted : List Demotion) :
    (tokens : List Token) → (nodes : List Node) → (levels : List Level) →
      (∀ token ∈ tokens, token.lexeme ≠ .endOfText) → levels.length ≤ nestingMax →
      Reads true ⟨nodes, levels, demoted⟩ tokens c [] → Begins levels.length tokens
  | [], _, _, _, shallow, _ => .of_stops shallow stops_nil
  | ⟨.text content, position, raw⟩ :: rest, _, levels, inside, shallow, run =>
      .cons (.text content ⟨position, raw⟩) shallow
        (phrases_of_reads done demoted rest _ levels (List.forall_mem_cons.mp inside).2 shallow (uncons_strict run).2)
  | ⟨.interpolation source, position, raw⟩ :: rest, _, levels, inside, shallow, run =>
      .cons (.interpolation source ⟨position, raw⟩) shallow
        (phrases_of_reads done demoted rest _ levels (List.forall_mem_cons.mp inside).2 shallow (uncons_strict run).2)
  | ⟨.binding name expression, position, raw⟩ :: rest, _, levels, inside, shallow, run =>
      .cons (.binding name expression ⟨position, raw⟩) shallow
        (phrases_of_reads done demoted rest _ levels (List.forall_mem_cons.mp inside).2 shallow (uncons_strict run).2)
  | ⟨.endOfText, _, _⟩ :: _, _, _, inside, _, _ => absurd rfl (inside _ List.mem_cons_self)
  | ⟨.forClose, _, _⟩ :: _, _, _, _, shallow, _ => .of_stops shallow (stops_cons rfl)
  | ⟨.ifClose, _, _⟩ :: _, _, _, _, shallow, _ => .of_stops shallow (stops_cons rfl)
  | ⟨.elseIf _, _, _⟩ :: _, _, _, _, shallow, _ => .of_stops shallow (stops_cons rfl)
  | ⟨.otherwise, _, _⟩ :: _, _, _, _, shallow, _ => .of_stops shallow (stops_cons rfl)
  | ⟨.forOpen index item path, position, raw⟩ :: rest, nodes, levels, inside, shallow, run => by
      obtain ⟨fine, run⟩ := uncons_strict run
      obtain ⟨-, room, -⟩ := accept_opening rfl fine
      obtain ⟨body, left, rfl, stops, deep, run⟩ :=
        (phrases_of_reads done demoted rest [] (_ :: levels) (List.forall_mem_cons.mp inside).2 room run).resume run
      rw [List.length_cons] at deep
      cases left with
      | nil =>
          rw [run.eq_of_all_left rfl] at done
          cases done
      | cons token behind =>
          obtain ⟨fine, run⟩ := uncons_strict run
          obtain ⟨l, place, written⟩ := token
          -- No phrase begins here, and in a loop only its closing tag is without a problem.
          cases l <;> cases stops _ _ rfl <;> try cases fine
          have more := phrases_of_reads done demoted behind _ levels
            (fun token member => inside token (by simp [member])) shallow run
          have whole := more.cons (.loop index item path ⟨position, raw⟩ body ⟨place, written⟩)
            (by rw [nesting]; omega)
          simpa [yield, Place.token] using whole
  | ⟨.ifOpen condition, position, raw⟩ :: rest, nodes, levels, inside, shallow, run => by
      obtain ⟨fine, run⟩ := uncons_strict run
      obtain ⟨-, room, -⟩ := accept_opening rfl fine
      obtain ⟨body, left, rfl, stops, deep, run⟩ :=
        (phrases_of_reads done demoted rest [] (_ :: levels) (List.forall_mem_cons.mp inside).2 room run).resume run
      rw [List.length_cons] at deep
      obtain ⟨more, behind, rfl, deep', once⟩ := continuation_of_reads done demoted left [] .first _ _ _ _ levels _
        (fun token member => inside token (by simp [member])) room stops run
      have run := run.resume (reads_yieldRest true demoted more [] .first _ _ _ _ _ _ behind deep' once) (Nat.zero_le _)
      have more' := phrases_of_reads done demoted behind _ levels (fun token member => inside token (by simp [member]))
        shallow run
      have whole := more'.cons (.conditional condition ⟨position, raw⟩ body more) (by rw [nesting]; omega)
      simpa [yield, Place.token] using whole
termination_by tokens => tokens.length
decreasing_by all_goals (subst_vars; simp only [List.length_cons, List.length_append]; omega)

theorem continuation_of_reads {c : Builder} (done : c.levels = []) (demoted : List Demotion) :
    (tokens : List Token) → (finished : List Branch) → (kind : BranchKind) → (condition : Option Text) → (line : Nat) →
      (opening : Token) → (before : List Node) → (levels : List Level) → (nodes : List Node) →
      (∀ token ∈ tokens, token.lexeme ≠ .endOfText) → levels.length < nestingMax → Stops tokens →
      Reads true ⟨nodes, ⟨.chain finished kind condition line, opening, before⟩ :: levels, demoted⟩ tokens c [] →
      ∃ more rest, tokens = yieldRest more ++ rest ∧ levels.length + 1 + nestingRest more ≤ nestingMax ∧
        (kind ≠ .otherwise ∨ ∃ place, more = .close place)
  | [], _, _, _, _, _, _, _, _, _, _, _, run => by
      rw [run.eq_of_all_left rfl] at done
      cases done
  | ⟨l, position, raw⟩ :: rest, _, kind, _, _, _, _, levels, _, inside, room, stops, run => by
      obtain ⟨fine, run⟩ := uncons_strict run
      cases l with
      | ifClose => exact ⟨.close ⟨position, raw⟩, rest, rfl, room, .inr ⟨_, rfl⟩⟩
      | elseIf source =>
          have early : kind ≠ .otherwise := by simpa [problem?] using fine
          obtain ⟨body, left, rfl, stops, deep, run⟩ :=
            (phrases_of_reads done demoted rest [] (_ :: levels) (List.forall_mem_cons.mp inside).2 room run).resume run
          obtain ⟨more, behind, rfl, deep', -⟩ := continuation_of_reads done demoted left _ .elseIf _ _ _ _ _ _
            (fun token member => inside token (by simp [member])) room stops run
          refine ⟨.elseIf source ⟨position, raw⟩ body more, behind, by simp [yieldRest, Place.token], ?_, .inl early⟩
          rw [List.length_cons] at deep
          rw [nestingRest]
          omega
      | otherwise =>
          have early : kind ≠ .otherwise := by simpa [problem?] using fine
          obtain ⟨body, left, rfl, stops, deep, run⟩ :=
            (phrases_of_reads done demoted rest [] (_ :: levels) (List.forall_mem_cons.mp inside).2 room run).resume run
          obtain ⟨more, behind, rfl, -, last⟩ := continuation_of_reads done demoted left _ .otherwise _ _ _ _ _ _
            (fun token member => inside token (by simp [member])) room stops run
          obtain ⟨place, rfl⟩ := last.resolve_left (by simp)
          exact ⟨.otherwise ⟨position, raw⟩ body place, behind, by simp [yieldRest, Place.token], deep, .inl early⟩
      | forClose => cases fine
      | _ => cases stops _ _ rfl
termination_by tokens => tokens.length
decreasing_by all_goals (subst_vars; simp only [List.length_cons, List.length_append]; omega)

end

theorem reads_strict_iff {tokens : List Token} {c : Builder} (inside : ∀ token ∈ tokens, token.lexeme ≠ .endOfText) :
    Reads true .empty tokens c [] ↔
      ∃ ps, yieldAll ps = tokens ∧ nestingAll ps ≤ nestingMax ∧ c = ⟨pushAll [] (Phrase.nodes ps), [], []⟩ := by
  constructor
  · intro run
    have first := phrases_of_reads (run.levels_eq_nil rfl) [] tokens [] [] inside (Nat.zero_le _) run
    obtain ⟨ps, rest, rfl, stops, deep, run⟩ := first.resume run
    cases rest with
    | nil => exact ⟨ps, by simp, by simpa using deep, run.eq_of_all_left rfl⟩
    | cons token rest =>
        obtain ⟨fine, -⟩ := uncons_strict run
        have divides := stops _ _ rfl
        cases same : token.lexeme <;> rw [same] at fine divides <;> cases divides <;> cases fine
  · rintro ⟨ps, rfl, deep, rfl⟩
    have run := reads_yieldAll true [] ps [] [] [] (by simpa using deep)
    rwa [List.append_nil] at run

end Phrase

open Phrase Builder

theorem ofTokens_yieldAll {ps : List Phrase} (deep : nestingAll ps ≤ nestingMax) {stop : Token}
    (ends : stop.lexeme = .endOfText) (later : List Token) :
    Block.ofTokens true (yieldAll ps ++ stop :: later) = .ok (Phrase.block ps, []) := by
  have whole : upToEnd (yieldAll ps ++ stop :: later) = yieldAll ps := by
    rw [upToEnd, List.takeWhile_append_of_pos fun token member => decide_eq_true (yieldAll_inside ps token member),
      List.takeWhile_cons_of_neg (by simp [ends]), List.append_nil]
  have run := reads_yieldAll true [] ps [] [] [] (by simpa using deep)
  rw [List.append_nil, ← whole] at run
  exact Block.ofTokens_eq_ok.mpr ⟨_, run, pushAll_nil _, rfl⟩

/--
Strict reading gives a block exactly when the tokens up to the end are the yield of phrases with at most `nestingMax`
loops and conditionals inside each other. The block is then the one these phrases stand for, and no other phrases
have the same yield.
-/
theorem ofTokens_strict_iff (tokens : List Token) :
    (∀ block demoted, Block.ofTokens true tokens = .ok (block, demoted) ↔
      demoted = [] ∧ ∃ ps, yieldAll ps = upToEnd tokens ∧ nestingAll ps ≤ nestingMax ∧ Phrase.block ps = block) ∧
    ∀ ps qs, yieldAll ps = upToEnd tokens → yieldAll qs = upToEnd tokens → ps = qs := by
  have inside : ∀ token ∈ upToEnd tokens, token.lexeme ≠ .endOfText := by
    intro token member
    simpa using List.all_eq_true.mp List.all_takeWhile token member
  constructor
  · intro block demoted
    rw [Block.ofTokens_eq_ok]
    constructor
    · rintro ⟨c, run, rfl, rfl⟩
      obtain ⟨ps, spelled, deep, rfl⟩ := (reads_strict_iff inside).mp run
      exact ⟨rfl, ps, spelled, deep, (pushAll_nil _).symm⟩
    · rintro ⟨rfl, ps, spelled, deep, rfl⟩
      exact ⟨_, (reads_strict_iff inside).mpr ⟨ps, spelled, deep, rfl⟩, pushAll_nil _, rfl⟩
  · intro ps qs first second
    exact yieldAll_injective (first.trans second.symm)

end TextTemplate
