import TextTemplate.Proofs.Block.Grammar
import TextTemplate.Proofs.Block.Height
import TextTemplate.Proofs.Token.Spelling

namespace TextTemplate
open Lexer

namespace Node

mutual

def unlined : Node → Node
  | text content => text content
  | interpolation source _ => interpolation source 0
  | binding name expression _ => binding name expression 0
  | loop index item path body _ => loop index item path (unlinedAll body) 0
  | conditional branches _ => conditional (unlinedBranches branches) 0

def unlinedAll : List Node → List Node
  | [] => []
  | node :: rest => node.unlined :: unlinedAll rest

def unlinedBranches : List Branch → List Branch
  | [] => []
  | .mk kind condition body _ :: rest => .mk kind condition (unlinedAll body) 0 :: unlinedBranches rest

end

theorem unlinedAll_eq_map (block : List Node) : unlinedAll block = block.map unlined := by
  induction block with
  | nil => rfl
  | cons node rest ih => rw [unlinedAll, ih, List.map_cons]

end Node

namespace Block
open Node

theorem map_prependText (t : Text) (block : Block) :
    (prependText t block).map unlined = prependText t (block.map unlined) := by
  by_cases empty : t = []
  · simp [prependText, empty]
  · rcases block with _ | ⟨node, rest⟩
    · simp [prependText, empty, unlined]
    · cases node <;> simp [prependText, empty, unlined]

theorem map_merged (nodes : List Node) : (merged nodes).map unlined = merged (nodes.map unlined) := by
  induction nodes with
  | nil => rfl
  | cons node rest ih =>
      cases node with
      | text t => rw [merged, map_prependText, ih, List.map_cons, unlined, merged]
      | _ => simp [merged, unlined, ih]

theorem map_trimStart (block : Block) : (trimStart block).map unlined = trimStart (block.map unlined) := by
  rcases block with _ | ⟨node, rest⟩
  · rfl
  · cases node <;> simp [trimStart, unlined]

theorem map_trimEnd (block : Block) : (trimEnd block).map unlined = trimEnd (block.map unlined) := by
  rcases List.eq_nil_or_concat block with rfl | ⟨rest, node, rfl⟩
  · rfl
  · cases node <;> simp [trimEnd, unlined]

theorem isEmptyText_unlined (node : Node) : isEmptyText node.unlined = isEmptyText node := by
  cases node <;> rfl

theorem map_trimmed (block : Block) : (trimmed block).map unlined = trimmed (block.map unlined) := by
  rw [trimmed, trimmed, ← map_trimStart, ← map_trimEnd, List.filter_map]
  simp only [Function.comp_def, isEmptyText_unlined]

theorem prependText_append (t u : Text) (block : Block) :
    prependText (t ++ u) block = prependText t (prependText u block) := by
  by_cases empty : t = []
  · simp [prependText, empty]
  · by_cases empty' : u = []
    · simp [prependText, empty']
    · rcases block with _ | ⟨node, rest⟩
      · simp [prependText, empty, empty']
      · cases node <;> simp [prependText, empty, empty']

@[simp] theorem prependText_nil (block : Block) : prependText [] block = block := by simp [prependText]

theorem merged_concat_text (nodes : List Node) (t : Text) :
    merged (nodes ++ [.text t]) = (Builder.pushText t (merged nodes).reverse).reverse := by
  rw [← Builder.pushAll_nil, ← Builder.pushAll_nil nodes, List.reverse_reverse, Builder.pushAll, List.foldl_append]
  rfl

theorem filter_of_full {block : Block} (full : Full block) : block.filter (fun node => !isEmptyText node) = block :=
  List.filter_eq_self.mpr fun node member => by simp [full node member]

theorem trimmed_prependText_break {block : Block} (full : Full block) :
    trimmed (prependText ['\n'] block) = (trimEnd block).filter fun node => !isEmptyText node := by
  have apart : trimStart (prependText ['\n'] block) = block ∨
      trimStart (prependText ['\n'] block) = .text [] :: block := by
    rcases block with _ | ⟨node, rest⟩
    · exact .inr rfl
    · cases node with
      | text t => exact .inl rfl
      | _ => exact .inr rfl
  rw [trimmed]
  rcases apart with same | same
  · rw [same]
  · rw [same]
    rcases List.eq_nil_or_concat block with rfl | ⟨rest, node, rfl⟩
    · rfl
    · rw [List.concat_eq_append, ← List.cons_append, Builder.trimEnd_concat, Builder.trimEnd_concat, List.cons_append,
        List.filter_cons_of_neg (by simp [isEmptyText])]

theorem dropLastBreak_concat {t : Text} (plain : '\r' ∉ t) : (t ++ ['\n']).dropLastBreak = t := by
  refine Text.dropLastBreak_eq_iff.mpr (.inr (.inl ⟨rfl, ?_⟩))
  rintro rest rfl
  simp at plain

theorem trimmed_between_breaks {nodes : List Node} (plain : ∀ t, .text t ∈ merged nodes → '\r' ∉ t) :
    trimmed (merged (.text ['\n'] :: (nodes ++ [.text ['\n']]))) = merged nodes := by
  have full := merged_full nodes
  rw [merged, trimmed_prependText_break (merged_full _), merged_concat_text]
  generalize merged nodes = block at plain full
  rcases List.eq_nil_or_concat block with rfl | ⟨rest, last, rfl⟩
  · rfl
  · rw [List.concat_eq_append] at plain full ⊢
    rw [List.reverse_append, List.reverse_singleton, List.singleton_append]
    cases last with
    | text t =>
        have joined : Builder.pushText ['\n'] (.text t :: rest.reverse) = .text (t ++ ['\n']) :: rest.reverse := rfl
        rw [joined, List.reverse_cons, List.reverse_reverse, Builder.trimEnd_concat, Builder.retext,
          dropLastBreak_concat (plain t (by simp)), filter_of_full full]
    | _ =>
        rw [Builder.pushText_of_apart (by simp) (by simp), List.reverse_cons, List.reverse_cons, List.reverse_reverse,
          Builder.trimEnd_concat, List.filter_append, filter_of_full full]
        exact List.append_nil _

end Block

/-! ## Printing -/

def Lexeme.printed : Lexeme → Text
  | .binding name expression => (Lexeme.binding name expression).shown ++ ['\n']
  | l => l.shown

def BranchKind.tag : BranchKind → Option Text → Lexeme
  | .first, some condition => .ifOpen condition
  | .elseIf, some condition => .elseIf condition
  | _, _ => .otherwise

namespace Node

mutual

def print : Node → Text
  | text content => content
  | interpolation source _ => (Lexeme.interpolation source).printed
  | binding name expression _ => (Lexeme.binding name expression).printed
  | loop index item path body _ =>
      (Lexeme.forOpen index item path).printed ++ ('\n' :: (printAll body ++ ('\n' :: Lexeme.forClose.printed)))
  | conditional branches _ => printBranches branches

def printAll : List Node → Text
  | [] => []
  | node :: rest => node.print ++ printAll rest

def printBranches : List Branch → Text
  | [] => Lexeme.ifClose.printed
  | .mk kind condition body _ :: rest => (kind.tag condition).printed ++ (printAll body ++ printBranches rest)

end

end Node

def PlainText (t : Text) : Prop := ∀ c ∈ t, isMark c = false ∧ c ≠ '\r'

instance (t : Text) : Decidable (PlainText t) :=
  decidable_of_decidable_of_iff (p := (t.all fun c => isMark c = false ∧ c ≠ '\r') = true) (by simp [PlainText])

inductive FurtherBranches : List Branch → Prop
  | nil : FurtherBranches []
  | elseIf {condition : Text} {body : Block} {line : Nat} {rest : List Branch} :
      FurtherBranches rest → FurtherBranches (.mk .elseIf (some condition) body line :: rest)
  | otherwise {body : Block} {line : Nat} : FurtherBranches [.mk .otherwise none body line]

inductive WholeBranches : List Branch → Prop
  | first {condition : Text} {body : Block} {line : Nat} {rest : List Branch} :
      FurtherBranches rest → WholeBranches (.mk .first (some condition) body line :: rest)

namespace Node

mutual

/-- A node that can be written: its texts and tags are told apart, and its branches are in order. -/
def Printable : Node → Prop
  | text content => content ≠ [] ∧ PlainText content
  | interpolation source _ => (Lexeme.interpolation source).Spellable
  | binding name expression _ => (Lexeme.binding name expression).Spellable
  | loop index item path body _ => (Lexeme.forOpen index item path).Spellable ∧ PrintableAll body
  | conditional branches _ => WholeBranches branches ∧ PrintableBranches branches

def PrintableAll : List Node → Prop
  | [] => True
  | node :: rest =>
      node.Printable ∧ (node.isDirective = true ∨ ∀ next ∈ rest.head?, next.isDirective = true) ∧ PrintableAll rest

def PrintableBranches : List Branch → Prop
  | [] => True
  | .mk kind condition body _ :: rest =>
      (kind.tag condition).Spellable ∧ PrintableAll body ∧ PrintableBranches rest

end

end Node

/-! ## Tokens of printed text -/

namespace Lexer

theorem printed_ne_nil (l : Lexeme) : l.printed ≠ [] := by
  cases l with
  | forOpen index item path => cases index <;> exact List.cons_ne_nil _ _
  | _ => exact List.cons_ne_nil _ _

theorem cut_printed {l : Lexeme} (h : l.Spellable) (rest : Text) :
    cut (l.printed ++ rest) = .tag l l.printed :: cut rest := by
  cases l with
  | binding name expression =>
      have split : (Lexeme.binding name expression).printed ++ rest =
          (Lexeme.binding name expression).shown ++ ('\n' :: rest) := by
        rw [Lexeme.printed, List.append_assoc, List.singleton_append]
      refine cut_of_tag ?_ rfl (printed_ne_nil _)
      rw [split, tag?_shown h]
      rfl
  | _ => exact cut_of_tag (tag?_shown h rest) rfl (printed_ne_nil _)

theorem assemble_printed {l : Lexeme} (h : l.Spellable) (position : Position) (rest : Text) :
    assemble position (cut (l.printed ++ rest)) =
      Place.token ⟨position, l.printed⟩ l :: assemble (position.skip l.printed) (cut rest) := by
  rw [cut_printed h]
  rfl

def Closed (ps : List Piece) : Prop := ps = [] ∨ ∃ l raw rest, ps = .tag l raw :: rest ∧ l.Spellable

theorem closed_nil : Closed (cut []) := .inl rfl

theorem closed_printed {l : Lexeme} (h : l.Spellable) (rest : Text) : Closed (cut (l.printed ++ rest)) :=
  .inr ⟨_, _, _, cut_printed h rest, h⟩

theorem assemble_text {ps : List Piece} (closed : Closed ps) (position : Position) {t : Text} (full : t ≠ []) :
    assemble position (t.map .char ++ ps) = ⟨.text t, position, []⟩ :: assemble (position.skip t) ps := by
  induction t generalizing position with
  | nil => exact absurd rfl full
  | cons c t ih =>
      rw [List.map_cons, List.cons_append, assemble]
      cases t with
      | nil =>
          rcases closed with rfl | ⟨l, raw, rest, rfl, spelled⟩
          · rfl
          · cases l <;> first | rfl | cases spelled
      | cons d t =>
          rw [ih (position.after c) (List.cons_ne_nil d t)]
          rfl

end Lexer

namespace Phrase
open Node Block

def ofText (t : Text) (position : Position) : List Phrase := if t = [] then [] else [.text t ⟨position, []⟩]

theorem assemble_ofText {t rest : Text} (plain : ∀ c ∈ t, isMark c = false) (closed : Closed (cut rest))
    (position : Position) :
    assemble position (cut (t ++ rest)) = yieldAll (ofText t position) ++ assemble (position.skip t) (cut rest) := by
  rw [cut_plain plain]
  by_cases empty : t = []
  · subst empty
    rfl
  · rw [assemble_text closed position empty, ofText, if_neg empty]
    rfl

theorem merged_ofText (t : Text) (position : Position) (ps : List Phrase) :
    merged (nodes (ofText t position ++ ps)) = prependText t (merged (nodes ps)) := by
  by_cases empty : t = []
  · simp [ofText, empty]
  · rw [ofText, if_neg empty]
    rfl

theorem nestingAll_ofText (t : Text) (position : Position) (ps : List Phrase) :
    nestingAll (ofText t position ++ ps) = nestingAll ps := by
  by_cases empty : t = []
  · simp [ofText, empty]
  · rw [ofText, if_neg empty, List.singleton_append, nestingAll, nesting, Nat.zero_max]

theorem yieldAll_append (ps qs : List Phrase) : yieldAll (ps ++ qs) = yieldAll ps ++ yieldAll qs := by
  induction ps with
  | nil => rfl
  | cons p ps ih => rw [List.cons_append, yieldAll_cons, ih, yieldAll_cons, List.append_assoc]

theorem closed_print {node : Node} (directive : node.isDirective = true) (h : node.Printable) (rest : Text) :
    Closed (cut (node.print ++ rest)) := by
  cases node with
  | text content => cases directive
  | interpolation source line => exact closed_printed (l := .interpolation source) h rest
  | binding name expression line => exact closed_printed (l := .binding name expression) h rest
  | loop index item path body line =>
      rw [print, List.append_assoc]
      exact closed_printed h.1 _
  | conditional branches line =>
      obtain ⟨⟨further⟩, spelled, -⟩ := h
      rw [print, printBranches, List.append_assoc]
      exact closed_printed spelled _

theorem closed_branches {branches : List Branch} (further : FurtherBranches branches) (h : PrintableBranches branches)
    (rest : Text) : Closed (cut (printBranches branches ++ rest)) := by
  cases further with
  | nil => exact closed_printed (l := .ifClose) trivial rest
  | _ =>
      rw [printBranches, List.append_assoc]
      exact closed_printed h.1 _

theorem printable_of_mem {block : List Node} (h : PrintableAll block) {node : Node} (member : node ∈ block) :
    node.Printable := by
  induction block with
  | nil => cases member
  | cons first rest ih =>
      rcases List.mem_cons.mp member with rfl | later
      · exact h.1
      · exact ih h.2.2 later

theorem merged_of_directive {node : Node} (directive : node.isDirective = true) (rest : List Node) :
    merged (node :: rest) = node :: merged rest := by
  cases node with
  | text content => cases directive
  | _ => rfl

theorem merged_of_printable {block : List Node} (h : PrintableAll block) : merged block = block := by
  induction block with
  | nil => rfl
  | cons node rest ih =>
      obtain ⟨printable, apart, more⟩ := h
      by_cases directive : node.isDirective = true
      · rw [merged_of_directive directive, ih more]
      · cases node with
        | text content =>
            rw [merged, ih more]
            cases rest with
            | nil => simp [prependText, printable.1]
            | cons next rest =>
                have other := apart.resolve_left directive next rfl
                cases next with
                | text _ => cases other
                | _ => simp [prependText, printable.1]
        | _ => exact absurd rfl directive

theorem unlined_of_bare {body : List Node} (h : PrintableAll body) {ps : List Phrase}
    (same : (merged (nodes ps)).map unlined = merged (.text [] :: (body.map unlined ++ [.text []]))) :
    unlinedAll (merged (nodes ps)) = unlinedAll body := by
  rw [unlinedAll_eq_map, unlinedAll_eq_map, same, merged, prependText_nil, merged_concat_text, Builder.pushText_nil,
    List.reverse_reverse, ← map_merged, merged_of_printable h]

theorem unlined_of_breaks {body : List Node} (h : PrintableAll body) {ps : List Phrase}
    (same : (merged (nodes ps)).map unlined = merged (.text ['\n'] :: (body.map unlined ++ [.text ['\n']]))) :
    unlinedAll (trimmed (merged (nodes ps))) = unlinedAll body := by
  have clean : merged (body.map unlined) = body.map unlined := by rw [← map_merged, merged_of_printable h]
  rw [unlinedAll_eq_map, unlinedAll_eq_map, map_trimmed, same, trimmed_between_breaks, clean]
  intro t member
  rw [clean, List.mem_map] at member
  obtain ⟨node, inside, same⟩ := member
  have printable := printable_of_mem h inside
  cases node <;> cases same
  exact fun bad => (printable.2 _ bad).2 rfl

theorem plain_break : ∀ c ∈ ['\n'], isMark c = false := by simp [isMark]

mutual

theorem exists_phrase :
    (node : Node) → node.isDirective = true → node.Printable → (position : Position) → (rest : Text) →
      ∃ p behind, assemble position (cut (node.print ++ rest)) = yield p ++ assemble behind (cut rest) ∧
        p.node.unlined = node.unlined ∧ p.nesting = node.height
  | .text _, directive, _, _, _ => nomatch directive
  | .interpolation source line, _, h, position, rest =>
      ⟨.interpolation source ⟨position, _⟩, _, assemble_printed (l := .interpolation source) h position rest, rfl, rfl⟩
  | .binding name expression line, _, h, position, rest =>
      ⟨.binding name expression ⟨position, _⟩, _, assemble_printed (l := .binding name expression) h position rest, rfl,
        rfl⟩
  | .loop index item path body line, _, h, position, rest => by
      obtain ⟨ps, behind, read, same, height⟩ := exists_phrases body h.2 ['\n'] ['\n'] plain_break plain_break
        (position.skip (Lexeme.forOpen index item path).printed) (Lexeme.forClose.printed ++ rest)
        (closed_printed (l := .forClose) trivial rest)
      rw [assemble_printed (l := .forClose) trivial] at read
      refine ⟨.loop index item path ⟨position, (Lexeme.forOpen index item path).printed⟩ ps
        ⟨behind, Lexeme.forClose.printed⟩, behind.skip Lexeme.forClose.printed, ?_, ?_, ?_⟩
      · rw [print, List.append_assoc, assemble_printed h.1]
        simp only [List.cons_append, List.nil_append, List.append_assoc] at read ⊢
        rw [read, yield]
        simp
      · rw [Phrase.node, unlined, unlined_of_breaks h.2 same, unlined]
      · rw [nesting, height, Node.height]
  | .conditional (.mk kind condition body line :: more) place, _, ⟨whole, spelled, printable, printable'⟩, position,
      rest => by
      cases whole with
      | @first condition _ _ _ further =>
          change (Lexeme.ifOpen condition).Spellable at spelled
          obtain ⟨ps, middle, read, same, height⟩ := exists_phrases body printable [] [] nofun nofun
            (position.skip (Lexeme.ifOpen condition).printed) (printBranches more ++ rest)
            (closed_branches further printable' rest)
          obtain ⟨c, behind, read', same', height'⟩ := exists_continuation more further printable' middle rest
          refine ⟨.conditional condition ⟨position, (Lexeme.ifOpen condition).printed⟩ ps c, behind, ?_, ?_, ?_⟩
          · rw [print, printBranches, BranchKind.tag, List.append_assoc, assemble_printed spelled]
            simp only [List.append_assoc, List.nil_append] at read ⊢
            rw [read, read', yield, List.cons_append, List.append_assoc]
          · rw [Phrase.node, unlined, unlinedBranches, unlined_of_bare printable same, same', unlined, unlinedBranches]
          · rw [nesting, height, height', Node.height, branchHeights_cons]
  | .conditional [] _, _, h, _, _ => nomatch h.1

theorem exists_phrases :
    (block : List Node) → PrintableAll block → (u v : Text) → (∀ c ∈ u, isMark c = false) →
      (∀ c ∈ v, isMark c = false) → (position : Position) → (rest : Text) → Closed (cut rest) →
      ∃ ps behind, assemble position (cut (u ++ (printAll block ++ (v ++ rest)))) =
          yieldAll ps ++ assemble behind (cut rest) ∧
        (merged (nodes ps)).map unlined = merged (.text u :: (block.map unlined ++ [.text v])) ∧
        nestingAll ps = heights block
  | [], _, u, v, plain, plain', position, rest, closed => by
      have plain : ∀ c ∈ u ++ v, isMark c = false := by
        intro c member
        rcases List.mem_append.mp member with before | behind
        · exact plain c before
        · exact plain' c behind
      have flat := merged_ofText (u ++ v) position []
      have low := nestingAll_ofText (u ++ v) position []
      rw [List.append_nil] at flat low
      refine ⟨ofText (u ++ v) position, position.skip (u ++ v), ?_, ?_, low⟩
      · rw [printAll, List.nil_append, ← List.append_assoc, assemble_ofText plain closed]
      · rw [flat, map_prependText, prependText_append]
        rfl
  | node :: block, h, u, v, plain, plain', position, rest, closed => by
      by_cases directive : node.isDirective = true
      · have closed' := closed_print directive h.1 (printAll block ++ (v ++ rest))
        obtain ⟨p, middle, read, same, height⟩ :=
          exists_phrase node directive h.1 (position.skip u) (printAll block ++ (v ++ rest))
        obtain ⟨ps, behind, read', same', height'⟩ := exists_phrases block h.2.2 [] v nofun plain' middle rest closed
        rw [List.nil_append] at read'
        refine ⟨ofText u position ++ p :: ps, behind, ?_, ?_, ?_⟩
        · rw [printAll, List.append_assoc, assemble_ofText plain closed', read, read', yieldAll_append, yieldAll_cons,
            List.append_assoc, List.append_assoc]
        · have directive' : node.unlined.isDirective = true := by cases node <;> first | rfl | cases directive
          have tail : merged ((nodes ps).map unlined) = merged (block.map unlined ++ [.text v]) := by
            rw [← map_merged, same', merged, prependText_nil]
          rw [merged_ofText, map_prependText, map_merged, nodes, List.map_cons, same, merged_of_directive directive',
            tail, List.map_cons, List.cons_append, merged, merged_of_directive directive']
        · rw [nestingAll_ofText, nestingAll, height, height', heights_cons]
      · cases node with
        | text t =>
            -- The text joins the one before it, and waits for the next directive with it.
            have joint : ∀ c ∈ u ++ t, isMark c = false := by
              intro c member
              rcases List.mem_append.mp member with before | own
              · exact plain c before
              · exact (h.1.2 c own).1
            obtain ⟨ps, behind, read, same, height⟩ :=
              exists_phrases block h.2.2 (u ++ t) v joint plain' position rest closed
            refine ⟨ps, behind, ?_, ?_, ?_⟩
            · rw [printAll, print, ← read, List.append_assoc, List.append_assoc]
            · rw [same, merged, prependText_append]
              rfl
            · rw [height, heights_cons, Node.height, Nat.zero_max]
        | _ => exact absurd rfl directive

theorem exists_continuation :
    (branches : List Branch) → FurtherBranches branches → PrintableBranches branches → (position : Position) →
      (rest : Text) →
      ∃ c behind, assemble position (cut (printBranches branches ++ rest)) =
          yieldRest c ++ assemble behind (cut rest) ∧
        unlinedBranches (Phrase.branches c) = unlinedBranches branches ∧ nestingRest c = branchHeights branches
  | [], _, _, position, rest =>
      ⟨.close ⟨position, _⟩, _, assemble_printed (l := .ifClose) trivial position rest, rfl, rfl⟩
  | .mk kind condition body line :: more, further, ⟨spelled, printable, printable'⟩, position, rest => by
      cases further with
      | @elseIf condition _ _ _ further =>
          change (Lexeme.elseIf condition).Spellable at spelled
          obtain ⟨ps, middle, read, same, height⟩ := exists_phrases body printable [] [] nofun nofun
            (position.skip (Lexeme.elseIf condition).printed) (printBranches more ++ rest)
            (closed_branches further printable' rest)
          obtain ⟨c, behind, read', same', height'⟩ := exists_continuation more further printable' middle rest
          refine ⟨.elseIf condition ⟨position, (Lexeme.elseIf condition).printed⟩ ps c, behind, ?_, ?_, ?_⟩
          · rw [printBranches, BranchKind.tag, List.append_assoc, assemble_printed spelled]
            simp only [List.append_assoc, List.nil_append] at read ⊢
            rw [read, read', yieldRest, List.cons_append, List.append_assoc]
          · rw [Phrase.branches, unlinedBranches, unlined_of_bare printable same, same', unlinedBranches]
          · rw [nestingRest, height, height', branchHeights_cons]
      | otherwise =>
          obtain ⟨ps, behind, read, same, height⟩ := exists_phrases body printable [] [] nofun nofun
            (position.skip Lexeme.otherwise.printed) (Lexeme.ifClose.printed ++ rest)
            (closed_printed (l := .ifClose) trivial rest)
          rw [assemble_printed (l := .ifClose) trivial] at read
          refine ⟨.otherwise ⟨position, Lexeme.otherwise.printed⟩ ps ⟨behind, Lexeme.ifClose.printed⟩,
            behind.skip Lexeme.ifClose.printed, ?_, ?_, ?_⟩
          · rw [printBranches, printBranches, show BranchKind.otherwise.tag none = .otherwise from rfl,
              List.append_assoc, assemble_printed (l := .otherwise) trivial]
            simp only [List.append_assoc, List.nil_append] at read ⊢
            rw [read, yieldRest]
            simp
          · rw [Phrase.branches, unlinedBranches, unlined_of_bare printable same]
            rfl
          · rw [nestingRest, height, branchHeights_cons, branchHeights_nil, Nat.max_zero]

end

end Phrase

open Node

/--
A block that can be written and is not nested too deeply is read back, strictly, from the template it is printed as: the
same nodes with the same texts, sources, names, paths and branches, lines aside.
-/
theorem scan_print (block : Block) (printable : PrintableAll block) (shallow : heights block ≤ nestingMax) :
    ∃ read, Block.ofTokens true (Token.scan (printAll block)) = .ok (read, []) ∧
      unlinedAll read = unlinedAll block := by
  obtain ⟨ps, behind, scanned, same, height⟩ :=
    Phrase.exists_phrases block printable [] [] nofun nofun .start [] closed_nil
  rw [List.nil_append, List.append_nil, List.append_nil] at scanned
  have tokens : Token.scan (printAll block) = Phrase.yieldAll ps ++ [⟨.endOfText, behind, []⟩] := scanned
  rw [tokens]
  exact ⟨_, ofTokens_yieldAll (height ▸ shallow) rfl [], Phrase.unlined_of_bare printable same⟩

def sample : Block :=
  [.text "Dear ".toList, .interpolation "name".toList 1, .binding "n".toList "a + b".toList 1,
    .loop (some "i".toList) "x".toList "order.items[0]".toList
      [.conditional
        [.mk .first (some "x > 1".toList) [.binding "m".toList "x".toList 3] 3,
          .mk .elseIf (some "x".toList) [.loop none "y".toList "x".toList [] 4] 4,
          .mk .otherwise none [.text "none\n".toList] 5] 3] 2]

theorem scan_print_sample :
    PrintableAll sample ∧ heights sample ≤ nestingMax ∧
      ∃ read, Block.ofTokens true (Token.scan (printAll sample)) = .ok (read, []) ∧
        unlinedAll read = unlinedAll sample := by
  have path : IsPath "order.items[0]".toList :=
    ⟨"order".toList, ".items[0]".toList, by decide +kernel,
      @IsSegments.key "items".toList _ (by decide +kernel)
        (@IsSegments.index ['0'] _ (by decide) (List.forall_mem_singleton.mpr rfl) .nil), rfl⟩
  have short : IsPath ['x'] := ⟨['x'], [], by decide +kernel, .nil, rfl⟩
  have inner : PrintableBranches
      [.mk .first (some "x > 1".toList) [.binding "m".toList "x".toList 3] 3,
        .mk .elseIf (some "x".toList) [.loop none "y".toList "x".toList [] 4] 4,
        .mk .otherwise none [.text "none\n".toList] 5] :=
    ⟨⟨by decide, by decide⟩, ⟨⟨by decide +kernel, by decide, by decide⟩, .inl rfl, trivial⟩,
      ⟨by decide, by decide⟩, ⟨⟨⟨nofun, by decide +kernel, short⟩, trivial⟩, .inl rfl, trivial⟩,
      trivial, ⟨⟨by decide, by decide⟩, .inr nofun, trivial⟩, trivial⟩
  have printable : PrintableAll sample :=
    ⟨⟨by decide, by decide⟩, .inr (by rintro _ ⟨⟩; rfl), ⟨by decide, by decide⟩, .inl rfl,
      ⟨by decide +kernel, by decide, by decide⟩, .inl rfl,
      ⟨⟨by rintro _ ⟨⟩; decide +kernel, by decide +kernel, path⟩,
        ⟨⟨.first (.elseIf .otherwise), inner⟩, .inl rfl, trivial⟩⟩, .inl rfl, trivial⟩
  have shallow : heights sample ≤ nestingMax := by decide
  exact ⟨printable, shallow, scan_print sample printable shallow⟩

end TextTemplate
