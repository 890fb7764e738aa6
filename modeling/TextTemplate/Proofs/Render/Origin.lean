import TextTemplate.Proofs.Context.History
import TextTemplate.Proofs.Expr.Quoted
import TextTemplate.Proofs.Render.Lenient
import TextTemplate.Proofs.Value.Unmarked

/-!
# Where the characters of an output come from

Data without marks has no part in the marks of an output. Such an output is made of the texts that the template holds
itself, whole and one behind the other, and of characters that are no marks (`render_madeOf`). The texts of a template
are its literal texts, tags that were kept as text included, and the string literals that it shows or binds.
-/

namespace TextTemplate
open Lexer Builder

def Operand.texts : Operand → List Text
  | .literal (.text t) => [t]
  | _ => []

def Expr.texts : Expr → List Text
  | .operand o => o.texts
  | .condition _ => []
  | .ternary _ whenTrue whenFalse => whenTrue.texts ++ whenFalse.texts

def Expr.textsIn (source : Text) : List Text :=
  match Expr.read source with
  | .ok e => e.texts
  | .error _ => []

namespace Node

mutual

def texts : Node → List Text
  | text content => [content]
  | interpolation source _ => Expr.textsIn source
  | binding _ expression _ => Expr.textsIn expression
  | loop _ _ _ body _ => blockTexts body
  | conditional branches _ => branchTexts branches

def blockTexts : List Node → List Text
  | [] => []
  | node :: rest => node.texts ++ blockTexts rest

def branchTexts : List Branch → List Text
  | [] => []
  | .mk _ _ body _ :: rest => blockTexts body ++ branchTexts rest

end

end Node

def Template.texts (t : Template) : List Text := Node.blockTexts t.block

variable {own : List Text}

/-- A text is made of others, each of them whole, and of characters that are no marks. -/
inductive Text.MadeOf (own : List Text) : Text → Prop
  | nil : MadeOf own []
  | whole {s t : Text} : s ∈ own → MadeOf own t → MadeOf own (s ++ t)
  | char {c : Char} {t : Text} : isMark c = false → MadeOf own t → MadeOf own (c :: t)

namespace Text.MadeOf
variable {t u : Text}

theorem append (h : MadeOf own t) (h' : MadeOf own u) : MadeOf own (t ++ u) := by
  induction h with
  | nil => exact h'
  | whole member _ ih =>
      rw [List.append_assoc]
      exact .whole member ih
  | char plain _ ih => exact .char plain ih

theorem of_mem (member : t ∈ own) : MadeOf own t := by
  rw [← List.append_nil t]
  exact .whole member .nil

theorem of_unmarked (h : t.Unmarked) : MadeOf own t := by
  induction t with
  | nil => exact .nil
  | cons c t ih =>
      obtain ⟨first, rest⟩ := List.forall_mem_cons.mp h
      exact .char first (ih rest)

theorem lines {parts : List Text} (h : ∀ part ∈ parts, MadeOf own part) : MadeOf own (Text.join ['\n'] parts) := by
  rw [Text.join]
  induction parts with
  | nil => exact .nil
  | cons first rest ih =>
      obtain ⟨made, more⟩ := List.forall_mem_cons.mp h
      by_cases last : rest = []
      · rw [last, List.intercalate_singleton]
        exact made
      · rw [List.intercalate_cons_of_ne_nil last]
        exact (made.append (.char rfl .nil)).append (ih more)

end Text.MadeOf

def Value.MadeOf (own : List Text) (v : Value) : Prop := v.isUnmarked = true ∨ ∃ t, v = .text t ∧ t.MadeOf own

namespace Value.MadeOf
variable {v w : Value}

theorem display (h : v.MadeOf own) : Text.MadeOf own (Value.display (some v)) := by
  rcases h with plain | ⟨t, rfl, made⟩
  · exact .of_unmarked (display_unmarked plain)
  · exact made

theorem step? {segment : Text} (h : v.MadeOf own) (steps : v.step? segment = some w) : w.MadeOf own := by
  rcases h with plain | ⟨t, rfl, -⟩
  · exact .inl (step?_unmarked plain steps)
  · -- A step leads from a text to its length.
    rw [Value.step?] at steps
    split at steps
    · cases steps
      exact .inl rfl
    · cases steps

theorem walk? {segments : List Text} (h : v.MadeOf own) (walks : v.walk? segments = some w) : w.MadeOf own := by
  induction segments generalizing v with
  | nil =>
      cases walks
      exact h
  | cons segment rest ih =>
      rw [Value.walk?, List.foldlM_cons] at walks
      obtain ⟨next, steps, walks⟩ := Option.bind_eq_some_iff.mp walks
      exact ih (h.step? steps) walks

theorem item {items : List Value} (h : (Value.array items).MadeOf own) {i : Nat} (found : items[i]? = some v) :
    v.isUnmarked = true := by
  rcases h with plain | ⟨t, same, -⟩
  · exact itemsUnmarked_iff.mp plain v (List.mem_of_getElem? found)
  · cases same

end Value.MadeOf

def Context.MadeOf (own : List Text) (ctx : Context) : Prop := ∀ name v, ctx.get? name = some v → v.MadeOf own

namespace Context.MadeOf
variable {ctx : Context}

theorem ofRoot {data : Entries} (plain : Value.entriesUnmarked data = true) : (Context.ofRoot data).MadeOf own :=
  fun _ _ found => .inl (Value.entriesUnmarked_get? plain found)

theorem ofIteration {element : Value} (plain : element.isUnmarked = true) (item : Text)
    (index : Option (Text × Nat)) : (Context.ofIteration element item index).MadeOf own := by
  intro name v found
  rw [Context.get?_ofIteration, Option.or_eq_some_iff] at found
  rcases found with position | ⟨-, field⟩
  · obtain ⟨⟨_, place⟩, -, same⟩ := Option.bind_eq_some_iff.mp position
    simp only at same
    split at same
    · cases same
      exact .inl rfl
    · cases same
  · cases element with
    | object entries => exact .inl (Value.entriesUnmarked_get? plain field)
    | _ => cases field

theorem bind {v : Value} (h : ctx.MadeOf own) (made : v.MadeOf own) (name : Text) : (ctx.bind name v).MadeOf own := by
  intro other w found
  by_cases framed : ctx.frames = []
  · rw [Context.bind, framed] at found
    exact h other w found
  · rw [Context.get?_bind framed] at found
    split at found
    · cases found
      exact made
    · exact h other w found

theorem resolve {p : Path} {v : Value} (h : ctx.MadeOf own) (resolves : ctx.resolve p = some v) : v.MadeOf own := by
  rw [Context.resolve] at resolves
  split at resolves
  · cases resolves
  · obtain ⟨start, found, walks⟩ := Option.bind_eq_some_iff.mp resolves
    exact (h _ start found).walk? walks

end Context.MadeOf

theorem Operand.literal_of_read {source : Text} {v : Value} (h : Operand.read source = .ok (.literal v)) :
    (∃ t, v = .text t) ∨ v.isUnmarked = true := by
  rw [Operand.read] at h
  split at h
  · rename_i found
    cases h
    rw [literal?_eq] at found
    split at found
    · cases found
      exact .inl ⟨_, rfl⟩
    · refine .inr ?_
      split_ifs at found
      · cases found
        rfl
      · cases found
        rfl
      · cases found
        rfl
      · obtain ⟨n, -, rfl⟩ := Option.map_eq_some_iff.mp found
        rfl
  · obtain ⟨p, -, same⟩ := bind_eq_ok.mp h
    cases same

def Operand.From (own : List Text) (o : Operand) : Prop :=
  (∃ source, Operand.read source = .ok o) ∧ o.texts ⊆ own

section
variable {ctx : Context}

theorem Operand.From.eval {o : Operand} (h : o.From own) (made : ctx.MadeOf own) {v : Value}
    (comes : o.eval ctx = some v) : v.MadeOf own := by
  obtain ⟨⟨source, read⟩, inside⟩ := h
  cases o with
  | path p => exact made.resolve comes
  | literal w =>
      cases comes
      rcases literal_of_read read with ⟨t, rfl⟩ | plain
      · exact .inr ⟨t, rfl, .of_mem (inside List.mem_cons_self)⟩
      · exact .inl plain

theorem Operand.From.display {o : Operand} (h : o.From own) (made : ctx.MadeOf own) :
    Text.MadeOf own (Value.display (o.eval ctx)) := by
  cases comes : o.eval ctx with
  | none => exact .nil
  | some v => exact (h.eval made comes).display

theorem Operand.From.branchText {o : Operand} (h : o.From own) (made : ctx.MadeOf own) {t : Text}
    (shows : o.branchText ctx = .ok t) : t.MadeOf own := by
  rw [Operand.branchText] at shows
  split at shows
  · cases shows
  · cases shows
    exact h.display made

theorem Expr.operand_from {source : Text} {e : Expr} (read : Expr.read source = .ok e) {o : Operand}
    (member : o ∈ e.operands) (inside : o.texts ⊆ own) : o.From own := by
  have told : .ok o ∈ (Expr.parts source).map Operand.read :=
    Expr.operands_read read ▸ List.mem_map_of_mem member
  obtain ⟨part, -, same⟩ := List.mem_map.mp told
  exact ⟨⟨part, same⟩, inside⟩

theorem Expr.branches_from {source : Text} {c : Condition} {yes no : Operand}
    (read : Expr.read source = .ok (.ternary c yes no)) (inside : (Expr.ternary c yes no).texts ⊆ own) (b : Bool) :
    (if b then yes else no).From own := by
  obtain ⟨first, second⟩ := List.append_subset.mp inside
  cases b with
  | true => exact operand_from read (by simp [operands]) first
  | false => exact operand_from read (by simp [operands]) second

theorem Expr.textsIn_of_read {source : Text} {e : Expr} (read : Expr.read source = .ok e) :
    textsIn source = e.texts := by
  rw [textsIn, read]

theorem Expr.render_madeOf (made : ctx.MadeOf own) {source t : Text} (inside : textsIn source ⊆ own)
    (shows : (do (← Expr.read source).render ctx) = .ok t) : t.MadeOf own := by
  obtain ⟨e, read, shows⟩ := bind_eq_ok.mp shows
  rw [textsIn_of_read read] at inside
  cases e with
  | operand o =>
      cases shows
      exact (operand_from read (by simp [operands]) inside).display made
  | condition c =>
      cases shows
      refine .of_unmarked ?_
      split <;> decide
  | ternary c yes no => exact (branches_from read inside _).branchText made shows

theorem Expr.value_madeOf (made : ctx.MadeOf own) {source : Text} {v : Value} (inside : textsIn source ⊆ own)
    (comes : (do (← Expr.read source).value ctx) = .ok v) : v.MadeOf own := by
  obtain ⟨e, read, comes⟩ := bind_eq_ok.mp comes
  rw [textsIn_of_read read] at inside
  cases e with
  | operand o =>
      cases comes
      cases evaluated : o.eval ctx with
      | none => exact .inl rfl
      | some v => exact (operand_from read (by simp [operands]) inside).eval made evaluated
  | condition c =>
      cases comes
      exact .inl rfl
  | ternary c yes no =>
      obtain ⟨t, shows, same⟩ := bind_eq_ok.mp comes
      cases same
      exact .inr ⟨t, rfl, (branches_from read inside _).branchText made shows⟩

theorem Context.MadeOf.withBindings (made : ctx.MadeOf own) {block : Block} (inside : Node.blockTexts block ⊆ own) :
    (ctx.withBindings block).MadeOf own := by
  induction block generalizing ctx with
  | nil => exact made
  | cons node rest ih =>
      rw [Node.blockTexts, List.append_subset] at inside
      cases node with
      | binding name expression line =>
          rw [Context.withBindings]
          split
          · rename_i comes
            exact ih (made.bind (Expr.value_madeOf made inside.1 comes) name) inside.2
          · exact ih made inside.2
      | _ => exact ih made inside.2

end

namespace Lenient

mutual

theorem node_madeOf (depth : Nat) {ctx : Context} (made : ctx.MadeOf own) :
    (n : Node) → n.texts ⊆ own → Text.MadeOf own (node depth ctx n).text
  | .text content, inside => .of_mem (inside List.mem_cons_self)
  | .binding _ _ _, _ => .nil
  | .interpolation source line, inside => by
      rcases shows : (do (← Expr.read source).render ctx) with fault | t
      · rw [node_interpolation_of_error shows]
        exact .nil
      · rw [node_interpolation_of_ok shows]
        exact Expr.render_madeOf made inside shows
  | .loop index item path body line, inside => by
      rcases read : Path.read path with fault | p
      · rw [node_loop_of_error read]
        exact .nil
      · rcases ctx.resolves_array_or p with ⟨items, resolves⟩ | other
        · rw [node_loop_of_array read resolves]
          split
          · exact .nil
          · refine .lines (List.forall_mem_map.mpr fun part member => ?_)
            obtain ⟨i, bound, rfl⟩ := List.mem_mapIdx.mp member
            -- No text of the template is an array, so this one is from the data.
            have plain := (made.resolve resolves).item (List.getElem?_eq_getElem bound)
            exact nodes_madeOf (depth + 1) ((Context.MadeOf.ofIteration plain _ _).withBindings inside) body inside
        · rw [node_loop_of_other read other]
          exact .nil
  | .conditional choices line, inside => branches_madeOf depth made line choices inside

theorem nodes_madeOf (depth : Nat) {ctx : Context} (made : ctx.MadeOf own) :
    (block : List Node) → Node.blockTexts block ⊆ own → Text.MadeOf own (nodes depth ctx block).text
  | [], _ => .nil
  | first :: rest, inside => by
      rw [Node.blockTexts, List.append_subset] at inside
      exact (node_madeOf depth made first inside.1).append (nodes_madeOf depth made rest inside.2)

theorem branches_madeOf (depth : Nat) {ctx : Context} (made : ctx.MadeOf own) (line : Nat) :
    (choices : List Branch) → Node.branchTexts choices ⊆ own → Text.MadeOf own (branches depth ctx line choices).text
  | [], _ => .nil
  | .mk kind condition body place :: rest, inside => by
      rw [Node.branchTexts, List.append_subset] at inside
      rcases test : ctx.test kind condition with fault | selected
      · rw [branches_of_error test]
        exact .nil
      · cases selected with
        | false =>
            rw [branches_of_false test]
            exact branches_madeOf depth made line rest inside.2
        | true =>
            rw [branches_of_true test]
            split
            · exact .nil
            · have entered : ctx.enterBranch.MadeOf own := made
              exact nodes_madeOf (depth + 1) (entered.withBindings inside.1) body inside.1

end

end Lenient

theorem render_madeOf {template : Text} {t : Template} (parsed : Template.parse false template = .ok t)
    {data : Entries} (plain : Value.entriesUnmarked data = true) :
    Text.MadeOf t.texts (render template (.object data)) := by
  rw [render_eq (Template.parse_eq_ok.mp parsed).1]
  have own : Node.blockTexts t.block ⊆ t.texts := List.Subset.refl _
  exact Lenient.nodes_madeOf 0 ((Context.MadeOf.ofRoot plain).withBindings own) t.block own

end TextTemplate
