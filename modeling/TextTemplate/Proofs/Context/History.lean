import Mathlib.Data.List.Induction
import TextTemplate.Context
import TextTemplate.Proofs.Value.Entries

/-!
# Contexts and the history of their bindings

A context is a stack of frames, but what a name stands for can be told from the bare sequence of what was done: a binding
is in force as long as the branch it was made in is open (`inForce`), and of the bindings of a name in force the latest
counts, before the index variable and the root. That the stack answers so holds after every move of every program
(`lexical_scoping`). The induction is on the history from its end, with some more branches left behind it: in front of
a branch that is left, entering and binding cancel out.
-/

namespace TextTemplate

def Value.field? : Value → Text → Option Value
  | object entries, key => Entries.get? entries key
  | _, _ => none

namespace Context

def indexed (index : Option (Text × Nat)) (name : Text) : Option Value :=
  index.bind fun (own, position) => if own = name then some (.ofNat position) else none

theorem get?_ofRoot (root : Entries) (name : Text) : (ofRoot root).get? name = root.get? name := rfl

theorem get?_ofIteration (element : Value) (item : Text) (index : Option (Text × Nat)) (name : Text) :
    (ofIteration element item index).get? name = (indexed index name).or (element.field? name) := by
  have root : (ofIteration element item index).root.bind (Entries.get? · name) = element.field? name := by
    cases element <;> rfl
  rw [get?, root]
  cases index with
  | none => rfl
  | some entry =>
      obtain ⟨own, position⟩ := entry
      have none : Entries.get? [] name = none := rfl
      by_cases same : own = name <;> simp [ofIteration, indexed, Entries.get?_insert, none, same]

theorem get?_enterBranch (ctx : Context) (name : Text) : ctx.enterBranch.get? name = ctx.get? name := rfl

theorem get?_bind {ctx : Context} (framed : ctx.frames ≠ []) (name : Text) (value : Value) (other : Text) :
    (ctx.bind name value).get? other = if name = other then some value else ctx.get? other := by
  obtain ⟨root, frames, item⟩ := ctx
  cases frames with
  | nil => exact absurd rfl framed
  | cons frame outer =>
      by_cases same : name = other <;> simp [bind, Context.get?, List.findSome?_cons, Entries.get?_insert, same]

theorem item_bind (ctx : Context) (name : Text) (value : Value) : (ctx.bind name value).item = ctx.item := by
  rw [bind]
  split <;> rfl

theorem length_frames_bind (ctx : Context) (name : Text) (value : Value) :
    (ctx.bind name value).frames.length = ctx.frames.length := by
  rw [bind]
  split <;> simp [*]

theorem bind_frames_eq_nil {ctx : Context} {name : Text} {value : Value} :
    (ctx.bind name value).frames = [] ↔ ctx.frames = [] := by
  rw [← List.length_eq_zero_iff, length_frames_bind, List.length_eq_zero_iff]

theorem leaveBranch_bind (ctx : Context) (name : Text) (value : Value) :
    (ctx.bind name value).leaveBranch = ctx.leaveBranch := by
  obtain ⟨root, frames, item⟩ := ctx
  cases frames <;> rfl

/-! ## Programs -/

inductive Op where
  | bind (name : Text) (value : Value)
  | branch (program : List Op)

inductive Move where
  | bind (name : Text) (value : Value)
  | enter
  | leave

mutual

def Op.run (ctx : Context) : Op → Context
  | .bind name value => ctx.bind name value
  | .branch program => (Op.runAll ctx.enterBranch program).leaveBranch

def Op.runAll (ctx : Context) : List Op → Context
  | [] => ctx
  | op :: rest => Op.runAll (Op.run ctx op) rest

end

mutual

def Op.moves : Op → List Move
  | .bind name value => [.bind name value]
  | .branch program => .enter :: (Op.movesAll program ++ [.leave])

def Op.movesAll : List Op → List Move
  | [] => []
  | op :: rest => op.moves ++ Op.movesAll rest

end

def step (ctx : Context) : Move → Context
  | .bind name value => ctx.bind name value
  | .enter => ctx.enterBranch
  | .leave => ctx.leaveBranch

def after (ctx : Context) (moves : List Move) : Context := moves.foldl step ctx

/-! ## Bindings in force -/

/-- Whether some moves leave only branches they have entered themselves, or one of `inside` others. -/
def staysOpen : (inside : Nat) → List Move → Bool
  | _, [] => true
  | inside, .bind _ _ :: rest => staysOpen inside rest
  | inside, .enter :: rest => staysOpen (inside + 1) rest
  | 0, .leave :: _ => false
  | inside + 1, .leave :: rest => staysOpen inside rest

/-- The bindings whose branch is still open behind all moves, the latest first. -/
def inForce : List Move → Entries
  | [] => []
  | .bind name value :: since =>
      if staysOpen 0 since then inForce since ++ [(name, value)] else inForce since
  | _ :: since => inForce since

theorem staysOpen_append {inside : Nat} {begun rest : List Move} (h : staysOpen inside (begun ++ rest) = true) :
    staysOpen inside begun = true := by
  induction begun generalizing inside with
  | nil => cases inside <;> rfl
  | cons move begun ih =>
      cases move with
      | bind name value => cases inside <;> exact ih h
      | enter => cases inside <;> exact ih h
      | leave =>
          cases inside with
          | zero => cases h
          | succ inside => exact ih h

theorem staysOpen_congr {moves other : List Move} (same : ∀ inside, staysOpen inside moves = staysOpen inside other)
    (inside : Nat) (before : List Move) :
    staysOpen inside (before ++ moves) = staysOpen inside (before ++ other) := by
  induction before generalizing inside with
  | nil => exact same inside
  | cons move before ih =>
      cases move with
      | bind name value => cases inside <;> exact ih _
      | enter => cases inside <;> exact ih _
      | leave =>
          cases inside with
          | zero => rfl
          | succ inside => exact ih inside

structure Tantamount (moves other : List Move) : Prop where
  opened : ∀ inside, staysOpen inside moves = staysOpen inside other
  held : inForce moves = inForce other

theorem Tantamount.behind {moves other : List Move} (h : Tantamount moves other) (before : List Move) :
    Tantamount (before ++ moves) (before ++ other) := by
  refine ⟨fun inside => staysOpen_congr h.opened inside before, ?_⟩
  induction before with
  | nil => exact h.held
  | cons move before ih =>
      cases move with
      | bind name value => simp only [List.cons_append, inForce, ih, staysOpen_congr h.opened]
      | enter => exact ih
      | leave => exact ih

theorem tantamount_enter : Tantamount [.enter] [] := ⟨fun inside => by cases inside <;> rfl, rfl⟩

theorem tantamount_enter_leave (rest : List Move) : Tantamount (.enter :: .leave :: rest) rest :=
  ⟨fun inside => by cases inside <;> rfl, rfl⟩

theorem tantamount_bind_leave (name : Text) (value : Value) (rest : List Move) :
    Tantamount (.bind name value :: .leave :: rest) (.leave :: rest) :=
  ⟨fun inside => by cases inside <;> rfl, rfl⟩

theorem inForce_bind (before : List Move) (name : Text) (value : Value) :
    inForce (before ++ [.bind name value]) = (name, value) :: inForce before := by
  have same : ∀ inside, staysOpen inside [.bind name value] = staysOpen inside [] := fun inside => by
    cases inside <;> rfl
  induction before with
  | nil => rfl
  | cons move before ih =>
      cases move with
      | bind other held =>
          rw [List.cons_append, inForce, ih, staysOpen_congr same, List.append_nil, inForce]
          split <;> rfl
      | enter => exact ih
      | leave => exact ih

/-! ## What the stack answers -/

theorem after_append (ctx : Context) (moves rest : List Move) :
    ctx.after (moves ++ rest) = (ctx.after moves).after rest := List.foldl_append

theorem item_after (ctx : Context) (moves : List Move) : (ctx.after moves).item = ctx.item := by
  induction moves generalizing ctx with
  | nil => rfl
  | cons move moves ih =>
      have first : (ctx.step move).item = ctx.item := by
        cases move with
        | bind name value => exact ctx.item_bind name value
        | enter => rfl
        | leave => rfl
      exact (ih _).trans first

theorem frames_after {ctx : Context} {moves : List Move} {inside : Nat} (framed : inside < ctx.frames.length)
    (opened : staysOpen inside moves = true) : (ctx.after moves).frames ≠ [] := by
  induction moves generalizing ctx inside with
  | nil =>
      rintro bare
      rw [show ctx.frames = [] from bare] at framed
      cases framed
  | cons move moves ih =>
      cases move with
      | bind name value =>
          have framed' : inside < (ctx.bind name value).frames.length := by rwa [length_frames_bind]
          cases inside <;> exact ih framed' opened
      | enter =>
          have framed' : inside + 1 < ctx.enterBranch.frames.length := Nat.succ_lt_succ framed
          cases inside <;> exact ih framed' opened
      | leave =>
          cases inside with
          | zero => cases opened
          | succ inside =>
              have framed' : inside < ctx.leaveBranch.frames.length := by
                rw [leaveBranch, List.length_tail]
                omega
              exact ih framed' opened

theorem get?_after_left {ctx : Context} (framed : ctx.frames ≠ []) (name : Text) (moves : List Move) (left : Nat)
    (opened : staysOpen 0 (moves ++ List.replicate left .leave) = true) :
    (ctx.after (moves ++ List.replicate left .leave)).get? name =
      ((inForce (moves ++ List.replicate left .leave)).get? name).or (ctx.get? name) := by
  -- From the end of the history, as a branch that is left takes back the moves right before it.
  induction moves using List.reverseRecOn generalizing left with
  | nil =>
      cases left with
      | zero => rfl
      | succ left => cases opened
  | append_singleton moves move ih =>
      have here : staysOpen 0 moves = true →
          (ctx.after moves).get? name = ((inForce moves).get? name).or (ctx.get? name) := by simpa using ih 0
      rw [List.append_assoc, List.singleton_append] at opened ⊢
      have begun : staysOpen 0 moves = true := staysOpen_append opened
      cases move with
      | leave => exact ih (left + 1) opened
      | enter =>
          cases left with
          | zero =>
              have same := tantamount_enter.behind moves
              rw [List.append_nil] at same
              rw [List.replicate_zero, same.held, after_append, ← here begun]
              rfl
          | succ left =>
              have same := (tantamount_enter_leave (List.replicate left .leave)).behind moves
              rw [List.replicate_succ] at opened ⊢
              rw [same.opened] at opened
              rw [same.held, ← ih left opened, after_append, after_append]
              rfl
      | bind other value =>
          cases left with
          | zero =>
              have kept : (ctx.after moves).frames ≠ [] := frames_after (List.length_pos_iff.mpr framed) begun
              have bound : (ctx.after (moves ++ [.bind other value])).get? name =
                  if other = name then some value else (ctx.after moves).get? name := by
                rw [after_append]
                exact get?_bind kept other value name
              rw [List.replicate_zero, bound, here begun, inForce_bind, Entries.get?_cons]
              split <;> rfl
          | succ left =>
              have same := (tantamount_bind_leave other value (List.replicate left .leave)).behind moves
              have dropped : ctx.after (moves ++ .bind other value :: .leave :: List.replicate left .leave) =
                  ctx.after (moves ++ .leave :: List.replicate left .leave) := by
                rw [after_append, after_append]
                exact congrArg (after · (List.replicate left .leave)) (leaveBranch_bind _ other value)
              rw [List.replicate_succ] at opened ⊢
              rw [same.opened] at opened
              rw [same.held, dropped]
              exact ih (left + 1) opened

theorem get?_after {ctx : Context} (framed : ctx.frames ≠ []) {moves : List Move} (opened : staysOpen 0 moves = true)
    (name : Text) : (ctx.after moves).get? name = ((inForce moves).get? name).or (ctx.get? name) := by
  have whole := get?_after_left framed name moves 0 (by simpa using opened)
  rwa [List.replicate_zero, List.append_nil] at whole

def Op.begun (program : List Op) (n : Nat) : List Move := (Op.movesAll program).take n

mutual

theorem Op.run_eq_after (ctx : Context) : (op : Op) → Op.run ctx op = ctx.after op.moves
  | .bind _ _ => rfl
  | .branch program => by
      rw [Op.run, Op.runAll_eq_after, Op.moves]
      exact (after_append ctx.enterBranch (Op.movesAll program) [.leave]).symm

theorem Op.runAll_eq_after (ctx : Context) : (program : List Op) → Op.runAll ctx program = ctx.after (Op.movesAll program)
  | [] => rfl
  | op :: rest => by rw [Op.runAll, Op.movesAll, after_append, ← Op.run_eq_after ctx op, Op.runAll_eq_after]

end

mutual

theorem staysOpen_moves (inside : Nat) (rest : List Move) :
    (op : Op) → staysOpen inside (op.moves ++ rest) = staysOpen inside rest
  | .bind _ _ => by cases inside <;> rfl
  | .branch program => by
      have entered : staysOpen inside ((Op.branch program).moves ++ rest) =
          staysOpen (inside + 1) (Op.movesAll program ++ .leave :: rest) := by
        rw [Op.moves, List.cons_append, List.append_assoc, List.singleton_append]
        cases inside <;> rfl
      rw [entered, staysOpen_movesAll (inside + 1) (.leave :: rest) program]
      rfl

theorem staysOpen_movesAll (inside : Nat) (rest : List Move) :
    (program : List Op) → staysOpen inside (Op.movesAll program ++ rest) = staysOpen inside rest
  | [] => rfl
  | op :: more => by
      rw [Op.movesAll, List.append_assoc, staysOpen_moves inside _ op, staysOpen_movesAll inside rest more]

end

theorem staysOpen_begun (program : List Op) (n : Nat) : staysOpen 0 (Op.begun program n) = true := by
  have whole : staysOpen 0 (Op.begun program n ++ (Op.movesAll program).drop n) = true := by
    rw [Op.begun, List.take_append_drop, ← List.append_nil (Op.movesAll program), staysOpen_movesAll]
    rfl
  exact staysOpen_append whole

theorem get?_begun_ofIteration (element : Value) (item : Text) (index : Option (Text × Nat)) (program : List Op)
    (n : Nat) (name : Text) :
    ((ofIteration element item index).after (Op.begun program n)).get? name =
      ((inForce (Op.begun program n)).get? name).or ((indexed index name).or (element.field? name)) := by
  have framed : (ofIteration element item index).frames ≠ [] := List.cons_ne_nil _ _
  rw [get?_after framed (staysOpen_begun program n), get?_ofIteration]

mutual

theorem Op.run_innermost (root : Option Entries) (frame : Frame) (outer : List Frame) (item : Option Text) :
    (op : Op) → ∃ bindings, Op.run ⟨root, frame :: outer, item⟩ op = ⟨root, ⟨frame.kind, bindings⟩ :: outer, item⟩
  | .bind name value => ⟨frame.bindings.insert name value, rfl⟩
  | .branch program => by
      obtain ⟨bindings, inside⟩ := Op.runAll_innermost root ⟨.branch, []⟩ (frame :: outer) item program
      refine ⟨frame.bindings, ?_⟩
      rw [Op.run, enterBranch, inside]
      rfl

theorem Op.runAll_innermost (root : Option Entries) (frame : Frame) (outer : List Frame) (item : Option Text) :
    (program : List Op) →
      ∃ bindings, Op.runAll ⟨root, frame :: outer, item⟩ program = ⟨root, ⟨frame.kind, bindings⟩ :: outer, item⟩
  | [] => ⟨frame.bindings, rfl⟩
  | op :: rest => by
      obtain ⟨bindings, first⟩ := Op.run_innermost root frame outer item op
      rw [Op.runAll, first]
      exact Op.runAll_innermost root ⟨frame.kind, bindings⟩ outer item rest

end

theorem Op.run_branch (ctx : Context) (program : List Op) : Op.run ctx (.branch program) = ctx := by
  obtain ⟨root, frames, item⟩ := ctx
  obtain ⟨bindings, inside⟩ := Op.runAll_innermost root ⟨.branch, []⟩ frames item program
  rw [Op.run, enterBranch, inside]
  rfl

/--
After each move of a program, in branches however deep, a name stands for the value it was last bound to in a branch
that is still open, else for the position in the loop if the index variable has this name, else for what the root holds.
The moves are what running the program does, and a branch leaves the context exactly as it was, whichever it was.
-/
theorem lexical_scoping (program : List Op) :
    (∀ n name, (∀ root, ((ofRoot root).after (Op.begun program n)).get? name =
        ((inForce (Op.begun program n)).get? name).or (root.get? name)) ∧
      ∀ element item index, ((ofIteration element item index).after (Op.begun program n)).get? name =
        ((inForce (Op.begun program n)).get? name).or ((indexed index name).or (element.field? name))) ∧
    ∀ ctx, Op.runAll ctx program = ctx.after (Op.movesAll program) ∧ Op.run ctx (.branch program) = ctx := by
  refine ⟨fun n name => ⟨fun root => ?_, fun element item index => ?_⟩, fun ctx => ?_⟩
  · have framed : (ofRoot root).frames ≠ [] := List.cons_ne_nil _ _
    rw [get?_after framed (staysOpen_begun program n), get?_ofRoot]
  · exact get?_begun_ofIteration element item index program n name
  · exact ⟨Op.runAll_eq_after ctx program, Op.run_branch ctx program⟩

theorem resolve_item {ctx : Context} {item : Text} (own : ctx.item = some item) (field : Text) (rest : List Text) :
    ctx.resolve ⟨item :: field :: rest⟩ = (ctx.get? field).bind (Value.walk? · rest) := by
  simp only [resolve, withoutItem]
  rw [if_pos own]

theorem indexed_eq_none {index : Option (Text × Nat)} {name : Text} (other : ∀ entry ∈ index, entry.1 ≠ name) :
    indexed index name = none := by
  cases index with
  | none => rfl
  | some entry => exact if_neg (other entry rfl)

/--
At every point of an iteration over a mapping, a path of the item's name, a field and more segments leads on from what
was last bound to the name of the field in a branch that is still open, else from the position if the index variable has
this name, else from the element's own field. So it leads on from the field if it is named like none of them, and is
absent if then there is no such field.
-/
theorem item_path (entries : Entries) (item : Text) (index : Option (Text × Nat)) (program : List Op) (n : Nat)
    (field : Text) (rest : List Text) :
    ((ofIteration (.object entries) item index).after (Op.begun program n)).resolve ⟨item :: field :: rest⟩ =
        (((inForce (Op.begun program n)).get? field).or ((indexed index field).or (entries.get? field))).bind
          (Value.walk? · rest) ∧
      (field ∉ (inForce (Op.begun program n)).keys → (∀ entry ∈ index, entry.1 ≠ field) →
        ((ofIteration (.object entries) item index).after (Op.begun program n)).resolve ⟨item :: field :: rest⟩ =
          (entries.get? field).bind (Value.walk? · rest)) := by
  have own : ((ofIteration (.object entries) item index).after (Op.begun program n)).item = some item :=
    item_after _ _
  have whole := resolve_item own field rest
  rw [get?_begun_ofIteration] at whole
  refine ⟨whole, fun unbound other => ?_⟩
  rw [whole, Entries.get?_eq_none unbound, indexed_eq_none other]
  rfl

theorem item_path_unbound :
    ("name".toList ∉ (inForce (Op.begun [.branch [.bind "name".toList (.text "X".toList)]] 3)).keys ∧
      ∀ entry ∈ some ("ix".toList, 3), entry.1 ≠ "name".toList) ∧
    ((ofIteration (.object [("name".toList, .text "Ada".toList)]) "e".toList (some ("ix".toList, 3))).after
        (Op.begun [.branch [.bind "name".toList (.text "X".toList)]] 3)).resolve
      ⟨["e".toList, "name".toList, "length".toList]⟩ = some (.ofNat 3) := by
  have unbound : "name".toList ∉ (inForce (Op.begun [.branch [.bind "name".toList (.text "X".toList)]] 3)).keys := by
    decide
  have other : ∀ entry ∈ some ("ix".toList, 3), entry.1 ≠ "name".toList := by decide
  refine ⟨⟨unbound, other⟩, ?_⟩
  have read := (item_path [("name".toList, .text "Ada".toList)] "e".toList (some ("ix".toList, 3))
    [.branch [.bind "name".toList (.text "X".toList)]] 3 "name".toList ["length".toList]).2 unbound other
  rw [read]
  rfl

theorem item_path_shadowed :
    ((ofIteration (.object [("name".toList, .text "Ada".toList)]) "e".toList none).after
          (Op.begun [.bind "name".toList (.text "X".toList)] 1)).resolve ⟨["e".toList, "name".toList]⟩ =
        some (.text "X".toList) ∧
      (ofIteration (.object [("name".toList, .text "Ada".toList)]) "e".toList (some ("name".toList, 3))).resolve
          ⟨["e".toList, "name".toList]⟩ = some (.ofNat 3) ∧
      Entries.get? [("name".toList, .text "Ada".toList)] "name".toList = some (.text "Ada".toList) :=
  ⟨rfl, rfl, rfl⟩

end Context

end TextTemplate
