import TextTemplate.Proofs.Render.Scope
import TextTemplate.Proofs.Render.Steps

namespace TextTemplate

/-- Statistics with others counted on top; a maximum is not added but compared, and sizes stay. -/
def Stats.plus (before more : Stats) : Stats :=
  { before with
    interpolations := before.interpolations + more.interpolations
    loops := before.loops + more.loops
    iterations := before.iterations + more.iterations
    conditionals := before.conditionals + more.conditionals
    bindings := before.bindings + more.bindings
    suppressedErrors := before.suppressedErrors + more.suppressedErrors
    maxDepth := max before.maxDepth more.maxDepth }

namespace Stats

@[simp] theorem plus_zero (s : Stats) : s.plus .zero = s := by simp [plus, zero]

theorem plus_assoc (a b c : Stats) : (a.plus b).plus c = a.plus (b.plus c) := by
  simp [plus, Nat.add_assoc, Nat.max_assoc]

theorem Tally.plus {change : Stats → Stats} (h : Tally change) (a b : Stats) :
    change (a.plus b) = a.plus (change b) := by
  cases h <;> simp [Stats.plus, Nat.add_assoc, Nat.max_assoc]

def total (counted : List Stats) : Stats := counted.foldr plus .zero

end Stats

namespace Progress

def fresh (ctx : Context) : Progress := ⟨ctx, .zero, []⟩

def onto (before more : Progress) : Progress :=
  ⟨more.context, before.stats.plus more.stats, before.suppressed ++ more.suppressed⟩

theorem onto_fresh (s : Progress) : s.onto (fresh s.context) = s := by simp [onto, fresh]

theorem onto_assoc (s t u : Progress) : (s.onto t).onto u = s.onto (t.onto u) := by
  simp [onto, Stats.plus_assoc]

end Progress

namespace Render
open Progress

def Additive {α : Type} (m : Render α) : Prop :=
  ∀ s, m s = ((m (fresh s.context)).1, s.onto (m (fresh s.context)).2)

theorem additive_of_kept {α : Type} {m : Render α} (result : Context → Except TemplateError α)
    (h : ∀ s, m s = (result s.context, s)) : Additive m := by
  intro s
  rw [h s, h (fresh s.context), onto_fresh]
  rfl

theorem stable_additive : Stable fun _ m => Additive m where
  gives a := additive_of_kept (fun _ => .ok a) fun _ => rfl
  fails e := additive_of_kept (fun _ => .error e) fun _ => rfl
  looks := additive_of_kept .ok fun _ => rfl
  chains {_ _ m f} first second s := by
    have begun := first s
    rcases done : m (fresh s.context) with ⟨_ | a, after⟩ <;> rw [done] at begun
    · rw [bind_of_error begun, bind_of_error done]
    · -- The second part adds to what the first one has done, and both together to what was done before.
      have here : (s.onto after).context = after.context := rfl
      rw [bind_of_ok begun, bind_of_ok done, second a (s.onto after), here, second a after, onto_assoc]
  counts {change} tally s := by
    have added : change s.stats = s.stats.plus (change .zero) := by
      rw [← tally.plus, Stats.plus_zero]
    simp only [count, onto, fresh, added, List.append_nil]
  binds name value s := by simp [bind, onto, fresh]
  elsewhere ctx _ inside s := by
    simp only [within, inside { s with context := ctx }]
    rfl
  framed inside s := by
    simp only [inBranch, inside { s with context := s.context.enterBranch }]
    rfl
  recovers {_} strict line kind fallback {m} inside s := by
    have begun := inside s
    rcases done : m (fresh s.context) with ⟨_ | _, after⟩ <;> rw [done] at begun
    · cases strict <;> simp [recover, done, begun, onto, Stats.plus, Nat.add_assoc]
    · simp [recover, done, begun]

/-- What the body of a loop alone comes to for an element. -/
def iteration (index : Option Text) (item : Text) (body : Render Text) (position : Nat) (element : Value) :
    Except TemplateError Text × Progress :=
  body (fresh (.ofIteration element item (index.map fun name => (name, position))))

def gathered (ctx : Context) (runs : List (Except TemplateError Text × Progress)) : Progress where
  context := ctx
  stats :=
    let sums := Stats.total (runs.map fun run => run.2.stats)
    { sums with iterations := sums.iterations + runs.length }
  suppressed := runs.flatMap fun run => run.2.suppressed

/-- The first error among outcomes. -/
def FailsFirst (runs : List (Except TemplateError Text × Progress)) (e : TemplateError) : Prop :=
  ∃ before run after, runs = before ++ run :: after ∧ (∀ earlier ∈ before, ∃ t, earlier.1 = .ok t) ∧ run.1 = .error e

theorem all_ok_or_fails (runs : List (Except TemplateError Text × Progress)) :
    (∃ texts : List Text, runs.map Prod.fst = texts.map .ok) ∨ ∃ e, FailsFirst runs e := by
  induction runs with
  | nil => exact .inl ⟨[], rfl⟩
  | cons run rest ih =>
      rcases own : run.1 with e | t
      · exact .inr ⟨e, [], run, rest, rfl, List.forall_mem_nil _, own⟩
      · rcases ih with ⟨texts, all⟩ | ⟨e, before, failed, after, split, fine, stops⟩
        · exact .inl ⟨t :: texts, by rw [List.map_cons, own, all, List.map_cons]⟩
        · refine .inr ⟨e, run :: before, failed, after, by rw [split, List.cons_append], ?_, stops⟩
          exact List.forall_mem_cons.mpr ⟨⟨t, own⟩, fine⟩

section

variable {index : Option Text} {item : Text} {body : Render Text}

theorem mapIdx_iteration (position : Nat) (element : Value) (rest : List Value) :
    (element :: rest).mapIdx (fun i x => iteration index item body (position + i) x) =
      iteration index item body position element ::
        rest.mapIdx fun i x => iteration index item body (position + 1 + i) x := by
  rw [List.mapIdx_cons]
  simp only [Nat.add_zero, Nat.add_assoc, Nat.add_comm 1]

variable (index item) in
theorem within_iteration (additive : Additive body) (position : Nat) (element : Value) (s : Progress) :
    within (.ofIteration element item (index.map fun name => (name, position))) body s =
      ((iteration index item body position element).1,
        { s.onto (iteration index item body position element).2 with context := s.context }) := by
  simp only [within, iteration]
  rw [additive]
  rfl

def counted (s : Progress) (run : Except TemplateError Text × Progress) : Progress where
  context := s.context
  stats := { s.stats.plus run.2.stats with iterations := (s.stats.plus run.2.stats).iterations + 1 }
  suppressed := s.suppressed ++ run.2.suppressed

theorem onto_gathered_cons (s : Progress) (run : Except TemplateError Text × Progress)
    (rest : List (Except TemplateError Text × Progress)) :
    s.onto (gathered s.context (run :: rest)) = (counted s run).onto (gathered s.context rest) := by
  simp only [onto, gathered, counted, Stats.total, List.map_cons, List.foldr_cons, List.length_cons, List.flatMap_cons,
    List.append_assoc, Progress.mk.injEq, true_and, and_true]
  simp only [Stats.plus, Stats.mk.injEq, true_and, Nat.add_assoc, Nat.max_assoc, and_true]
  omega

theorem eachItem_cons_of_ok (additive : Additive body) {position : Nat} {element : Value} {t : Text} (s : Progress)
    (own : (iteration index item body position element).1 = .ok t) (rest : List Value) :
    eachItem index item body position (element :: rest) s =
      ((eachItem index item body (position + 1) rest >>= fun texts => pure (t :: texts)) : Render (List Text))
        (counted s (iteration index item body position element)) := by
  have alone := within_iteration index item additive position element s
  rw [own] at alone
  rw [eachItem, bind_of_ok alone]
  rfl

theorem eachItem_of_ok (additive : Additive body) {position : Nat} {elements : List Value} {texts : List Text}
    {runs : List (Except TemplateError Text × Progress)}
    (same : elements.mapIdx (fun i x => iteration index item body (position + i) x) = runs)
    (all : runs.map Prod.fst = texts.map .ok) (s : Progress) :
    eachItem index item body position elements s = (.ok texts, s.onto (gathered s.context runs)) := by
  induction elements generalizing position texts runs s with
  | nil =>
      subst same
      obtain rfl : texts = [] := by simpa using all.symm
      rw [show gathered s.context (List.mapIdx _ []) = fresh s.context from rfl, onto_fresh]
      rfl
  | cons element rest ih =>
      rw [mapIdx_iteration] at same
      subst same
      cases texts with
      | nil => cases all
      | cons t texts =>
          obtain ⟨own, others⟩ := List.cons.inj all
          rw [eachItem_cons_of_ok additive s own, bind_of_ok (ih rfl others _), onto_gathered_cons]
          rfl

theorem eachItem_of_fails (additive : Additive body) {position : Nat} {elements : List Value} {e : TemplateError}
    (fails : FailsFirst (elements.mapIdx fun i x => iteration index item body (position + i) x) e) (s : Progress) :
    (eachItem index item body position elements s).1 = .error e := by
  induction elements generalizing position s with
  | nil =>
      obtain ⟨before, run, after, split, -⟩ := fails
      simp at split
  | cons element rest ih =>
      obtain ⟨before, run, after, split, fine, stops⟩ := fails
      rw [mapIdx_iteration] at split
      cases before with
      | nil =>
          obtain ⟨own, -⟩ := List.cons.inj split
          have alone := within_iteration index item additive position element s
          rw [own, stops] at alone
          rw [eachItem, bind_of_error alone]
      | cons first before =>
          obtain ⟨rfl, others⟩ := List.cons.inj split
          obtain ⟨⟨t, gives⟩, fine⟩ := List.forall_mem_cons.mp fine
          have later := ih ⟨before, run, after, others, fine, stops⟩
            (counted s (iteration index item body position element))
          rw [eachItem_cons_of_ok additive s gives]
          rcases done : eachItem index item body (position + 1) rest
            (counted s (iteration index item body position element)) with ⟨result, left⟩
          rw [done] at later
          obtain rfl : result = .error e := later
          rw [bind_of_error done]

def begun (s : Progress) : Progress := { s with stats := { s.stats with loops := s.stats.loops + 1 } }

variable {path : Text} {p : Path} {items : List Value} {s : Progress}

theorem expandLoop_of_array (body : Render Text) (read : Path.read path = .ok p)
    (resolves : s.context.resolve p = some (.array items)) :
    expandLoop index item path body s =
      ((eachItem index item body 0 items >>= fun texts => pure (Text.join ['\n'] texts)) : Render Text) (begun s) := by
  have found : ofExpr (Path.read path) s = (.ok p, s) := by
    rw [read]
    rfl
  have looked : Render.context s = (.ok s.context, s) := rfl
  rw [expandLoop, bind_of_ok found, bind_of_ok looked, resolves]
  rfl

theorem mapIdx_iteration_zero (index : Option Text) (item : Text) (body : Render Text) (items : List Value) :
    items.mapIdx (fun i x => iteration index item body (0 + i) x) = items.mapIdx (iteration index item body) := by
  simp only [Nat.zero_add]

theorem expandLoop_of_ok (additive : Additive body) (read : Path.read path = .ok p)
    (resolves : s.context.resolve p = some (.array items)) {texts : List Text}
    (all : (items.mapIdx (iteration index item body)).map Prod.fst = texts.map .ok) :
    expandLoop index item path body s =
      (.ok (Text.join ['\n'] texts),
        (begun s).onto (gathered s.context (items.mapIdx (iteration index item body)))) := by
  have each := eachItem_of_ok additive (mapIdx_iteration_zero index item body items) all (begun s)
  rw [expandLoop_of_array body read resolves, bind_of_ok each]
  rfl

theorem expandLoop_of_fails (additive : Additive body) (read : Path.read path = .ok p)
    (resolves : s.context.resolve p = some (.array items)) {e : TemplateError}
    (fails : FailsFirst (items.mapIdx (iteration index item body)) e) :
    (expandLoop index item path body s).1 = .error e := by
  rw [← mapIdx_iteration_zero] at fails
  have failed := eachItem_of_fails additive fails (begun s)
  rw [expandLoop_of_array body read resolves]
  rcases done : eachItem index item body 0 items (begun s) with ⟨outcome, left⟩
  rw [done] at failed
  obtain rfl : outcome = .error e := failed
  rw [bind_of_error done]

end

end Render

open Render Progress

/--
Where the path of a loop leads to an array, the loop gives the texts of its iterations on lines of their own if all of
them give one, and else the first error among them. Each iteration is the body alone in the context of its element. What
a loop that succeeds counts is what its iterations count, with one for each of them and one for itself, and the greatest
depth; what it notes is what they note, in order.
-/
theorem expandLoop_joins {index : Option Text} {item path : Text} {p : Path} {items : List Value} {s : Progress}
    (strict : Bool) (depth : Nat) (body : Block) (read : Path.read path = .ok p)
    (resolves : s.context.resolve p = some (.array items)) :
    let runs := items.mapIdx (iteration index item (Render.block strict depth body))
    let sums := Stats.total (runs.map fun run => run.2.stats)
    let result := expandLoop index item path (Render.block strict depth body) s
    (∀ output, result.1 = .ok output ↔
      ∃ texts : List Text, runs.map Prod.fst = texts.map .ok ∧ output = Text.join ['\n'] texts) ∧
    (∀ e, result.1 = .error e ↔ FailsFirst runs e) ∧
    ∀ output, result.1 = .ok output → result.2 =
      { context := s.context
        stats :=
          { s.stats.plus sums with
            loops := s.stats.loops + sums.loops + 1
            iterations := s.stats.iterations + sums.iterations + items.length }
        suppressed := s.suppressed ++ runs.flatMap fun run => run.2.suppressed } := by
  intro runs sums result
  have additive : Additive (Render.block strict depth body) := stable_additive.block strict depth body
  -- One of the two holds of any iterations, and each rules out the outcome of the other.
  rcases all_ok_or_fails runs with ⟨texts, all⟩ | ⟨e, fails⟩
  · have succeeds : result = _ := expandLoop_of_ok additive read resolves all
    refine ⟨fun output => ⟨?_, ?_⟩, fun e => ⟨?_, expandLoop_of_fails additive read resolves⟩, ?_⟩
    · intro gives
      rw [succeeds] at gives
      exact ⟨texts, all, (Except.ok.inj gives).symm⟩
    · rintro ⟨texts', all', rfl⟩
      exact congrArg Prod.fst (expandLoop_of_ok additive read resolves all')
    · intro failed
      rw [succeeds] at failed
      cases failed
    · intro output _
      have length : runs.length = items.length := List.length_mapIdx
      rw [succeeds]
      simp only [onto, gathered, begun, length, Stats.plus, sums, runs, Progress.mk.injEq, Stats.mk.injEq, true_and,
        and_true]
      omega
  · have stops : result.1 = .error e := expandLoop_of_fails additive read resolves fails
    refine ⟨fun output => ⟨?_, ?_⟩, fun e' => ⟨?_, expandLoop_of_fails additive read resolves⟩, ?_⟩
    · intro gives
      rw [stops] at gives
      cases gives
    · rintro ⟨texts, all, rfl⟩
      exact congrArg Prod.fst (expandLoop_of_ok additive read resolves all)
    · intro failed
      rw [stops] at failed
      cases failed
      exact fails
    · intro output gives
      rw [stops] at gives
      cases gives

def inventoryItem (n : Int) : Value := .object [("n".toList, .number (.int n))]

def inventory : Entries := [("xs".toList, .array [inventoryItem 1, inventoryItem 2])]

def inventoryLine : Block := [.binding "m".toList "x.n".toList 1, .text "- ".toList, .interpolation "m".toList 1]

theorem expandLoop_joins_inventory :
    Path.read "xs".toList = .ok ⟨["xs".toList]⟩ ∧
    (Context.ofRoot inventory).resolve ⟨["xs".toList]⟩ = some (.array [inventoryItem 1, inventoryItem 2]) ∧
    (expandLoop none "x".toList "xs".toList (Render.block true 1 inventoryLine) (fresh (.ofRoot inventory))).1 =
      .ok "- 1\n- 2".toList := by
  have read : Path.read "xs".toList = .ok ⟨["xs".toList]⟩ := rfl
  have resolves : (Context.ofRoot inventory).resolve ⟨["xs".toList]⟩ =
      some (.array [inventoryItem 1, inventoryItem 2]) := rfl
  have first : (iteration none "x".toList (Render.block true 1 inventoryLine) 0 (inventoryItem 1)).1 =
      .ok "- 1".toList := rfl
  have second : (iteration none "x".toList (Render.block true 1 inventoryLine) 1 (inventoryItem 2)).1 =
      .ok "- 2".toList := rfl
  refine ⟨read, resolves, ((expandLoop_joins true 1 inventoryLine read resolves).1 _).mpr ?_⟩
  refine ⟨["- 1".toList, "- 2".toList], ?_, rfl⟩
  simp only [List.mapIdx_cons, List.mapIdx_nil, List.map_cons, List.map_nil, first, second, Nat.zero_add]

end TextTemplate
