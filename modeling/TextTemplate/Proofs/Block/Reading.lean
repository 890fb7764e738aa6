import TextTemplate.Block.Builder
import TextTemplate.Proofs.Block.Ending

namespace TextTemplate
open Token

def Token.marked (tokens : List Token) : List (Token × Bool) :=
  tokens.zip ((Outlook.ofTokens tokens).map fun outlook => outlook.own.isSome)

@[simp] theorem Token.marked_cons (token : Token) (rest : List Token) :
    marked (token :: rest) = (token, (opened token rest).isSome) :: marked rest := by
  simp [marked, Outlook.ofTokens, Outlook.own_ofTokens]

def OpenDirective.awaits : OpenDirective → Awaited
  | .loop _ _ _ => .loop
  | .chain _ _ _ _ => .chain

namespace Builder

/-! ## Runs -/

theorem bind_eq_ok {ε α β : Type} {x : Except ε α} {f : α → Except ε β} {r : β} :
    x >>= f = .ok r ↔ ∃ a, x = .ok a ∧ f a = .ok r := by
  cases x with
  | error e => simp [bind, Except.bind]
  | ok a => simp [bind, Except.bind]

theorem bind_eq_error {ε α β : Type} {x : Except ε α} {f : α → Except ε β} {e : ε} :
    x >>= f = .error e ↔ x = .error e ∨ ∃ a, x = .ok a ∧ f a = .error e := by
  cases x with
  | error e' => simp [bind, Except.bind]
  | ok a => simp [bind, Except.bind]

inductive Reads (strict : Bool) : Builder → List Token → Builder → List Token → Prop
  | refl (b : Builder) (tokens : List Token) : Reads strict b tokens b tokens
  | step {b next c : Builder} {token : Token} {rest left : List Token} :
      b.step strict token (opened token rest).isSome = .ok next → Reads strict next rest c left →
      Reads strict b (token :: rest) c left

namespace Reads

variable {strict : Bool} {b c d : Builder} {tokens left others : List Token}

theorem trans (first : Reads strict b tokens c left) (second : Reads strict c left d others) :
    Reads strict b tokens d others := by
  induction first with
  | refl => exact second
  | step taken _ ih => exact .step taken (ih second)

theorem suffix (h : Reads strict b tokens c left) : left <:+ tokens := by
  induction h with
  | refl => exact List.suffix_rfl
  | step _ _ ih => exact ih.trans (List.suffix_cons _ _)

theorem resume (long : Reads strict b tokens d others) (short : Reads strict b tokens c left)
    (le : others.length ≤ left.length) : Reads strict c left d others := by
  induction short with
  | refl => exact long
  | step taken more ih =>
      cases long with
      | refl =>
          have := more.suffix.length_le
          simp only [List.length_cons] at le
          omega
      | step taken' long =>
          rw [taken, Except.ok.injEq] at taken'
          subst taken'
          exact ih long le

theorem uncons {token : Token} {rest : List Token} (h : Reads strict b (token :: rest) c left)
    (le : left.length ≤ rest.length) :
    ∃ next, b.step strict token (opened token rest).isSome = .ok next ∧ Reads strict next rest c left := by
  cases h with
  | refl =>
      simp only [List.length_cons] at le
      omega
  | step taken more => exact ⟨_, taken, more⟩

theorem eq_of_all_left (h : Reads strict b tokens c left) (all : left = tokens) : c = b := by
  cases h with
  | refl => rfl
  | step _ more =>
      have := more.suffix.length_le
      rw [all] at this
      simp only [List.length_cons] at this
      omega

end Reads

theorem run_take_iff {strict : Bool} {b c : Builder} {tokens : List Token} {n : Nat} (le : n ≤ tokens.length) :
    run strict b ((marked tokens).take n) = .ok c ↔ Reads strict b tokens c (tokens.drop n) := by
  induction tokens generalizing b n with
  | nil =>
      obtain rfl : n = 0 := by simpa using le
      refine ⟨fun h => ?_, fun h => by rw [h.eq_of_all_left rfl]; rfl⟩
      cases h
      exact .refl _ _
  | cons token rest ih =>
      cases n with
      | zero =>
          refine ⟨fun h => ?_, fun h => by rw [h.eq_of_all_left rfl]; rfl⟩
          cases h
          exact .refl _ _
      | succ n =>
          have shorter : (rest.drop n).length ≤ rest.length := by simp
          have le : n ≤ rest.length := by simpa using le
          rw [marked_cons, List.take_succ_cons, List.drop_succ_cons]
          constructor
          · intro h
            obtain ⟨next, taken, more⟩ := bind_eq_ok.mp h
            exact .step taken ((ih le).mp more)
          · intro h
            obtain ⟨next, taken, more⟩ := h.uncons shorter
            exact bind_eq_ok.mpr ⟨next, taken, (ih le).mpr more⟩

theorem step_eq_ok {strict closed : Bool} {b c : Builder} {token : Token} :
    b.step strict token closed = .ok c ↔
      (b.problem? closed token.lexeme = none ∧ c = b.accept token) ∨
      ∃ problem, b.problem? closed token.lexeme = some problem ∧ strict = false ∧ c = b.demote token problem := by
  cases h : b.problem? closed token.lexeme <;> cases strict <;> simp [step, h, eq_comm]

theorem step_lenient (b : Builder) (token : Token) (closed : Bool) : ∃ c, b.step false token closed = .ok c := by
  cases h : b.problem? closed token.lexeme <;> simp [step, h]

theorem problem?_of_closes {b : Builder} {level : Level} {outer : List Level} {l : Lexeme} (closed : Bool)
    (top : b.levels = level :: outer) (closes : l.closes level.directive.awaits = true) :
    b.problem? closed l = none := by
  obtain ⟨directive, opening, before⟩ := level
  cases directive <;> cases l <;> simp_all [problem?, OpenDirective.awaits, Lexeme.closes]

theorem eq_closingOf {l opening : Lexeme} {k : Awaited} (begins : opening.awaits = some k)
    (closes : l.closes k = true) : l = closingOf opening := by
  cases opening <;> cases begins <;> cases l <;> first | rfl | cases closes

inductive Move (token : Token) (closed : Bool) : List Level → List Level → Prop
  | stay {levels : List Level} :
      (∀ level outer, levels = level :: outer → token.lexeme.closes level.directive.awaits = false) →
      Move token closed levels levels
  | enter {levels : List Level} {level : Level} :
      level.opening = token → token.lexeme.awaits = some level.directive.awaits → closed = true →
      levels.length < nestingMax → Move token closed levels (level :: levels)
  | branch {level next : Level} {outer : List Level} :
      next.opening = level.opening → next.directive.awaits = level.directive.awaits →
      token.lexeme.closes level.directive.awaits = false → Move token closed (level :: outer) (next :: outer)
  | leave {level : Level} {outer : List Level} :
      token.lexeme.closes level.directive.awaits = true → Move token closed (level :: outer) outer

theorem accept_opening {b : Builder} {token : Token} {closed : Bool} {k : Awaited}
    (begins : token.lexeme.awaits = some k) (fine : b.problem? closed token.lexeme = none) :
    closed = true ∧ b.levels.length < nestingMax ∧ ∃ level, (b.accept token).levels = level :: b.levels ∧
      level.opening = token ∧ level.directive.awaits = k := by
  obtain ⟨l, position, raw⟩ := token
  cases l <;> cases begins <;> cases closed <;>
    simp only [problem?, Bool.not_false, Bool.not_true, if_true, Bool.false_eq_true, if_false, ite_eq_right_iff,
      reduceCtorEq, imp_false, Nat.not_le] at fine <;>
    exact ⟨rfl, fine, _, rfl, rfl, rfl⟩

theorem accept_move {b : Builder} {token : Token} {closed : Bool}
    (fine : b.problem? closed token.lexeme = none) : Move token closed b.levels (b.accept token).levels := by
  cases begins : token.lexeme.awaits with
  | some k =>
      obtain ⟨isClosed, shallow, level, top, opens, waits⟩ := accept_opening begins fine
      rw [top]
      exact .enter opens (waits ▸ begins) isClosed shallow
  | none =>
      obtain ⟨l, position, raw⟩ := token
      obtain ⟨nodes, levels, demoted⟩ := b
      rcases levels with _ | ⟨⟨directive | directive, opening, before⟩, outer⟩ <;>
        cases l <;> cases begins <;> first
          | exact .leave rfl
          | exact .branch rfl rfl rfl
          | exact .stay fun _ _ top => nomatch top
          | cases fine

theorem step_move {strict closed : Bool} {b c : Builder} {token : Token}
    (taken : b.step strict token closed = .ok c) : Move token closed b.levels c.levels := by
  rcases step_eq_ok.mp taken with ⟨fine, rfl⟩ | ⟨problem, found, -, rfl⟩
  · exact accept_move fine
  · refine .stay fun level outer top => Bool.eq_false_iff.mpr fun closes => ?_
    rw [problem?_of_closes closed top closes] at found
    cases found

theorem Reads.lenient {b c : Builder} {tokens left : List Token} (run : Reads true b tokens c left) :
    Reads false b tokens c left := by
  induction run with
  | refl => exact .refl _ _
  | step taken _ ih =>
      rcases step_eq_ok.mp taken with fine | ⟨_, _, strict, _⟩
      · exact .step (step_eq_ok.mpr (.inl fine)) ih
      · cases strict

/-! ## Closing in time -/

/--
What comes of a directive with levels `outer` around it, from inside it on: a closing tag ends it and leaves at least
`low` tokens, or no later than that a token is refused.
-/
inductive Settles (strict : Bool) (opening : Token) (outer : List Level) (a : Awaited) (low : Nat)
    (b : Builder) (tokens : List Token) : Prop
  | closed {inner done : Builder} {closer : Token} {rest : List Token} {level : Level} :
      Reads strict b tokens inner (closer :: rest) → low ≤ rest.length → closer.lexeme.closes a = true →
      inner.levels = level :: outer → level.opening = opening →
      inner.step strict closer (opened closer rest).isSome = .ok done → done.levels = outer →
      Settles strict opening outer a low b tokens
  | refused {inner : Builder} {token : Token} {rest : List Token} {error : TemplateError} :
      Reads strict b tokens inner (token :: rest) → low ≤ rest.length →
      inner.step strict token (opened token rest).isSome = .error error →
      Settles strict opening outer a low b tokens

theorem Settles.of_reads {strict : Bool} {opening : Token} {outer : List Level} {a : Awaited} {low : Nat}
    {b c : Builder} {tokens left : List Token} (before : Reads strict b tokens c left)
    (h : Settles strict opening outer a low c left) : Settles strict opening outer a low b tokens := by
  cases h with
  | closed run le closes top same done gone => exact .closed (before.trans run) le closes top same done gone
  | refused run le fails => exact .refused (before.trans run) le fails

theorem settles (strict : Bool) {a : Awaited} {us : List Token} :
    {tokens : List Token} → {b : Builder} → {level : Level} → {outer : List Level} → Guards a tokens us →
      b.levels = level :: outer → level.directive.awaits = a →
      Settles strict level.opening outer a us.length b tokens
  | [], _, _, _, guards, _, _ => absurd guards.length_lt (by simp)
  | token :: rest, b, level, outer, guards, top, waits => by
      have enough : us.length ≤ rest.length := Nat.le_of_lt_succ guards.length_lt
      cases taken : b.step strict token (opened token rest).isSome with
      | error e => exact .refused (.refl _ _) enough taken
      | ok c =>
          have one : Reads strict b (token :: rest) c rest := .step taken (.refl _ _)
          have move := step_move taken
          rw [top] at move
          generalize same : c.levels = levels at move
          cases move with
          | stay stays =>
              have stays := stays level outer rfl
              rw [waits] at stays
              exact (settles strict (guards.tail stays) same waits).of_reads one
          | branch opens still stays =>
              rw [waits] at stays
              rw [← opens]
              exact (settles strict (guards.tail stays) same (still.trans waits)).of_reads one
          | leave closes =>
              rw [waits] at closes
              exact .closed (.refl _ _) enough closes top rfl taken same
          | enter opens begins closed _ =>
              -- The directive inside is settled first, within its own stretch and so before the guarding tag.
              obtain ⟨inside, found⟩ := Option.isSome_iff_exists.mp closed
              have outside := guards.tail (not_closes_of_awaits begins a)
              have longer := guards.nested token rest inside List.suffix_rfl outside.length_lt found
              rw [opened_of_awaits begins] at found
              cases settles strict (ending_guards found) same rfl with
              | refused run le fails => exact .refused (one.trans run) (by omega) fails
              | @closed inner next closer behind _ run le _ _ _ done gone =>
                  have two : Reads strict b (token :: rest) next behind :=
                    one.trans (run.trans (.step done (.refl _ _)))
                  have part : behind <:+ rest := (List.suffix_cons _ _).trans run.suffix
                  have shorter := part.length_le
                  exact (settles strict (outside.of_suffix part (by omega)) gone waits).of_reads two
termination_by tokens => tokens.length
decreasing_by all_goals simp only [List.length_cons]; omega

/-! ## Whole runs -/

theorem reads_lenient_drop (b : Builder) (tokens : List Token) (n : Nat) :
    ∃ c, Reads false b tokens c (tokens.drop n) := by
  induction n generalizing b tokens with
  | zero => exact ⟨b, .refl _ _⟩
  | succ n ih =>
      cases tokens with
      | nil => exact ⟨b, .refl _ _⟩
      | cons token rest =>
          obtain ⟨next, taken⟩ := step_lenient b token (opened token rest).isSome
          obtain ⟨c, run⟩ := ih next rest
          exact ⟨c, .step taken run⟩

theorem reads_lenient (b : Builder) (tokens : List Token) : ∃ c, Reads false b tokens c [] := by
  obtain ⟨c, run⟩ := reads_lenient_drop b tokens tokens.length
  rw [List.drop_length] at run
  exact ⟨c, run⟩

theorem Reads.levels_eq_nil {strict : Bool} {c : Builder} :
    {tokens : List Token} → {b : Builder} → b.levels = [] → Reads strict b tokens c [] → c.levels = []
  | [], _, atTop, run => by rw [run.eq_of_all_left rfl, atTop]
  | token :: rest, _, atTop, run => by
      obtain ⟨next, taken, run⟩ := run.uncons (Nat.zero_le _)
      have move := step_move taken
      rw [atTop] at move
      generalize same : next.levels = levels at move
      cases move with
      | stay _ => exact run.levels_eq_nil same
      | enter opens begins closed _ =>
          -- The run goes past whatever the directive comes to, and so past its closing tag.
          obtain ⟨inside, found⟩ := Option.isSome_iff_exists.mp closed
          rw [opened_of_awaits begins] at found
          cases settles strict (ending_guards found) same rfl with
          | refused part _ fails =>
              obtain ⟨_, taken, _⟩ := (run.resume part (Nat.zero_le _)).uncons (Nat.zero_le _)
              rw [fails] at taken
              cases taken
          | @closed _ done closer behind _ part _ _ _ _ leaves gone =>
              have shorter := ((List.suffix_cons _ _).trans part.suffix : behind <:+ rest).length_le
              exact (run.resume (part.trans (.step leaves (.refl _ _))) (Nat.zero_le _)).levels_eq_nil gone
termination_by tokens => tokens.length
decreasing_by all_goals simp only [List.length_cons]; omega

theorem Reads.closes {strict : Bool} {b c : Builder} {opening : Token} {rest us : List Token}
    (fine : b.problem? (opened opening rest).isSome opening.lexeme = none) (ends : opened opening rest = some us)
    (whole : Reads strict b (opening :: rest) c us) :
    ∃ inner closer left level outer, Reads strict b (opening :: rest) inner (closer :: left) ∧
      us.length ≤ left.length ∧ left.length < rest.length ∧ closer.lexeme = closingOf opening.lexeme ∧
      inner.levels = level :: b.levels ∧ level.opening = opening ∧
      Reads strict b (opening :: rest) outer left ∧ outer.levels = b.levels := by
  obtain ⟨k, begins, found⟩ := opened_eq_some ends
  obtain ⟨-, -, level, top, opens, waits⟩ := accept_opening begins fine
  have entered : Reads strict b (opening :: rest) (b.accept opening) rest :=
    .step (step_eq_ok.mpr (.inl ⟨fine, rfl⟩)) (.refl _ _)
  cases settles strict (ending_guards found) top waits with
  | refused run low fails =>
      obtain ⟨_, taken, _⟩ := (whole.resume (entered.trans run) (Nat.le_succ_of_le low)).uncons low
      rw [fails] at taken
      cases taken
  | @closed inner outer closer left level' run low closes levels same leaves gone =>
      exact ⟨inner, closer, left, level', outer, entered.trans run, low, run.suffix.length_le,
        eq_closingOf begins closes, levels, same.trans opens,
        entered.trans (run.trans (.step leaves (.refl _ _))), gone⟩

theorem finish_of_levels {b : Builder} (atTop : b.levels = []) :
    b.finish = .ok (b.nodes.reverse, b.demoted.reverse) := by
  rw [finish, atTop]

def reading (strict : Bool) (tokens : List Token) (n : Nat) : Except TemplateError Builder :=
  run strict .empty ((marked (upToEnd tokens)).take n)

theorem reading_iff {strict : Bool} {tokens : List Token} {n : Nat} {c : Builder} (le : n ≤ (upToEnd tokens).length) :
    reading strict tokens n = .ok c ↔ Reads strict .empty (upToEnd tokens) c ((upToEnd tokens).drop n) :=
  run_take_iff le

theorem reading_of_reads {strict : Bool} {tokens left : List Token} {c : Builder}
    (run : Reads strict .empty (upToEnd tokens) c left) :
    reading strict tokens ((upToEnd tokens).length - left.length) = .ok c := by
  rw [reading_iff (Nat.sub_le _ _), ← List.suffix_iff_eq_drop.mp run.suffix]
  exact run

theorem reading_all {strict : Bool} {tokens : List Token} {c : Builder} :
    reading strict tokens (upToEnd tokens).length = .ok c ↔ Reads strict .empty (upToEnd tokens) c [] := by
  rw [reading_iff (Nat.le_refl _), List.drop_length]

end Builder

open Builder

theorem Block.ofTokens_eq_ok {strict : Bool} {tokens : List Token} {block : Block} {demoted : List Demotion} :
    Block.ofTokens strict tokens = .ok (block, demoted) ↔
      ∃ c, Reads strict .empty (upToEnd tokens) c [] ∧ c.nodes.reverse = block ∧ c.demoted.reverse = demoted := by
  have whole : Block.ofTokens strict tokens = reading strict tokens (upToEnd tokens).length >>= finish := by
    rw [reading, List.take_of_length_le (by simp [marked])]
    rfl
  rw [whole, bind_eq_ok]
  refine exists_congr fun c => ?_
  rw [reading_all]
  refine and_congr_right fun run => ?_
  rw [finish_of_levels (run.levels_eq_nil rfl), Except.ok.injEq, Prod.mk.injEq]

theorem Block.ofTokens_lenient_ok (tokens : List Token) :
    ∃ block demoted, Block.ofTokens false tokens = .ok (block, demoted) := by
  obtain ⟨c, run⟩ := reads_lenient .empty (upToEnd tokens)
  exact ⟨_, _, Block.ofTokens_eq_ok.mpr ⟨c, run, rfl, rfl⟩⟩

theorem Block.ofTokens_lenient {tokens : List Token} {block : Block} {demoted : List Demotion}
    (parsed : Block.ofTokens true tokens = .ok (block, demoted)) :
    Block.ofTokens false tokens = .ok (block, demoted) := by
  obtain ⟨c, run, same⟩ := Block.ofTokens_eq_ok.mp parsed
  exact Block.ofTokens_eq_ok.mpr ⟨c, run.lenient, same⟩

theorem upToEnd_cons {token : Token} (inside : token.lexeme ≠ .endOfText) (rest : List Token) :
    upToEnd (token :: rest) = token :: upToEnd rest := by
  simp [upToEnd, inside]

theorem upToEnd_split (tokens : List Token) :
    tokens = upToEnd tokens ∨
      ∃ stop later, stop.lexeme = .endOfText ∧ tokens = upToEnd tokens ++ stop :: later := by
  induction tokens with
  | nil => exact .inl rfl
  | cons token rest ih =>
      by_cases ends : token.lexeme = .endOfText
      · exact .inr ⟨token, rest, ends, by simp [upToEnd, ends]⟩
      · simpa [upToEnd_cons ends] using ih

theorem closings_upToEnd {tokens : List Token} {i : Nat} (inside : i < (upToEnd tokens).length) :
    (closings tokens)[i]? = (closings (upToEnd tokens))[i]? := by
  obtain ⟨token, rest, at_⟩ : ∃ token rest, (upToEnd tokens).drop i = token :: rest :=
    List.exists_cons_of_ne_nil (by simpa using inside)
  rcases upToEnd_split tokens with all | ⟨stop, later, ends, all⟩
  · rw [← all]
  · have at_' : tokens.drop i = token :: (rest ++ stop :: later) := by
      rw [all, List.drop_append_of_le_length (Nat.le_of_lt inside), at_, List.cons_append]
    rw [closings_getElem? at_, closings_getElem? at_']
    rw [opened_append ends, Option.map_map]
    congr 2
    funext us
    have size := congrArg List.length all
    simp only [Function.comp_apply, List.length_append, List.length_cons] at size ⊢
    omega

/--
Reading that keeps misplaced tags as text always gives a block, and in neither mode is a directive left open. Every
opening tag that is let through is closed no later than at the closing tag recorded for it: by a fitting tag, with the
directives around it as they were.
-/
theorem ofTokens_total (tokens : List Token) :
    (∃ block demoted, Block.ofTokens false tokens = .ok (block, demoted)) ∧
    (∀ strict b, reading strict tokens (upToEnd tokens).length = .ok b → ∃ parsed, b.finish = .ok parsed) ∧
    ∀ strict i opening b, (upToEnd tokens)[i]? = some opening → opening.lexeme.awaits.isSome →
      reading strict tokens i = .ok b →
      b.problem? ((closings tokens)[i]?.join).isSome opening.lexeme = none →
      ∃ e, (closings tokens)[i]? = some (some e) ∧ ∀ c, reading strict tokens e = .ok c →
        ∃ j closer inner level outer, i < j ∧ j < e ∧ (upToEnd tokens)[j]? = some closer ∧
          closer.lexeme = closingOf opening.lexeme ∧
          reading strict tokens j = .ok inner ∧ inner.levels = level :: b.levels ∧ level.opening = opening ∧
          reading strict tokens (j + 1) = .ok outer ∧ outer.levels = b.levels := by
  refine ⟨Block.ofTokens_lenient_ok tokens, ?_, ?_⟩
  · intro strict b run
    exact ⟨_, finish_of_levels ((reading_all.mp run).levels_eq_nil rfl)⟩
  · intro strict i opening b here begins run fine
    obtain ⟨k, begins⟩ := Option.isSome_iff_exists.mp begins
    obtain ⟨inside, found⟩ := List.getElem?_eq_some_iff.mp here
    have behind : (upToEnd tokens).drop i = opening :: (upToEnd tokens).drop (i + 1) := by
      rw [← found, List.drop_eq_getElem_cons inside]
    generalize (upToEnd tokens).drop (i + 1) = rest at behind
    have size : (upToEnd tokens).length - i = rest.length + 1 := by
      simpa only [List.length_drop, List.length_cons] using congrArg List.length behind
    have record := (closings_upToEnd inside).trans (closings_getElem? behind)
    rw [record, Option.join_some, Option.isSome_map] at fine
    obtain ⟨closed, -⟩ := accept_opening begins fine
    obtain ⟨us, ends⟩ := Option.isSome_iff_exists.mp closed
    rw [ends, Option.map_some] at record
    rw [reading_iff (Nat.le_of_lt inside), behind] at run
    have back : us <:+ upToEnd tokens := (opened_suffix ends).trans (behind ▸ List.drop_suffix i _)
    refine ⟨_, record, fun c whole => ?_⟩
    rw [reading_iff (Nat.sub_le _ _), ← List.suffix_iff_eq_drop.mp back] at whole
    have later : us.length ≤ (opening :: rest).length := (opened_suffix ends).length_le
    obtain ⟨inner, closer, left, level, outer, run', low, early, fits, levels, opens, done, gone⟩ :=
      (whole.resume run later).closes fine ends
    have until_ := run.trans run'
    have split := List.suffix_iff_eq_drop.mp until_.suffix
    rw [List.length_cons] at split
    have next : (upToEnd tokens).length - (left.length + 1) + 1 = (upToEnd tokens).length - left.length := by omega
    refine ⟨(upToEnd tokens).length - (left.length + 1), closer, inner, level, outer, by omega, by omega, ?_, fits,
      reading_of_reads until_, levels, opens, ?_, gone⟩
    · rw [← List.head?_drop, ← split]
      rfl
    · rw [next]
      exact reading_of_reads (run.trans done)

end TextTemplate
