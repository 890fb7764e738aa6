import TextTemplate.Proofs.Block.Descent
import TextTemplate.Proofs.Block.Grammar

/-!
# The extents of directives

Where no more than `nestingMax` directives lie inside each other, lenient reading gives each closed opening tag exactly
the tokens up to its recorded closing tag. Every open directive waits for an end that the search for closing tags has
found (`Awaiting`); a step over a token either leaves the open directives waiting for these same ends, or opens one more
or closes the innermost one at its end (`Turn`, `Awaiting.turn`). As the ends lie in the order of the levels, none is
missed, and the room for a further directive follows from the stretches around it (`Awaiting.room`).
-/

namespace TextTemplate
open Token

namespace OpenDirective

def BegunBy (opening : Token) : OpenDirective → Prop
  | .loop index item path => opening.lexeme = .forOpen index item path
  | .chain finished kind condition line =>
      ∃ source, opening.lexeme = .ifOpen source ∧ ∀ body, ∃ first others,
        (Branch.mk kind condition body line :: finished).reverse =
          .mk .first (some source) first opening.position.line :: others

variable {opening : Token} {finished : List Branch} {kind : BranchKind} {condition : Option Text} {line : Nat}

theorem BegunBy.nextBranch (h : (chain finished kind condition line).BegunBy opening) (body : Block)
    (kind' : BranchKind) (condition' : Option Text) (line' : Nat) :
    (chain (.mk kind condition body line :: finished) kind' condition' line').BegunBy opening := by
  obtain ⟨source, opens, shape⟩ := h
  refine ⟨source, opens, fun body' => ?_⟩
  obtain ⟨first, others, same⟩ := shape body
  exact ⟨first, others ++ [.mk kind' condition' body' line'], by rw [List.reverse_cons, same, List.cons_append]⟩

end OpenDirective

inductive Node.BegunBy (opening : Token) : Node → Prop
  | loop {index : Option Text} {item path : Text} (body : Block) :
      opening.lexeme = .forOpen index item path →
      BegunBy opening (.loop index item path body opening.position.line)
  | conditional {condition : Text} (body : Block) (others : List Branch) :
      opening.lexeme = .ifOpen condition →
      BegunBy opening
        (.conditional (.mk .first (some condition) body opening.position.line :: others) opening.position.line)

theorem OpenDirective.BegunBy.conditional {opening : Token} {finished : List Branch} {kind : BranchKind}
    {condition : Option Text} {line : Nat} (h : (chain finished kind condition line).BegunBy opening) (body : Block) :
    Node.BegunBy opening (.conditional (.mk kind condition body line :: finished).reverse opening.position.line) := by
  obtain ⟨source, opens, shape⟩ := h
  obtain ⟨first, others, same⟩ := shape body
  rw [same]
  exact .conditional first others opens

namespace Builder

inductive Turn (token : Token) (rest : List Token) (b c : Builder) : Prop
  | stay : c.levels = b.levels → opened token rest = none →
      (∀ level outer, b.levels = level :: outer → token.lexeme.closes level.directive.awaits = false) →
      Turn token rest b c
  | enter {level : Level} {us : List Token} : c.levels = level :: b.levels → opened token rest = some us →
      token.lexeme.awaits = some level.directive.awaits → level.opening = token → level.before = b.nodes →
      level.directive.BegunBy token → Turn token rest b c
  | branch {level next : Level} {outer : List Level} : b.levels = level :: outer → c.levels = next :: outer →
      opened token rest = none → token.lexeme.closes level.directive.awaits = false →
      next.directive.awaits = level.directive.awaits → next.opening = level.opening → next.before = level.before →
      (level.directive.BegunBy level.opening → next.directive.BegunBy level.opening) → Turn token rest b c
  | leave {level : Level} {outer : List Level} {node : Node} : b.levels = level :: outer → c.levels = outer →
      token.lexeme.closes level.directive.awaits = true → c.nodes = node :: level.before →
      (level.directive.BegunBy level.opening → node.BegunBy level.opening) → Turn token rest b c

theorem accept_turn {b : Builder} {token : Token} {rest : List Token}
    (fine : b.problem? (opened token rest).isSome token.lexeme = none) : Turn token rest b (b.accept token) := by
  cases begins : token.lexeme.awaits with
  | some k =>
      obtain ⟨closed, -, -⟩ := accept_opening begins fine
      obtain ⟨us, found⟩ := Option.isSome_iff_exists.mp closed
      obtain ⟨l, position, raw⟩ := token
      cases l <;> cases begins
      · exact .enter rfl found rfl rfl rfl rfl
      · exact .enter rfl found rfl rfl rfl ⟨_, rfl, fun body => ⟨body, [], rfl⟩⟩
  | none =>
      have passed : opened token rest = none := by rw [opened, begins, Option.bind_none]
      obtain ⟨l, position, raw⟩ := token
      obtain ⟨nodes, levels, demoted⟩ := b
      rcases levels with _ | ⟨⟨⟨index, item, path⟩ | ⟨finished, kind, condition, line⟩, opening, before⟩, outer⟩ <;>
        cases l <;> cases begins <;> try cases fine
      all_goals first
        | exact .stay rfl passed fun _ _ top => by cases top <;> rfl
        | exact .leave rfl rfl rfl rfl fun h => .loop _ h
        | exact .leave rfl rfl rfl rfl fun h => h.conditional _
        | exact .branch rfl rfl passed rfl rfl rfl rfl fun h => h.nextBranch _ _ _ _

theorem step_turn {b c : Builder} {token : Token} {rest : List Token}
    (taken : b.step false token (opened token rest).isSome = .ok c)
    (room : (opened token rest).isSome → b.levels.length < nestingMax) : Turn token rest b c := by
  rcases step_eq_ok.mp taken with ⟨fine, rfl⟩ | ⟨problem, found, -, rfl⟩
  · exact accept_turn fine
  · cases inside : opened token rest with
    | none =>
        refine .stay rfl inside fun level outer top => Bool.eq_false_iff.mpr fun closes => ?_
        rw [problem?_of_closes _ top closes] at found
        cases found
    | some us =>
        obtain ⟨k, begins, -⟩ := opened_eq_some inside
        have fine := Phrase.problem?_of_opening begins (room (by rw [inside]; rfl))
        rw [inside, Option.isSome_some, fine] at found
        cases found

/-! ## What open directives wait for -/

/--
Every open directive will be closed where the search for its closing tag ends: `ends` gives what follows the closing
tags, innermost first.
-/
inductive Awaiting (whole : List Token) : List Level → List (List Token) → List Token → Prop
  | top (tokens : List Token) : Awaiting whole [] [] tokens
  | inside {level : Level} {outer : List Level} {ends : List (List Token)} {body tokens us : List Token} :
      Awaiting whole outer ends (level.opening :: body) → level.opening :: body <:+ whole →
      opened level.opening body = some us → tokens <:+ body → ending level.directive.awaits tokens = some us →
      Awaiting whole (level :: outer) (us :: ends) tokens

namespace Awaiting

variable {levels outer : List Level} {level next : Level} {ends : List (List Token)} {token : Token}
  {whole tokens rest us : List Token}

theorem skip (h : Awaiting whole levels ends (token :: rest)) (found : opened token rest = some us) :
    Awaiting whole levels ends us := by
  cases h with
  | top => exact .top us
  | inside before around begins part waits =>
      rw [ending_of_opened found] at waits
      exact .inside before around begins ((opened_suffix found).trans part) waits

theorem pass (h : Awaiting whole levels ends (token :: rest)) (inside : token.lexeme ≠ .endOfText)
    (passed : opened token rest = none)
    (stays : ∀ level outer, levels = level :: outer → token.lexeme.closes level.directive.awaits = false) :
    Awaiting whole levels ends rest := by
  cases h with
  | top => exact .top rest
  | inside before around begins part waits =>
      rw [ending_of_passed inside (stays _ _ rfl), passed, Option.getD_none] at waits
      exact .inside before around begins ((List.suffix_cons _ _).trans part) waits

theorem relabel (h : Awaiting whole (level :: outer) ends tokens) (opens : next.opening = level.opening)
    (waits : next.directive.awaits = level.directive.awaits) : Awaiting whole (next :: outer) ends tokens := by
  cases h with
  | inside before around begins part found =>
      rw [← opens] at before around begins
      rw [← waits] at found
      exact .inside before around begins part found

theorem leave (h : Awaiting whole (level :: outer) (us :: ends) (token :: rest))
    (closes : token.lexeme.closes level.directive.awaits = true) : us = rest ∧ Awaiting whole outer ends rest := by
  cases h with
  | inside before around begins part waits =>
      rw [ending_of_closes closes] at waits
      cases waits
      exact ⟨rfl, before.skip begins⟩

theorem enter (h : Awaiting whole levels ends (token :: rest)) (part : token :: rest <:+ whole)
    (opens : level.opening = token)
    (waits : token.lexeme.awaits = some level.directive.awaits) (found : opened token rest = some us) :
    Awaiting whole (level :: levels) (us :: ends) rest := by
  subst opens
  exact .inside h part found List.suffix_rfl (by rwa [opened_of_awaits waits] at found)

theorem ends_lt (h : Awaiting whole levels ends tokens) : ∀ us ∈ ends, us.length < tokens.length := by
  induction ends generalizing levels tokens with
  | nil => simp
  | cons us ends ih =>
      cases h with
      | inside before around begins part waits =>
          have own := ending_length waits
          refine List.forall_mem_cons.mpr ⟨own, fun vs member => ?_⟩
          exact Nat.lt_trans (ih (before.skip begins) vs member) own

theorem exists_nest (h : Awaiting whole levels ends (token :: rest)) (part : token :: rest <:+ whole)
    (found : opened token rest = some us) :
    ∃ is, is.length = levels.length ∧ ((whole.length - (rest.length + 1)) :: is).Pairwise (LiesIn whole) := by
  induction levels generalizing ends token rest us with
  | nil => exact ⟨[], rfl, List.pairwise_singleton _ _⟩
  | cons level outer ih =>
      cases h with
      | @inside _ _ ends body _ behind before around begins inner waits =>
          obtain ⟨is, size, nest⟩ := ih before around begins
          have lies : LiesIn whole (whole.length - (rest.length + 1)) (whole.length - (body.length + 1)) := by
            rw [ending_of_opened found] at waits
            exact liesIn_of_suffix around begins part found inner (ending_length waits)
          refine ⟨(whole.length - (body.length + 1)) :: is, by simp [size], List.pairwise_cons.mpr ⟨?_, nest⟩⟩
          refine List.forall_mem_cons.mpr ⟨lies, fun i member => ?_⟩
          exact lies.trans ((List.pairwise_cons.mp nest).1 i member)

theorem room (h : Awaiting whole levels ends (token :: rest)) (part : token :: rest <:+ whole)
    (found : opened token rest = some us) (shallow : NestsWithin nestingMax whole) :
    levels.length < nestingMax := by
  obtain ⟨is, size, nest⟩ := h.exists_nest part found
  rw [← size]
  exact shallow _ nest

theorem turn {b c : Builder} (h : Awaiting whole b.levels ends (token :: rest)) (part : token :: rest <:+ whole)
    (inside : token.lexeme ≠ .endOfText) (move : Turn token rest b c) : ∃ ends, Awaiting whole c.levels ends rest := by
  cases move with
  | stay same passed stays =>
      rw [same]
      exact ⟨_, h.pass inside passed stays⟩
  | enter same found waits opens _ _ =>
      rw [same]
      exact ⟨_, h.enter part opens waits found⟩
  | branch top same passed stays waits opens _ _ =>
      rw [top] at h
      rw [same]
      refine ⟨_, (h.pass inside passed ?_).relabel opens waits⟩
      rintro _ _ ⟨⟩
      exact stays
  | leave top same closes _ _ =>
      rw [top] at h
      rw [same]
      cases h with
      | inside before around begins part waits =>
          exact ⟨_, ((Awaiting.inside before around begins part waits).leave closes).2⟩

end Awaiting

/-! ## Extents of directives -/

structure Inside (whole : List Token) (b : Builder) (opening : Token) (us : List Token) (c : Builder)
    (left : List Token) : Prop where
  exists_levels : ∃ inner level innerEnds ends, c.levels = inner ++ level :: b.levels ∧
    inner.length = innerEnds.length ∧ Awaiting whole c.levels (innerEnds ++ us :: ends) left ∧
    level.opening = opening ∧ level.before = b.nodes ∧ level.directive.BegunBy opening

structure Done (b : Builder) (opening : Token) (c : Builder) : Prop where
  levels : c.levels = b.levels
  nodes : ∃ node, c.nodes = node :: b.nodes ∧ node.BegunBy opening

theorem Inside.turn {whole : List Token} {b c d : Builder} {opening token : Token} {us rest : List Token}
    (h : Inside whole b opening us c (token :: rest)) (part : token :: rest <:+ whole)
    (inside : token.lexeme ≠ .endOfText) (move : Turn token rest c d) :
    Inside whole b opening us d rest ∨ rest = us ∧ Done b opening d := by
  obtain ⟨inner, level, innerEnds, ends, split, size, waiting, opens, before, begun⟩ := h.exists_levels
  cases move with
  | stay same passed stays =>
      left
      rw [← same] at split
      refine ⟨inner, level, innerEnds, ends, split, size, ?_, opens, before, begun⟩
      rw [same]
      exact waiting.pass inside passed stays
  | @enter new vs same found waits opens' _ _ =>
      left
      refine ⟨new :: inner, level, vs :: innerEnds, ends, by rw [same, split]; rfl, by simp [size], ?_, opens, before,
        begun⟩
      rw [same]
      exact waiting.enter part opens' waits found
  | @branch last next outer top same passed stays waits opens' before' begun' =>
      left
      have more : Awaiting whole d.levels (innerEnds ++ us :: ends) rest := by
        rw [top] at waiting
        rw [same]
        refine (waiting.pass inside passed ?_).relabel opens' waits
        rintro _ _ ⟨⟩
        exact stays
      rw [top] at split
      cases inner with
      | nil =>
          obtain ⟨rfl, rfl⟩ := List.cons.inj split
          exact ⟨[], next, innerEnds, ends, same, size, more, opens'.trans opens, before'.trans before,
            opens ▸ begun' (opens ▸ begun)⟩
      | cons first inner =>
          obtain ⟨rfl, rfl⟩ := List.cons.inj split
          exact ⟨next :: inner, level, innerEnds, ends, same, size, more, opens, before, begun⟩
  | @leave last outer node top same closes made begun' =>
      rw [top] at split waiting
      cases inner with
      | nil =>
          -- Nothing else is open inside the directive, so the tag is the one it has waited for.
          obtain rfl : innerEnds = [] := List.eq_nil_of_length_eq_zero size.symm
          obtain ⟨rfl, rfl⟩ := List.cons.inj split
          obtain ⟨rfl, -⟩ := waiting.leave closes
          exact .inr ⟨rfl, same, node, by rw [made, before], opens ▸ begun' (opens ▸ begun)⟩
      | cons first inner =>
          obtain ⟨vs, innerEnds, rfl⟩ := List.exists_cons_of_length_eq_add_one size.symm
          obtain ⟨rfl, rfl⟩ := List.cons.inj split
          obtain ⟨-, more⟩ := waiting.leave closes
          exact .inl ⟨inner, level, innerEnds, ends, same, by simpa using size, same ▸ more, opens, before, begun⟩

section

variable {whole : List Token} (inside : ∀ token ∈ whole, token.lexeme ≠ .endOfText)
  (shallow : NestsWithin nestingMax whole)
include inside shallow

theorem Reads.awaiting {b c : Builder} {tokens left : List Token} (run : Reads false b tokens c left)
    (part : tokens <:+ whole) {ends : List (List Token)} (h : Awaiting whole b.levels ends tokens) :
    ∃ ends, Awaiting whole c.levels ends left := by
  induction run generalizing ends with
  | refl => exact ⟨ends, h⟩
  | step taken _ ih =>
      have move := step_turn taken fun closed => by
        obtain ⟨us, found⟩ := Option.isSome_iff_exists.mp closed
        exact h.room part found shallow
      obtain ⟨ends', more⟩ := h.turn part (inside _ (part.subset List.mem_cons_self)) move
      exact ih ((List.suffix_cons _ _).trans part) more

theorem Inside.reads {b c d : Builder} {opening : Token} {us tokens left : List Token}
    (run : Reads false c tokens d left) (part : tokens <:+ whole) (h : Inside whole b opening us c tokens)
    (le : us.length ≤ left.length) :
    (us.length < left.length → Inside whole b opening us d left) ∧ (us.length = left.length → Done b opening d) := by
  induction run with
  | refl =>
      refine ⟨fun _ => h, fun same => ?_⟩
      obtain ⟨_, _, _, _, _, _, waiting, _⟩ := h.exists_levels
      have := waiting.ends_lt us (by simp)
      omega
  | @step c next d token rest left taken run ih =>
      have move := step_turn taken fun closed => by
        obtain ⟨_, found⟩ := Option.isSome_iff_exists.mp closed
        obtain ⟨_, _, _, _, _, _, waiting, _⟩ := h.exists_levels
        exact waiting.room part found shallow
      rcases h.turn part (inside _ (part.subset List.mem_cons_self)) move with h | ⟨rfl, done⟩
      · exact ih ((List.suffix_cons _ _).trans part) h le
      · have same : left = rest := run.suffix.eq_of_length_le le
        subst same
        rw [run.eq_of_all_left rfl]
        exact ⟨fun less => absurd less (Nat.lt_irrefl _), fun _ => done⟩

theorem extent {b : Builder} {opening : Token} {rest us : List Token}
    (run : Reads false .empty whole b (opening :: rest)) (found : opened opening rest = some us) :
    ∃ next, Reads false b (opening :: rest) next rest ∧
      ∀ d left, Reads false next rest d left → us.length ≤ left.length →
        (us.length < left.length → Inside whole b opening us d left) ∧ (us.length = left.length → Done b opening d) := by
  obtain ⟨ends, waiting⟩ := run.awaiting inside shallow List.suffix_rfl (.top whole)
  have part : opening :: rest <:+ whole := run.suffix
  obtain ⟨next, taken⟩ := step_lenient b opening (opened opening rest).isSome
  have move := step_turn taken fun _ => waiting.room part found shallow
  obtain ⟨k, begins, -⟩ := opened_eq_some found
  refine ⟨next, .step taken (.refl _ _), fun d left more le => ?_⟩
  refine Inside.reads inside shallow more ((List.suffix_cons _ _).trans part) ?_ le
  cases move with
  | stay _ passed _ =>
      rw [passed] at found
      cases found
  | branch _ _ passed _ _ _ _ _ =>
      rw [passed] at found
      cases found
  | leave _ _ closes _ _ =>
      rw [not_closes_of_awaits begins] at closes
      cases closes
  | @enter level us' same found' waits opens before begun =>
      rw [found', Option.some.injEq] at found
      subst found
      exact ⟨[], level, [], ends, same, rfl, same ▸ waiting.enter part opens waits found', opens, before, begun⟩

end

theorem demote_of_unclosed {b next : Builder} {opening : Token} (begins : opening.lexeme.awaits.isSome)
    (taken : b.step false opening false = .ok next) :
    next = b.demote opening (.neverClosed (closingOf opening.lexeme)) := by
  obtain ⟨l, position, raw⟩ := opening
  cases l <;> cases begins <;> cases taken <;> rfl

theorem nestsWithin_upToEnd {tokens : List Token} {depth : Nat} (shallow : NestsWithin depth tokens) :
    NestsWithin depth (upToEnd tokens) := by
  intro is nest
  apply shallow
  refine nest.imp ?_
  rintro j i ⟨e, f, outer, inner, order⟩
  have recorded {k g : Nat} (closed : (closings (upToEnd tokens))[k]? = some (some g)) :
      (closings tokens)[k]? = some (some g) := by
    obtain ⟨less, -, -⟩ := closer_of_closings closed
    obtain ⟨_, _, at_, -, -⟩ := opened_of_closings closed
    rw [closings_upToEnd (lt_length_of_drop at_), closed]
  exact ⟨e, f, recorded outer, recorded inner, order⟩

/-! ## Told by indices -/

theorem upToEnd_inside (tokens : List Token) : ∀ token ∈ upToEnd tokens, token.lexeme ≠ .endOfText := by
  intro token member
  simpa using List.all_eq_true.mp List.all_takeWhile token member

section

variable {tokens : List Token} {opening : Token} {i : Nat} (here : (upToEnd tokens)[i]? = some opening)
include here

theorem drop_of_getElem? : (upToEnd tokens).drop i = opening :: (upToEnd tokens).drop (i + 1) := by
  obtain ⟨inside, rfl⟩ := List.getElem?_eq_some_iff.mp here
  exact List.drop_eq_getElem_cons inside

theorem opened_of_record {found : Option Nat} (record : (closings tokens)[i]? = some found) :
    (opened opening ((upToEnd tokens).drop (i + 1))).map (fun us => (upToEnd tokens).length - us.length) = found := by
  obtain ⟨inside, -⟩ := List.getElem?_eq_some_iff.mp here
  rw [closings_upToEnd inside, closings_getElem? (drop_of_getElem? here)] at record
  exact Option.some.inj record

theorem reading_demotes {b : Builder} (begins : opening.lexeme.awaits.isSome)
    (unclosed : (closings tokens)[i]? = some none) (read : reading false tokens i = .ok b) :
    reading false tokens (i + 1) = .ok (b.demote opening (.neverClosed (closingOf opening.lexeme))) := by
  obtain ⟨inside, -⟩ := List.getElem?_eq_some_iff.mp here
  have ends : opened opening ((upToEnd tokens).drop (i + 1)) = none :=
    Option.map_eq_none_iff.mp (opened_of_record here unclosed)
  obtain ⟨next, taken⟩ := step_lenient b opening (opened opening ((upToEnd tokens).drop (i + 1))).isSome
  have run := (reading_iff (Nat.le_of_lt inside)).mp read
  rw [drop_of_getElem? here] at run
  have whole := (reading_iff inside).mpr (run.trans (.step taken (.refl _ _)))
  rw [ends] at taken
  rw [whole, demote_of_unclosed begins taken]

theorem reading_extent {b : Builder} {e : Nat} (shallow : NestsWithin nestingMax tokens)
    (closed : (closings tokens)[i]? = some (some e)) (read : reading false tokens i = .ok b) :
    (∀ j, i < j → j < e → ∃ d inner level, reading false tokens j = .ok d ∧ d.levels = inner ++ level :: b.levels ∧
      level.opening = opening ∧ level.before = b.nodes) ∧
    ∃ c node, reading false tokens e = .ok c ∧ c.levels = b.levels ∧ c.nodes = node :: b.nodes ∧
      node.BegunBy opening := by
  obtain ⟨inside, -⟩ := List.getElem?_eq_some_iff.mp here
  have at_ := drop_of_getElem? here
  obtain ⟨us, ends, rfl⟩ := Option.map_eq_some_iff.mp (opened_of_record here closed)
  have run := (reading_iff (Nat.le_of_lt inside)).mp read
  rw [at_] at run
  obtain ⟨next, one, more⟩ := extent (upToEnd_inside tokens) (nestsWithin_upToEnd shallow) run ends
  have back : us = (upToEnd tokens).drop ((upToEnd tokens).length - us.length) :=
    List.suffix_iff_eq_drop.mp ((opened_suffix ends).trans (at_ ▸ List.drop_suffix i _))
  have shorter : us.length < (upToEnd tokens).length - i := by
    obtain ⟨_, _, body⟩ := opened_eq_some ends
    have := ending_length body
    rw [List.length_drop] at this
    omega
  have reach (j : Nat) (later : i < j) (le : j ≤ (upToEnd tokens).length) :
      ∃ d, reading false tokens j = .ok d ∧
        Reads false next ((upToEnd tokens).drop (i + 1)) d ((upToEnd tokens).drop j) := by
    obtain ⟨d, most⟩ := reads_lenient_drop next ((upToEnd tokens).drop (i + 1)) (j - (i + 1))
    rw [List.drop_drop, Nat.add_sub_cancel' later] at most
    exact ⟨d, (reading_iff le).mpr ((run.trans one).trans most), most⟩
  constructor
  · intro j later before
    obtain ⟨d, read, most⟩ := reach j later (by omega)
    have longer : us.length < ((upToEnd tokens).drop j).length := by
      rw [List.length_drop]
      omega
    obtain ⟨inner, level, _, _, split, -, -, opens, same, -⟩ :=
      ((more d _ most (Nat.le_of_lt longer)).1 longer).exists_levels
    exact ⟨d, inner, level, read, split, opens, same⟩
  · obtain ⟨c, read, most⟩ := reach _ (by omega) (Nat.sub_le (upToEnd tokens).length us.length)
    rw [← back] at most
    obtain ⟨levels, node, nodes, begun⟩ := (more c us most (Nat.le_refl _)).2 rfl
    exact ⟨c, node, read, levels, nodes, begun⟩

end

end Builder

open Builder Descent

/--
The recorded closing tags are those of the recursive descent. Each directive lies between an opening tag and a fitting
closing tag, no closing tag serves two of them, and two of them lie inside each other or apart. If no more than
`nestingMax` lie inside each other, reading that keeps misplaced tags as text keeps exactly the unclosed opening tags,
and every other one is open from the next token on up to its recorded closing tag, behind which its node stands.
-/
theorem closings_iff_descent (tokens : List Token) :
    (∀ i e, (closings tokens)[i]? = some (some e) ↔
      ∃ opening rest, tokens.drop i = opening :: rest ∧ e ≤ tokens.length ∧
        directiveEnd opening rest = some (tokens.drop e)) ∧
    (∀ i e, (closings tokens)[i]? = some (some e) →
      i + 1 < e ∧ e ≤ tokens.length ∧ ∃ opening closer, tokens[i]? = some opening ∧ opening.lexeme.awaits.isSome ∧
        tokens[e - 1]? = some closer ∧ closer.lexeme = closingOf opening.lexeme) ∧
    (∀ i j e f : Nat, (closings tokens)[i]? = some (some e) → (closings tokens)[j]? = some (some f) →
      (i < j → f < e ∨ e ≤ j) ∧ (e = f → i = j)) ∧
    (NestsWithin nestingMax tokens → ∀ i opening, (upToEnd tokens)[i]? = some opening →
      opening.lexeme.awaits.isSome → ∃ b, reading false tokens i = .ok b ∧
        ((closings tokens)[i]? = some none →
          reading false tokens (i + 1) = .ok (b.demote opening (.neverClosed (closingOf opening.lexeme)))) ∧
        ∀ e, (closings tokens)[i]? = some (some e) →
          (∀ j, i < j → j < e → ∃ d inner level, reading false tokens j = .ok d ∧
            d.levels = inner ++ level :: b.levels ∧ level.opening = opening ∧ level.before = b.nodes) ∧
          ∃ c node, reading false tokens e = .ok c ∧ c.levels = b.levels ∧ c.nodes = node :: b.nodes ∧
            node.BegunBy opening) := by
  refine ⟨fun i e => ⟨fun closed => ?_, ?_⟩, fun i e => closer_of_closings, fun i j e f first second => ?_, ?_⟩
  · obtain ⟨opening, rest, at_, ends, le⟩ := opened_of_closings closed
    exact ⟨opening, rest, at_, le, by rw [directiveEnd_eq_opened, ends]⟩
  · rintro ⟨opening, rest, at_, le, ends⟩
    rw [directiveEnd_eq_opened] at ends
    exact closings_of_opened at_ ends le
  · refine ⟨closings_nested first second, fun shared => ?_⟩
    subst shared
    exact closings_injective first second
  · intro shallow i opening here begins
    obtain ⟨b, run⟩ := reads_lenient_drop .empty (upToEnd tokens) i
    obtain ⟨inside, -⟩ := List.getElem?_eq_some_iff.mp here
    have read : reading false tokens i = .ok b := (reading_iff (Nat.le_of_lt inside)).mpr run
    exact ⟨b, read, fun unclosed => reading_demotes here begins unclosed read,
      fun e closed => reading_extent here shallow closed read⟩

theorem Token.nestsWithin_of_length {tokens : List Token} {depth : Nat} (few : tokens.length ≤ depth)
    (some_ : 0 < depth) : NestsWithin depth tokens := by
  intro is nest
  have descends (j : Nat) (is : List Nat) (nest : (j :: is).Pairwise (LiesIn tokens)) : is.length ≤ j := by
    induction is generalizing j with
    | nil => exact Nat.zero_le j
    | cons i is ih =>
        obtain ⟨first, rest⟩ := List.pairwise_cons.mp nest
        obtain ⟨_, _, _, _, later, _⟩ := first i List.mem_cons_self
        exact Nat.succ_le_of_lt (Nat.lt_of_le_of_lt (ih i rest) later)
  match is with
  | [] => exact Nat.zero_le depth
  | [_] => exact some_
  | j :: i :: is =>
      obtain ⟨_, _, _, closed, _, _⟩ := (List.pairwise_cons.mp nest).1 i List.mem_cons_self
      obtain ⟨_, _, at_, -, -⟩ := opened_of_closings closed
      have within_ := lt_length_of_drop at_
      have under := descends j (i :: is) nest
      rw [List.length_cons]
      omega

theorem closings_iff_descent_nested :
    let tag : Lexeme → Token := fun l => ⟨l, .start, ['x']⟩
    let tokens := [tag (.ifOpen ['a']), tag (.forOpen none ['b'] ['c']), tag .otherwise, tag .forClose, tag .ifClose]
    NestsWithin nestingMax tokens ∧ closings tokens = [some 5, some 4, none, none, none] ∧
      ∃ b c node, reading false tokens 1 = .ok b ∧ reading false tokens 4 = .ok c ∧ c.levels = b.levels ∧
        c.nodes = node :: b.nodes := by
  intro tag tokens
  have few : NestsWithin nestingMax tokens := Token.nestsWithin_of_length (by decide) (by decide)
  have recorded : closings tokens = [some 5, some 4, none, none, none] := by decide
  obtain ⟨b, read, -, extent⟩ := (closings_iff_descent tokens).2.2.2 few 1 _ rfl rfl
  obtain ⟨-, c, node, done, levels, nodes, -⟩ := extent 4 (by rw [recorded]; rfl)
  exact ⟨few, recorded, b, c, node, read, done, levels, nodes⟩

end TextTemplate
