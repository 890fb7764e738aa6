import TextTemplate.Proofs.Block.Agreement
import TextTemplate.Proofs.Block.Shape
import TextTemplate.Proofs.Render.Steps

namespace TextTemplate

theorem bind_ne_tooDeep {α β : Type} {x : Except ExprFault α} {f : α → Except ExprFault β}
    (first : x ≠ .error .tooDeep) (second : ∀ a, f a ≠ .error .tooDeep) : x >>= f ≠ .error .tooDeep := by
  intro failed
  rcases Builder.bind_eq_error.mp failed with failed | ⟨a, -, failed⟩
  · exact first failed
  · exact second a failed

theorem Path.read_ne_tooDeep (source : Text) : Path.read source ≠ .error .tooDeep := by
  unfold Path.read
  dsimp only
  split
  · nofun
  · split <;> nofun

theorem Operand.read_ne_tooDeep (source : Text) : Operand.read source ≠ .error .tooDeep := by
  unfold Operand.read
  split
  · nofun
  · exact bind_ne_tooDeep (Path.read_ne_tooDeep _) fun _ => nofun

theorem Condition.read_ne_tooDeep (source : Text) : Condition.read source ≠ .error .tooDeep := by
  unfold Condition.read
  dsimp only
  split
  · exact bind_ne_tooDeep (Path.read_ne_tooDeep _) fun _ => bind_ne_tooDeep (Operand.read_ne_tooDeep _) fun _ => nofun
  · split <;> exact bind_ne_tooDeep (Path.read_ne_tooDeep _) fun _ => nofun

theorem Expr.read_ne_tooDeep (source : Text) : Expr.read source ≠ .error .tooDeep := by
  unfold Expr.read
  dsimp only
  split
  · nofun
  · split
    · apply bind_ne_tooDeep (Condition.read_ne_tooDeep _)
      intro test
      apply bind_ne_tooDeep (Operand.read_ne_tooDeep _)
      intro whenTrue
      exact bind_ne_tooDeep (Operand.read_ne_tooDeep _) fun _ => nofun
    · split
      · exact bind_ne_tooDeep (Condition.read_ne_tooDeep _) fun _ => nofun
      · exact bind_ne_tooDeep (Operand.read_ne_tooDeep _) fun _ => nofun

theorem Operand.branchText_ne_tooDeep (ctx : Context) (o : Operand) : o.branchText ctx ≠ .error .tooDeep := by
  rw [Operand.branchText]
  split <;> nofun

theorem Expr.render_ne_tooDeep (ctx : Context) (e : Expr) : e.render ctx ≠ .error .tooDeep := by
  cases e with
  | operand o => nofun
  | condition c => nofun
  | ternary c whenTrue whenFalse => exact Operand.branchText_ne_tooDeep ctx _

theorem Expr.value_ne_tooDeep (ctx : Context) (e : Expr) : e.value ctx ≠ .error .tooDeep := by
  cases e with
  | operand o => nofun
  | condition c => nofun
  | ternary c whenTrue whenFalse => exact bind_ne_tooDeep (Operand.branchText_ne_tooDeep ctx _) fun _ => nofun

inductive TemplateError.Refusal : TemplateError → Prop
  | bare : Refusal (.expression .tooDeep)
  | at_ (line : Nat) : Refusal (.directive line .tooDeep)

theorem Node.Fails.fault_ne {node : Node} {x : Suppression} {line : Nat} {fault : ExprFault}
    (fails : node.Fails x line fault) : fault ≠ .tooDeep := by
  rintro rfl
  cases fails with
  | interpolation failed => exact bind_ne_tooDeep (Expr.read_ne_tooDeep _) (Expr.render_ne_tooDeep _) failed
  | binding failed => exact bind_ne_tooDeep (Expr.read_ne_tooDeep _) (Expr.value_ne_tooDeep _) failed
  | loop failed => exact Path.read_ne_tooDeep _ failed
  | conditional _ _ failed => exact Condition.read_ne_tooDeep _ failed

theorem Raised.not_refusal {block : Block} {x : Suppression} (raised : Raised block x) : ¬ x.error.Refusal := by
  obtain ⟨node, line, fault, -, fails⟩ := raised
  have other := fails.fault_ne
  intro refused
  cases fails <;> cases refused <;> exact other rfl

theorem Raised.not_refusal_atLine {block : Block} {x : Suppression} (raised : Raised block x) :
    ¬ (x.error.atLine x.line).Refusal := by
  obtain ⟨node, line, fault, -, fails⟩ := raised
  rw [fails.report]
  intro refused
  cases refused
  exact fails.fault_ne rfl

namespace Render

def Bounded {α : Type} (m : Render α) : Prop :=
  ∀ s, s.stats.maxDepth ≤ nestingMax + 1 → (m s).2.stats.maxDepth ≤ nestingMax + 1

theorem stable_bounded : Stable fun _ m => Bounded m where
  gives _ _ low := low
  chains {_ _ m f} first second s low := by
    have begun := first s low
    rcases done : m s with ⟨_ | a, after⟩ <;> rw [done] at begun
    · rw [bind_of_error done]
      exact begun
    · rw [bind_of_ok done]
      exact second a after begun
  fails _ _ low := low
  looks _ low := low
  counts tally s low := by
    cases tally with
    | block room => exact Nat.max_le.mpr ⟨low, Nat.succ_le_succ room⟩
    | _ => exact low
  binds _ _ _ low := low
  elsewhere ctx _ inside s low := inside { s with context := ctx } low
  framed inside s low := inside { s with context := s.context.enterBranch } low
  recovers {_} strict _ _ _ {m} inside s low := by
    have begun := inside s low
    rcases done : m s with ⟨_ | _, after⟩ <;> rw [done] at begun
    · cases strict <;> simpa [recover, done] using begun
    · simpa [recover, done] using begun

end Render

namespace Template

def Unrefused : Except TemplateError Rendered → Prop
  | .ok r => r.stats.maxDepth ≤ nestingMax + 1 ∧ ∀ x ∈ r.suppressed, ¬ x.error.Refusal
  | .error e => ¬ e.Refusal

theorem unrefused_render {t : Template} (room : Node.heights t.block ≤ nestingMax) (options : Options) (data : Value) :
    Unrefused (t.render options data) := by
  obtain ⟨strict, defaults⟩ := options
  cases rooted : root defaults data with
  | error e =>
      have failed : t.render ⟨strict, defaults⟩ data = .error e := by
        rw [render, rooted]
        rfl
      rw [failed]
      intro refused
      cases data <;> cases rooted <;> cases refused
  | ok whole =>
      -- A strict render stops at what a lenient one notes first, so the notes answer for both modes.
      have follow : Render.Follows (Raised t.block) (fun _ => False) (Render.block true 0 t.block)
          (Render.block false 0 t.block) := Render.follows_block (by omega)
      obtain ⟨added, notes, fails, agrees⟩ := follow (start whole)
      have bounded := Render.stable_bounded.block false 0 t.block (start whole) (Nat.zero_le _)
      rcases same : Render.block false 0 t.block (start whole) with ⟨result, after⟩
      rw [same] at notes fails agrees bounded
      have suppressed : after.suppressed = added := by simpa [start] using notes.suppressed
      cases result with
      | error e => exact (fails e rfl).elim
      | ok output =>
          have quiet : ∀ x ∈ after.suppressed, ¬ x.error.Refusal := by
            intro x member
            rw [suppressed] at member
            exact (notes.raised x member).not_refusal
          cases strict with
          | false =>
              rw [render_of_root rooted, same]
              exact ⟨bounded, quiet⟩
          | true =>
              rw [render_of_root rooted]
              cases added with
              | nil =>
                  rw [show Render.block true 0 t.block (start whole) = _ from agrees]
                  exact ⟨bounded, quiet⟩
              | cons first more =>
                  rcases stops : Render.block true 0 t.block (start whole) with ⟨stopped, left⟩
                  rw [stops] at agrees
                  obtain rfl : stopped = .error (first.error.atLine first.line) := agrees
                  exact (notes.raised first List.mem_cons_self).not_refusal_atLine

end Template

theorem Block.ofTokens_eq_error {strict : Bool} {tokens : List Token} {e : TemplateError}
    (failed : Block.ofTokens strict tokens = .error e) : ∃ position tag problem, e = .parse position tag problem := by
  obtain ⟨block, demoted, lenient⟩ := Block.ofTokens_lenient_ok tokens
  cases strict with
  | false => cases lenient.symm.trans failed
  | true =>
      rw [Block.ofTokens_strict lenient] at failed
      cases demoted with
      | nil => cases failed
      | cons first more =>
          cases failed
          exact ⟨_, _, _, rfl⟩

/--
A block read from any tokens in either mode is in order, with all blocks inside it, and lies within the limit. So when a
template is parsed in one mode and rendered in one, for no data is a block refused for its depth, and none counts as
deeper than one more than the limit.
-/
theorem parsed_within_limits :
    (∀ strict tokens block demoted, Block.ofTokens strict tokens = .ok (block, demoted) → Block.WellShaped 0 block) ∧
    ∀ strict template options data,
      Template.Unrefused (do (← Template.parse strict template).render options data) := by
  refine ⟨fun _ _ _ _ => ofTokens_shaped, fun strict template options data => ?_⟩
  cases parsed : Template.parse strict template with
  | error e =>
      rcases Builder.bind_eq_error.mp parsed with failed | ⟨_, -, failed⟩
      · obtain ⟨position, tag, problem, rfl⟩ := Block.ofTokens_eq_error failed
        exact nofun
      · cases failed
  | ok t => exact Template.unrefused_render (ofTokens_heights (Template.parse_eq_ok.mp parsed).1) options data

end TextTemplate
