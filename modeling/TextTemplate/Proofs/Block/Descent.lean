import TextTemplate.Proofs.Block.Reading

namespace TextTemplate
open Token

/-! ## The descent -/

namespace Descent

inductive Enclosing where
  | loop | branch
  deriving DecidableEq, Repr

def Enclosing.endsAt : Enclosing → Lexeme → Bool
  | _, .endOfText => true
  | .loop, .forClose => true
  | .branch, .elseIf _ => true
  | .branch, .otherwise => true
  | .branch, .ifClose => true
  | _, _ => false

abbrev Left (tokens : List Token) : Type := { left : List Token // left.length ≤ tokens.length }

def Left.within {tokens part : List Token} (left : Left part) (le : part.length ≤ tokens.length) : Left tokens :=
  ⟨left.1, Nat.le_trans left.2 le⟩

mutual

/-- What is left where a block ends: the token that ends it and what follows, or nothing. -/
def readBlock (kind : Enclosing) : (tokens : List Token) → Left tokens
  | [] => ⟨[], Nat.le_refl _⟩
  | token :: rest =>
      if kind.endsAt token.lexeme then ⟨token :: rest, Nat.le_refl _⟩
      else
        match readDirective token rest with
        | some ⟨behind, le⟩ => (readBlock kind behind).within (Nat.le_succ_of_le le)
        | none => (readBlock kind rest).within (Nat.le_succ _)
termination_by tokens => 2 * tokens.length
decreasing_by all_goals simp only [List.length_cons]; omega

def readDirective (token : Token) (rest : List Token) : Option (Left rest) :=
  match token.lexeme with
  | .forOpen _ _ _ =>
      match readBlock .loop rest with
      | ⟨[], _⟩ => none
      | ⟨closer :: behind, le⟩ => if closer.lexeme = .forClose then some ⟨behind, Nat.le_of_succ_le le⟩ else none
  | .ifOpen _ =>
      match readBlock .branch rest with
      | ⟨left, le⟩ => (readChain left).map (·.within le)
  | _ => none
termination_by 2 * rest.length + 1
decreasing_by all_goals omega

def readChain : (tokens : List Token) → Option (Left tokens)
  | [] => none
  | token :: rest =>
      match token.lexeme with
      | .ifClose => some ⟨rest, Nat.le_succ _⟩
      | .elseIf _ | .otherwise =>
          match readBlock .branch rest with
          | ⟨left, le⟩ => (readChain left).map (·.within (Nat.le_succ_of_le le))
      | _ => none
termination_by tokens => 2 * tokens.length
decreasing_by all_goals simp only [List.length_cons]; omega

end

def blockEnd (kind : Enclosing) (tokens : List Token) : List Token := (readBlock kind tokens).1

def directiveEnd (token : Token) (rest : List Token) : Option (List Token) := (readDirective token rest).map Subtype.val

def chainEnd (tokens : List Token) : Option (List Token) := (readChain tokens).map Subtype.val

theorem blockEnd_nil (kind : Enclosing) : blockEnd kind [] = [] := by
  rw [blockEnd, readBlock]

theorem blockEnd_cons (kind : Enclosing) (token : Token) (rest : List Token) :
    blockEnd kind (token :: rest) =
      if kind.endsAt token.lexeme then token :: rest
      else blockEnd kind ((directiveEnd token rest).getD rest) := by
  rw [blockEnd, readBlock, directiveEnd]
  split
  · rfl
  · cases readDirective token rest <;> rfl

theorem directiveEnd_ifOpen {token : Token} {condition : Text} (opens : token.lexeme = .ifOpen condition)
    (rest : List Token) : directiveEnd token rest = chainEnd (blockEnd .branch rest) := by
  rw [directiveEnd, readDirective, opens, blockEnd, chainEnd]
  simp [Option.map_map, Function.comp_def, Left.within]

theorem chainEnd_cons (token : Token) (rest : List Token) :
    chainEnd (token :: rest) =
      match token.lexeme with
      | .ifClose => some rest
      | .elseIf _ => chainEnd (blockEnd .branch rest)
      | .otherwise => chainEnd (blockEnd .branch rest)
      | _ => none := by
  rw [chainEnd, readChain]
  cases token.lexeme <;> simp [chainEnd, blockEnd, Option.map_map, Function.comp_def, Left.within]

end Descent

namespace Token

theorem ending_lastChain : (tokens : List Token) → ending .lastChain tokens = ending .chain tokens
  | [] => by rw [ending_nil, ending_nil]
  | token :: rest => by
      have same : token.lexeme.closes .lastChain = token.lexeme.closes .chain :=
        closes_past .chain .otherwise token.lexeme
      rw [ending_cons, ending_cons, same]
      split
      · rfl
      · split
        · rfl
        · cases found : opened token rest with
          | some inner =>
              obtain ⟨_, _, body⟩ := opened_eq_some found
              have := ending_length body
              exact ending_lastChain inner
          | none =>
              have more := ending_lastChain rest
              cases token.lexeme <;> simp only [Awaited.past, more]
termination_by tokens => tokens.length
decreasing_by all_goals simp only [List.length_cons]; omega

theorem ending_past (a : Awaited) (l : Lexeme) (tokens : List Token) : ending (a.past l) tokens = ending a tokens := by
  cases a <;> cases l <;> first | rfl | exact ending_lastChain tokens

theorem ending_of_passed {a : Awaited} {token : Token} (inside : token.lexeme ≠ .endOfText)
    (stays : token.lexeme.closes a = false) (rest : List Token) :
    ending a (token :: rest) = ending a ((opened token rest).getD rest) := by
  rw [ending_cons, if_neg inside, if_neg (by simp [stays])]
  cases opened token rest with
  | none => exact ending_past a token.lexeme rest
  | some inner => rfl

end Token

namespace Descent

def afterLoop : List Token → Option (List Token)
  | [] => none
  | closer :: behind => if closer.lexeme = .forClose then some behind else none

theorem directiveEnd_forOpen {token : Token} {index : Option Text} {item path : Text}
    (opens : token.lexeme = .forOpen index item path) (rest : List Token) :
    directiveEnd token rest = afterLoop (blockEnd .loop rest) := by
  rw [directiveEnd, readDirective, opens, blockEnd]
  rcases readBlock .loop rest with ⟨_ | ⟨closer, behind⟩, le⟩
  · rfl
  · simp only [afterLoop]
    split <;> rfl

theorem directiveEnd_of_leaf {token : Token} (leaf : token.lexeme.awaits = none) (rest : List Token) :
    directiveEnd token rest = none := by
  rw [directiveEnd, readDirective]
  cases same : token.lexeme <;> rw [same] at leaf <;> first | rfl | cases leaf

theorem directiveEnd_eq {rest : List Token} (loops : ending .loop rest = afterLoop (blockEnd .loop rest))
    (chains : ending .chain rest = chainEnd (blockEnd .branch rest)) (token : Token) :
    directiveEnd token rest = opened token rest := by
  cases begins : token.lexeme.awaits with
  | none => rw [directiveEnd_of_leaf begins, opened, begins, Option.bind_none]
  | some k =>
      rw [opened_of_awaits begins]
      cases same : token.lexeme <;> rw [same] at begins <;> cases begins
      · rw [directiveEnd_forOpen same, loops]
      · rw [directiveEnd_ifOpen same, chains]

theorem chainEnd_nil : chainEnd [] = none := by
  rw [chainEnd, readChain]
  rfl

theorem stays_of_not_ends_loop {l : Lexeme} (on : ¬ Enclosing.loop.endsAt l = true) :
    l ≠ .endOfText ∧ l.closes .loop = false := by
  cases l <;> simp_all [Enclosing.endsAt, Lexeme.closes]

theorem stays_of_not_ends_branch {l : Lexeme} (on : ¬ Enclosing.branch.endsAt l = true) :
    l ≠ .endOfText ∧ l.closes .chain = false := by
  cases l <;> simp_all [Enclosing.endsAt, Lexeme.closes]

theorem ending_eq : (tokens : List Token) →
    ending .loop tokens = afterLoop (blockEnd .loop tokens) ∧ ending .chain tokens = chainEnd (blockEnd .branch tokens)
  | [] => by simp [blockEnd_nil, afterLoop, chainEnd_nil]
  | token :: rest => by
      have inner : directiveEnd token rest = opened token rest :=
        directiveEnd_eq (ending_eq rest).1 (ending_eq rest).2 token
      have shorter : ((opened token rest).getD rest).length ≤ rest.length := by
        cases found : opened token rest with
        | none => exact Nat.le_refl _
        | some left =>
            obtain ⟨_, _, body⟩ := opened_eq_some found
            exact Nat.le_of_lt (ending_length body)
      -- The search goes on behind a directive that opens here, so what is left is told by its length.
      obtain ⟨loops, chains⟩ := ending_eq ((opened token rest).getD rest)
      rw [blockEnd_cons, blockEnd_cons, inner]
      constructor
      · by_cases on : Enclosing.loop.endsAt token.lexeme = true
        · rw [if_pos on]
          cases same : token.lexeme <;> rw [same] at on <;> cases on
          · rw [ending_of_closes (by rw [same]; rfl), afterLoop, if_pos same]
          · rw [ending_cons, if_pos same, afterLoop, if_neg (by simp [same])]
        · obtain ⟨inside, stays⟩ := stays_of_not_ends_loop on
          rw [if_neg on, ending_of_passed inside stays, loops]
      · by_cases on : Enclosing.branch.endsAt token.lexeme = true
        · have branch (passed : token.lexeme.closes .chain = false) (leaf : token.lexeme.awaits = none)
              (inside : token.lexeme ≠ .endOfText) :
              ending .chain (token :: rest) = chainEnd (blockEnd .branch rest) := by
            rw [ending_of_passed inside passed, opened, leaf, Option.bind_none, Option.getD_none]
            exact (ending_eq rest).2
          rw [if_pos on, chainEnd_cons]
          cases same : token.lexeme <;> rw [same] at on <;> cases on
          · exact branch (by rw [same]; rfl) (by rw [same]; rfl) (by simp [same])
          · exact branch (by rw [same]; rfl) (by rw [same]; rfl) (by simp [same])
          · exact ending_of_closes (by rw [same]; rfl) rest
          · rw [ending_cons, if_pos same]
        · obtain ⟨inside, stays⟩ := stays_of_not_ends_branch on
          rw [if_neg on, ending_of_passed inside stays, chains]
termination_by tokens => tokens.length
decreasing_by all_goals simp only [List.length_cons]; omega

theorem directiveEnd_eq_opened (token : Token) (rest : List Token) : directiveEnd token rest = opened token rest :=
  directiveEnd_eq (ending_eq rest).1 (ending_eq rest).2 token

end Descent

/-! ## Stretches from opening to closing tags -/

namespace Token

variable {tokens rest : List Token} {opening : Token} {i e : Nat}

theorem lt_length_of_drop (at_ : tokens.drop i = opening :: rest) : i < tokens.length := by
  have size := congrArg List.length at_
  simp only [List.length_drop, List.length_cons] at size
  omega

theorem closings_of_opened (at_ : tokens.drop i = opening :: rest) (ends : opened opening rest = some (tokens.drop e))
    (le : e ≤ tokens.length) : (closings tokens)[i]? = some (some e) := by
  rw [closings_getElem? at_, ends, Option.map_some, List.length_drop, Nat.sub_sub_self le]

theorem opened_of_closings (closed : (closings tokens)[i]? = some (some e)) :
    ∃ opening rest, tokens.drop i = opening :: rest ∧ opened opening rest = some (tokens.drop e) ∧
      e ≤ tokens.length := by
  have inside : i < tokens.length := by
    obtain ⟨inside, -⟩ := List.getElem?_eq_some_iff.mp closed
    simpa [closings] using inside
  have at_ : tokens.drop i = tokens[i] :: tokens.drop (i + 1) := List.drop_eq_getElem_cons inside
  rw [closings_getElem? at_, Option.some.injEq, Option.map_eq_some_iff] at closed
  obtain ⟨us, ends, rfl⟩ := closed
  have part : us <:+ tokens := (opened_suffix ends).trans (at_ ▸ List.drop_suffix i tokens)
  refine ⟨_, _, at_, ?_, Nat.sub_le _ _⟩
  rw [ends, ← List.suffix_iff_eq_drop.mp part]

theorem closer_of_closings (closed : (closings tokens)[i]? = some (some e)) :
    i + 1 < e ∧ e ≤ tokens.length ∧ ∃ opening closer, tokens[i]? = some opening ∧ opening.lexeme.awaits.isSome ∧
      tokens[e - 1]? = some closer ∧ closer.lexeme = Builder.closingOf opening.lexeme := by
  obtain ⟨opening, rest, at_, ends, le⟩ := opened_of_closings closed
  obtain ⟨k, begins, found⟩ := opened_eq_some ends
  obtain ⟨before, closer, split, closes⟩ := ending_split found
  have size := congrArg List.length at_
  have longer := congrArg List.length split
  simp only [List.length_drop, List.length_cons, List.length_append] at size longer
  have place : tokens.drop (e - 1) = closer :: tokens.drop e := by
    have part : closer :: tokens.drop e <:+ tokens :=
      (split ▸ List.suffix_append before _ : _ <:+ rest).trans
        ((List.suffix_cons opening rest).trans (at_ ▸ List.drop_suffix i tokens))
    have := List.suffix_iff_eq_drop.mp part
    rw [List.length_cons, List.length_drop] at this
    rw [this]
    congr 1
    omega
  refine ⟨by omega, le, opening, closer, ?_, by rw [begins]; rfl, ?_, Builder.eq_closingOf begins closes⟩
  · rw [← List.head?_drop, at_]
    rfl
  · rw [← List.head?_drop, place]
    rfl

theorem Guards.of_opened {a : Awaited} {us inner : List Token} {token : Token} {body : List Token}
    (guards : Guards a tokens us) (part : token :: body <:+ tokens) (longer : us.length ≤ body.length)
    (found : opened token body = some inner) : us.length < inner.length := by
  rcases Nat.lt_or_eq_of_le longer with longer | same
  · exact guards.nested token body inner part longer found
  · -- The tag would be the closing one itself.
    obtain ⟨before, closer, rfl, closes⟩ := guards.split
    have shared : token :: body = closer :: us :=
      (List.suffix_of_suffix_length_le part (List.suffix_append before _) (by simp [same])).eq_of_length
        (by simp [same])
    cases shared
    obtain ⟨k, begins, -⟩ := opened_eq_some found
    rw [not_closes_of_awaits begins] at closes
    cases closes

theorem closings_nested {j f : Nat} (first : (closings tokens)[i]? = some (some e))
    (second : (closings tokens)[j]? = some (some f)) (later : i < j) : f < e ∨ e ≤ j := by
  obtain ⟨opening, rest, at_, ends, le⟩ := opened_of_closings first
  obtain ⟨opening', rest', at_', ends', le'⟩ := opened_of_closings second
  obtain ⟨k, begins, found⟩ := opened_eq_some ends
  have inside : opening' :: rest' <:+ rest := by
    refine List.suffix_of_suffix_length_le (at_' ▸ List.drop_suffix j tokens)
      ((List.suffix_cons opening rest).trans (at_ ▸ List.drop_suffix i tokens)) ?_
    have size := congrArg List.length at_
    have size' := congrArg List.length at_'
    simp only [List.length_drop, List.length_cons] at size size' ⊢
    omega
  rcases Nat.lt_or_ge j e with before | behind
  · left
    have longer : (tokens.drop e).length ≤ rest'.length := by
      have size' := congrArg List.length at_'
      simp only [List.length_drop, List.length_cons] at size' ⊢
      omega
    have nested : (tokens.drop e).length < (tokens.drop f).length :=
      (ending_guards found).of_opened inside longer ends'
    simp only [List.length_drop] at nested
    omega
  · exact .inr behind

theorem closings_injective {j : Nat} (first : (closings tokens)[i]? = some (some e))
    (second : (closings tokens)[j]? = some (some e)) : i = j := by
  obtain ⟨before, -, -⟩ := closer_of_closings first
  obtain ⟨before', -, -⟩ := closer_of_closings second
  rcases Nat.lt_trichotomy i j with less | same | more
  · rcases closings_nested first second less with _ | _ <;> omega
  · exact same
  · rcases closings_nested second first more with _ | _ <;> omega

def LiesIn (tokens : List Token) (j i : Nat) : Prop :=
  ∃ e f, (closings tokens)[i]? = some (some e) ∧ (closings tokens)[j]? = some (some f) ∧ i < j ∧ f < e

/-- No more than `depth` stretches lie inside each other. -/
def NestsWithin (depth : Nat) (tokens : List Token) : Prop :=
  ∀ is : List Nat, is.Pairwise (LiesIn tokens) → is.length ≤ depth

theorem LiesIn.trans {j k : Nat} (first : LiesIn tokens k j) (second : LiesIn tokens j i) : LiesIn tokens k i := by
  obtain ⟨f, g, inner, last, later, less⟩ := first
  obtain ⟨e, f', outer, inner', later', less'⟩ := second
  rw [inner, Option.some.injEq, Option.some.injEq] at inner'
  subst inner'
  exact ⟨e, g, outer, last, Nat.lt_trans later' later, Nat.lt_trans less less'⟩

theorem closings_of_suffix {token : Token} {us : List Token} (part : token :: rest <:+ tokens)
    (found : opened token rest = some us) :
    (closings tokens)[tokens.length - (rest.length + 1)]? = some (some (tokens.length - us.length)) := by
  have at_ : tokens.drop (tokens.length - (rest.length + 1)) = token :: rest := (List.suffix_iff_eq_drop.mp part).symm
  rw [closings_getElem? at_, found, Option.map_some]

theorem liesIn_of_suffix {outer inner : Token} {body body' us us' : List Token} (around : outer :: body <:+ tokens)
    (found : opened outer body = some us) (part : inner :: body' <:+ tokens) (found' : opened inner body' = some us')
    (inside : inner :: body' <:+ body) (before : us.length < us'.length) :
    LiesIn tokens (tokens.length - (body'.length + 1)) (tokens.length - (body.length + 1)) := by
  have longer := inside.length_le
  have most := around.length_le
  have most' := (opened_suffix found').length_le
  simp only [List.length_cons] at longer most most'
  exact ⟨_, _, closings_of_suffix around found, closings_of_suffix part found', by omega, by omega⟩

end Token

end TextTemplate
