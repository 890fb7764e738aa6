import TextTemplate.Block.Closing

namespace TextTemplate

inductive Awaited where
  | loop | chain | lastChain
  deriving DecidableEq, Repr

namespace Lexeme

def closes : Awaited → Lexeme → Bool
  | .loop, .forClose => true
  | .chain, .ifClose => true
  | .lastChain, .ifClose => true
  | _, _ => false

def awaits : Lexeme → Option Awaited
  | .forOpen _ _ _ => some .loop
  | .ifOpen _ => some .chain
  | _ => none

def isLeaf : Lexeme → Bool
  | .text _ => true
  | .interpolation _ => true
  | .binding _ _ => true
  | _ => false

end Lexeme

def Awaited.past : Awaited → Lexeme → Awaited
  | .chain, .otherwise => .lastChain
  | a, _ => a

theorem closes_past (a : Awaited) (l m : Lexeme) : m.closes (a.past l) = m.closes a := by
  cases a <;> cases l <;> first | rfl | (cases m <;> rfl)

theorem not_closes_of_awaits {l : Lexeme} {k : Awaited} (h : l.awaits = some k) (a : Awaited) :
    l.closes a = false := by
  cases l <;> cases a <;> first | rfl | cases h

namespace Token

def behind (a : Awaited) : (tokens : List Token) → Option { rest : List Token // rest.length < tokens.length }
  | [] => none
  | token :: rest =>
      if token.lexeme = .endOfText then none
      else if token.lexeme.closes a then some ⟨rest, Nat.lt_succ_self _⟩
      else
        match token.lexeme.awaits.bind fun k => behind k rest with
        | some inner =>
            (behind a inner.1).map fun outer => ⟨outer.1, Nat.lt_succ_of_lt (Nat.lt_trans outer.2 inner.2)⟩
        | none => (behind (a.past token.lexeme) rest).map fun outer => ⟨outer.1, Nat.lt_succ_of_lt outer.2⟩
termination_by tokens => tokens.length
decreasing_by
  · exact Nat.lt_succ_self _
  · exact Nat.lt_succ_of_lt inner.2
  · exact Nat.lt_succ_self _

def ending (a : Awaited) (tokens : List Token) : Option (List Token) := (behind a tokens).map Subtype.val

def opened (token : Token) (rest : List Token) : Option (List Token) := token.lexeme.awaits.bind fun k => ending k rest

@[simp] theorem ending_nil (a : Awaited) : ending a [] = none := by
  rw [ending, behind]
  rfl

theorem ending_cons (a : Awaited) (token : Token) (rest : List Token) :
    ending a (token :: rest) =
      if token.lexeme = .endOfText then none
      else if token.lexeme.closes a then some rest
      else
        match opened token rest with
        | some inner => ending a inner
        | none => ending (a.past token.lexeme) rest := by
  have inside : opened token rest = (token.lexeme.awaits.bind fun k => behind k rest).map Subtype.val := by
    cases h : token.lexeme.awaits <;> simp [opened, ending, h]
  rw [inside, ending, behind]
  split
  · rfl
  · split
    · rfl
    · cases token.lexeme.awaits.bind fun k => behind k rest <;>
        simp [ending, Option.map_map, Function.comp_def]

theorem ending_length {a : Awaited} {tokens us : List Token} (h : ending a tokens = some us) :
    us.length < tokens.length := by
  obtain ⟨⟨rest, shorter⟩, -, rfl⟩ := Option.map_eq_some_iff.mp h
  exact shorter

theorem opened_eq_some {token : Token} {rest us : List Token} (h : opened token rest = some us) :
    ∃ k, token.lexeme.awaits = some k ∧ ending k rest = some us :=
  Option.bind_eq_some_iff.mp h

theorem opened_of_awaits {token : Token} {k : Awaited} (h : token.lexeme.awaits = some k) (rest : List Token) :
    opened token rest = ending k rest := by
  rw [opened, h, Option.bind_some]

theorem ending_of_closes {a : Awaited} {token : Token} (closes : token.lexeme.closes a = true) (rest : List Token) :
    ending a (token :: rest) = some rest := by
  have inside : token.lexeme ≠ .endOfText := by
    intro ends
    rw [ends] at closes
    cases a <;> cases closes
  rw [ending_cons, if_neg inside, if_pos closes]

theorem ending_of_stays {a : Awaited} {token : Token} (inside : token.lexeme ≠ .endOfText)
    (stays : token.lexeme.closes a = false) (leaf : token.lexeme.awaits = none) (rest : List Token) :
    ending a (token :: rest) = ending (a.past token.lexeme) rest := by
  rw [ending_cons, if_neg inside, if_neg (by simp [stays]), opened, leaf, Option.bind_none]

theorem ending_of_leaf {token : Token} (leaf : token.lexeme.isLeaf = true) (a : Awaited) (rest : List Token) :
    ending a (token :: rest) = ending a rest := by
  obtain ⟨l, position, raw⟩ := token
  cases l <;> cases leaf <;> cases a <;> rw [ending_of_stays (by simp) rfl rfl] <;> rfl

theorem ending_of_opened {token : Token} {rest us : List Token} (found : opened token rest = some us) (a : Awaited) :
    ending a (token :: rest) = ending a us := by
  obtain ⟨k, waits, -⟩ := opened_eq_some found
  have inside : token.lexeme ≠ .endOfText := by
    intro ends
    rw [ends] at waits
    cases waits
  rw [ending_cons, if_neg inside, if_neg (by simp [not_closes_of_awaits waits]), found]

theorem ending_induction
    {motive : (a : Awaited) → (tokens us : List Token) → ending a tokens = some us → Prop}
    (close : ∀ a token rest h, token.lexeme.closes a = true → motive a (token :: rest) rest h)
    (pass : ∀ a token rest us h found, token.lexeme.closes a = false → opened token rest = none →
      motive (a.past token.lexeme) rest us found → motive a (token :: rest) us h)
    (skip : ∀ a token rest k inner us h body found, token.lexeme.awaits = some k →
      motive k rest inner body → motive a inner us found → motive a (token :: rest) us h)
    (a : Awaited) : (tokens us : List Token) → (h : ending a tokens = some us) → motive a tokens us h
  | [], us, h => by simp at h
  | token :: rest, us, h => by
      have found := h
      rw [ending_cons] at found
      split at found
      · cases found
      · split at found
        · rename_i closed
          cases found
          exact close a token _ h closed
        · rename_i stays
          have stays : token.lexeme.closes a = false := by simpa using stays
          cases inside : opened token rest with
          | none =>
              rw [inside] at found
              exact pass a token rest us h found stays inside (ending_induction close pass skip _ _ _ found)
          | some inner =>
              rw [inside] at found
              obtain ⟨k, waits, body⟩ := opened_eq_some inside
              have shorter := ending_length body
              exact skip a token rest k inner us h body found waits
                (ending_induction close pass skip _ _ _ body) (ending_induction close pass skip _ _ _ found)
termination_by tokens => tokens.length
decreasing_by all_goals simp only [List.length_cons]; omega

theorem ending_split {a : Awaited} {tokens us : List Token} (h : ending a tokens = some us) :
    ∃ before token, tokens = before ++ token :: us ∧ token.lexeme.closes a = true := by
  induction a, tokens, us, h using ending_induction with
  | close a token rest _ closed => exact ⟨[], token, rfl, closed⟩
  | pass a token rest us _ _ _ _ ih =>
      obtain ⟨before, last, rfl, closed⟩ := ih
      exact ⟨token :: before, last, rfl, by rwa [closes_past] at closed⟩
  | skip a token rest k inner us _ _ _ _ ihInner ih =>
      obtain ⟨between, closer, rfl, _⟩ := ihInner
      obtain ⟨before, last, rfl, closed⟩ := ih
      exact ⟨token :: between ++ closer :: before, last, by simp, closed⟩

theorem opened_suffix {token : Token} {rest us : List Token} (h : opened token rest = some us) :
    us <:+ token :: rest := by
  obtain ⟨k, -, found⟩ := opened_eq_some h
  obtain ⟨before, closer, rfl, -⟩ := ending_split found
  exact ⟨token :: before ++ [closer], by simp⟩

/-- `us` lies behind a closing tag that is met before that of any directive opened and closed on the way. -/
structure Guards (a : Awaited) (tokens us : List Token) : Prop where
  split : ∃ before token, tokens = before ++ token :: us ∧ token.lexeme.closes a = true
  nested : ∀ token rest inner, token :: rest <:+ tokens → us.length < rest.length →
    opened token rest = some inner → us.length < inner.length

theorem ending_guards {a : Awaited} {tokens us : List Token} (h : ending a tokens = some us) :
    Guards a tokens us := by
  refine ⟨ending_split h, ?_⟩
  induction a, tokens, us, h using ending_induction with
  | close a head tail _ _ =>
      intro token rest inner part longer _
      have := part.length_le
      simp only [List.length_cons] at this
      omega
  | pass a head tail us _ _ _ unclosed ih =>
      intro token rest inner part longer found
      rcases List.suffix_cons_iff.mp part with same | part
      · cases same
        rw [unclosed] at found
        cases found
      · exact ih token rest inner part longer found
  | skip a head tail k between us _ body outer waits ihBody ih =>
      intro token rest inner part longer found
      rcases List.suffix_cons_iff.mp part with same | part
      · cases same
        rw [opened_of_awaits waits, body] at found
        cases found
        exact ending_length outer
      · -- The tag opens inside the directive passed over, is its closing tag, or opens behind it.
        obtain ⟨before, closer, rfl, closed⟩ := ending_split body
        rcases Nat.lt_trichotomy between.length rest.length with inside | same | behind
        · exact Nat.lt_trans (ending_length outer) (ihBody token rest inner part inside found)
        · have shared : token :: rest = closer :: between :=
            (List.suffix_of_suffix_length_le part (List.suffix_append before _) (by simp [same])).eq_of_length
              (by simp [same])
          cases shared
          obtain ⟨k', waits', _⟩ := opened_eq_some found
          rw [not_closes_of_awaits waits'] at closed
          cases closed
        · have part : token :: rest <:+ between :=
            List.suffix_of_suffix_length_le part (List.suffix_append_of_suffix (List.suffix_cons _ _))
              (by simpa using Nat.succ_le_of_lt behind)
          exact ih token rest inner part longer found

namespace Guards

variable {a : Awaited} {token : Token} {tokens rest us : List Token}

theorem length_lt (h : Guards a tokens us) : us.length < tokens.length := by
  obtain ⟨before, closer, rfl, _⟩ := h.split
  simp only [List.length_append, List.length_cons]
  omega

theorem of_suffix (h : Guards a tokens us) (part : rest <:+ tokens) (longer : us.length < rest.length) :
    Guards a rest us := by
  refine ⟨?_, fun token later inner later_part => h.nested token later inner (later_part.trans part)⟩
  obtain ⟨before, closer, rfl, closed⟩ := h.split
  obtain ⟨between, rfl⟩ : closer :: us <:+ rest :=
    List.suffix_of_suffix_length_le (List.suffix_append before _) part longer
  exact ⟨between, closer, rfl, closed⟩

theorem tail (h : Guards a (token :: rest) us) (stays : token.lexeme.closes a = false) : Guards a rest us := by
  refine h.of_suffix (List.suffix_cons _ _) ?_
  obtain ⟨before, closer, same, closed⟩ := h.split
  cases before with
  | nil =>
      cases same
      rw [stays] at closed
      cases closed
  | cons first before =>
      rw [List.cons_append] at same
      obtain ⟨rfl, rfl⟩ := List.cons.inj same
      simp only [List.length_append, List.length_cons]
      omega

end Guards

theorem ending_append {stop : Token} (ends : stop.lexeme = .endOfText) (later : List Token) (a : Awaited) :
    (tokens : List Token) → ending a (tokens ++ stop :: later) = (ending a tokens).map (· ++ stop :: later)
  | [] => by rw [List.nil_append, ending_cons, if_pos ends, ending_nil, Option.map_none]
  | token :: rest => by
      have inside : opened token (rest ++ stop :: later) = (opened token rest).map (· ++ stop :: later) := by
        cases waits : token.lexeme.awaits with
        | none => simp [opened, waits]
        | some k => rw [opened_of_awaits waits, opened_of_awaits waits, ending_append ends later k rest]
      rw [List.cons_append, ending_cons, ending_cons, inside]
      split
      · rfl
      · split
        · rfl
        · cases found : opened token rest with
          | none => exact ending_append ends later _ rest
          | some inner =>
              -- The search goes on behind the directive, so the recursion is on the length and not on the list.
              obtain ⟨_, _, body⟩ := opened_eq_some found
              have := ending_length body
              exact ending_append ends later a inner
termination_by tokens => tokens.length
decreasing_by all_goals simp only [List.length_cons]; omega

theorem opened_append {stop : Token} (ends : stop.lexeme = .endOfText) (later : List Token) (token : Token)
    (rest : List Token) : opened token (rest ++ stop :: later) = (opened token rest).map (· ++ stop :: later) := by
  cases waits : token.lexeme.awaits with
  | none => simp [opened, waits]
  | some k => rw [opened_of_awaits waits, opened_of_awaits waits, ending_append ends]

end Token

namespace Outlook
open Token

def answer (o : Outlook) : Awaited → Option (List Outlook)
  | .loop => o.loop
  | .chain => o.chain
  | .lastChain => o.lastChain

def seen (a : Awaited) : List Outlook → Option (List Outlook)
  | [] => none
  | o :: _ => o.answer a

theorem loopFrom_eq_seen (later : List Outlook) : loopFrom later = seen .loop later := by cases later <;> rfl

theorem chainFrom_eq_seen (later : List Outlook) : chainFrom later = seen .chain later := by cases later <;> rfl

theorem lastChainFrom_eq_seen (later : List Outlook) : lastChainFrom later = seen .lastChain later := by
  cases later <;> rfl

theorem ownOf_eq_seen (later : List Outlook) (l : Lexeme) : ownOf later l = l.awaits.bind fun k => seen k later := by
  cases l <;> simp [ownOf, Lexeme.awaits, loopFrom_eq_seen, chainFrom_eq_seen]

theorem ofLexeme_own (later : List Outlook) (l : Lexeme) : (ofLexeme later l).own = ownOf later l := by
  cases l <;> rfl

theorem ofLexeme_answer (a : Awaited) (later : List Outlook) (l : Lexeme) :
    (ofLexeme later l).answer a =
      if l = .endOfText then none
      else if l.closes a then some later
      else
        match ownOf later l with
        | some inner => seen a inner
        | none => seen (a.past l) later := by
  cases own : ownOf later l <;> cases l <;> cases a <;>
    simp_all [ofLexeme, ownOf, answer, Lexeme.closes, Awaited.past, loopFrom_eq_seen, chainFrom_eq_seen,
      lastChainFrom_eq_seen]

theorem seen_ofTokens (a : Awaited) :
    (tokens : List Token) → seen a (ofTokens tokens) = (ending a tokens).map ofTokens
  | [] => by simp [ofTokens, seen]
  | token :: rest => by
      have inside : ownOf (ofTokens rest) token.lexeme = (opened token rest).map ofTokens := by
        rw [ownOf_eq_seen]
        cases waits : token.lexeme.awaits with
        | none => simp [opened, waits]
        | some k => rw [opened_of_awaits waits, Option.bind_some, seen_ofTokens k rest]
      rw [ofTokens, seen, ofLexeme_answer, inside, ending_cons]
      split
      · rfl
      · split
        · rfl
        · cases found : opened token rest with
          | none => exact seen_ofTokens _ rest
          | some inner =>
              obtain ⟨_, _, body⟩ := opened_eq_some found
              have := ending_length body
              exact seen_ofTokens a inner
termination_by tokens => tokens.length
decreasing_by all_goals simp only [List.length_cons]; omega

theorem own_ofTokens (token : Token) (rest : List Token) :
    (ofLexeme (ofTokens rest) token.lexeme).own = (opened token rest).map ofTokens := by
  rw [ofLexeme_own, ownOf_eq_seen, opened]
  cases token.lexeme.awaits with
  | none => rfl
  | some k => exact seen_ofTokens k rest

@[simp] theorem ofTokens_length (tokens : List Token) : (ofTokens tokens).length = tokens.length := by
  induction tokens with
  | nil => rfl
  | cons token rest ih => simp [ofTokens, ih]

theorem ofTokens_drop (tokens : List Token) (i : Nat) : (ofTokens tokens).drop i = ofTokens (tokens.drop i) := by
  induction tokens generalizing i with
  | nil => simp [ofTokens]
  | cons token rest ih =>
      cases i with
      | zero => rfl
      | succ i => exact ih i

end Outlook

open Outlook Token

theorem closings_getElem? {tokens rest : List Token} {token : Token} {i : Nat} (at_ : tokens.drop i = token :: rest) :
    (closings tokens)[i]? = some ((opened token rest).map fun us => tokens.length - us.length) := by
  have place : (ofTokens tokens)[i]? = some (ofLexeme (ofTokens rest) token.lexeme) := by
    rw [← List.head?_drop, ofTokens_drop, at_]
    rfl
  rw [closings, List.getElem?_map, place, Option.map_some, own_ofTokens, Option.map_map]
  simp [Function.comp_def]

end TextTemplate
