import TextTemplate.Block
import TextTemplate.Token
import TextTemplate.Text

namespace TextTemplate

structure Place where
  position : Position
  raw : Text

def Place.token (place : Place) (l : Lexeme) : Token := ⟨l, place.position, place.raw⟩

mutual

inductive Phrase where
  | text (content : Text) (place : Place)
  | interpolation (source : Text) (place : Place)
  | binding (name expression : Text) (place : Place)
  | loop (index : Option Text) (item path : Text) (place : Place) (body : List Phrase) (close : Place)
  | conditional (condition : Text) (place : Place) (body : List Phrase) (rest : Continuation)

inductive Continuation where
  | close (place : Place)
  | otherwise (place : Place) (body : List Phrase) (close : Place)
  | elseIf (condition : Text) (place : Place) (body : List Phrase) (rest : Continuation)

end

namespace Block

def prependText (t : Text) (block : Block) : Block :=
  if t = [] then block
  else
    match block with
    | .text u :: rest => .text (t ++ u) :: rest
    | block => .text t :: block

def merged : List Node → Block
  | [] => []
  | .text t :: rest => prependText t (merged rest)
  | node :: rest => node :: merged rest

def trimStart : Block → Block
  | .text t :: rest => .text t.dropFirstBreak :: rest
  | block => block

def trimEnd (block : Block) : Block :=
  match block.reverse with
  | .text t :: rest => (.text t.dropLastBreak :: rest).reverse
  | _ => block

def isEmptyText : Node → Bool
  | .text t => t = []
  | _ => false

/-- A block without one line break at its start and one at its end, and without the texts this empties. -/
def trimmed (block : Block) : Block := (trimEnd (trimStart block)).filter fun node => !isEmptyText node

end Block

namespace Phrase

mutual

def yield : Phrase → List Token
  | text content place => [place.token (.text content)]
  | interpolation source place => [place.token (.interpolation source)]
  | binding name expression place => [place.token (.binding name expression)]
  | loop index item path place body close =>
      place.token (.forOpen index item path) :: (yieldAll body ++ [close.token .forClose])
  | conditional condition place body rest =>
      place.token (.ifOpen condition) :: (yieldAll body ++ yieldRest rest)

def yieldAll : List Phrase → List Token
  | [] => []
  | phrase :: phrases => phrase.yield ++ yieldAll phrases

def yieldRest : Continuation → List Token
  | .close place => [place.token .ifClose]
  | .otherwise place body close => place.token .otherwise :: (yieldAll body ++ [close.token .ifClose])
  | .elseIf condition place body rest => place.token (.elseIf condition) :: (yieldAll body ++ yieldRest rest)

end

mutual

def nesting : Phrase → Nat
  | text _ _ => 0
  | interpolation _ _ => 0
  | binding _ _ _ => 0
  | loop _ _ _ _ body _ => nestingAll body + 1
  | conditional _ _ body rest => max (nestingAll body) (nestingRest rest) + 1

def nestingAll : List Phrase → Nat
  | [] => 0
  | phrase :: phrases => max phrase.nesting (nestingAll phrases)

def nestingRest : Continuation → Nat
  | .close _ => 0
  | .otherwise _ body _ => nestingAll body
  | .elseIf _ _ body rest => max (nestingAll body) (nestingRest rest)

end

mutual

def node : Phrase → Node
  | text content _ => .text content
  | interpolation source place => .interpolation source place.position.line
  | binding name expression place => .binding name expression place.position.line
  | loop index item path place body _ =>
      .loop index item path (Block.trimmed (Block.merged (nodes body))) place.position.line
  | conditional condition place body rest =>
      .conditional (.mk .first (some condition) (Block.merged (nodes body)) place.position.line :: branches rest)
        place.position.line

def nodes : List Phrase → List Node
  | [] => []
  | phrase :: phrases => phrase.node :: nodes phrases

def branches : Continuation → List Branch
  | .close _ => []
  | .otherwise place body _ => [.mk .otherwise none (Block.merged (nodes body)) place.position.line]
  | .elseIf condition place body rest =>
      .mk .elseIf (some condition) (Block.merged (nodes body)) place.position.line :: branches rest

end

def block (phrases : List Phrase) : Block := Block.merged (nodes phrases)

@[simp] theorem yieldAll_nil : yieldAll [] = [] := rfl

@[simp] theorem yieldAll_cons (phrase : Phrase) (phrases : List Phrase) :
    yieldAll (phrase :: phrases) = phrase.yield ++ yieldAll phrases := rfl

end Phrase

def Lexeme.divides : Lexeme → Bool
  | .forClose => true
  | .ifClose => true
  | .elseIf _ => true
  | .otherwise => true
  | _ => false

def Token.Stops (tokens : List Token) : Prop := ∀ token rest, tokens = token :: rest → token.lexeme.divides = true

theorem Token.stops_nil : Stops [] := fun _ _ h => nomatch h

theorem Token.stops_cons {token : Token} {rest : List Token} (divides : token.lexeme.divides = true) :
    Stops (token :: rest) := by
  rintro _ _ ⟨⟩
  exact divides

theorem Place.cons_token_injective {p q : Place} {l m : Lexeme} {rest rest' : List Token}
    (h : p.token l :: rest = q.token m :: rest') : l = m ∧ p = q ∧ rest = rest' := by
  obtain ⟨position, raw⟩ := p
  obtain ⟨position', raw'⟩ := q
  cases h
  exact ⟨rfl, rfl, rfl⟩

namespace Phrase
open Token

theorem yield_ne_divides (phrase : Phrase) (rest : List Token) : ¬ Stops (phrase.yield ++ rest) := by
  intro stops
  cases phrase <;> cases stops _ _ rfl

theorem stops_yieldRest (c : Continuation) (rest : List Token) : Stops (yieldRest c ++ rest) := by
  cases c <;> exact stops_cons rfl

mutual

theorem yield_injective :
    (p q : Phrase) → (rest rest' : List Token) → p.yield ++ rest = q.yield ++ rest' → p = q ∧ rest = rest'
  | .text _ _, q, rest, rest', h => by
      cases q <;> obtain ⟨same, rfl, tail⟩ := Place.cons_token_injective h <;> cases same
      exact ⟨rfl, tail⟩
  | .interpolation _ _, q, rest, rest', h => by
      cases q <;> obtain ⟨same, rfl, tail⟩ := Place.cons_token_injective h <;> cases same
      exact ⟨rfl, tail⟩
  | .binding _ _ _, q, rest, rest', h => by
      cases q <;> obtain ⟨same, rfl, tail⟩ := Place.cons_token_injective h <;> cases same
      exact ⟨rfl, tail⟩
  | .loop _ _ _ _ body close, q, rest, rest', h => by
      cases q <;> obtain ⟨same, rfl, tail⟩ := Place.cons_token_injective h <;> cases same
      simp only [List.append_eq, List.append_assoc] at tail
      obtain ⟨rfl, behind⟩ := yieldAll_injective_of_stops body _ _ _ (stops_cons rfl) (stops_cons rfl) tail
      obtain ⟨-, rfl, rfl⟩ := Place.cons_token_injective behind
      exact ⟨rfl, rfl⟩
  | .conditional _ _ body more, q, rest, rest', h => by
      cases q <;> obtain ⟨same, rfl, tail⟩ := Place.cons_token_injective h <;> cases same
      simp only [List.append_eq, List.append_assoc] at tail
      obtain ⟨rfl, behind⟩ := yieldAll_injective_of_stops body _ _ _ (stops_yieldRest _ _) (stops_yieldRest _ _) tail
      obtain ⟨rfl, rfl⟩ := yieldRest_injective more _ _ _ behind
      exact ⟨rfl, rfl⟩

theorem yieldAll_injective_of_stops :
    (ps qs : List Phrase) → (rest rest' : List Token) → Stops rest → Stops rest' →
      yieldAll ps ++ rest = yieldAll qs ++ rest' → ps = qs ∧ rest = rest'
  | [], [], rest, rest', _, _, h => ⟨rfl, by simpa using h⟩
  | [], q :: qs, rest, rest', stops, _, h => by
      rw [yieldAll_nil, List.nil_append, yieldAll_cons, List.append_assoc] at h
      exact absurd (h ▸ stops) (q.yield_ne_divides _)
  | p :: ps, [], rest, rest', _, stops, h => by
      rw [yieldAll_nil, List.nil_append, yieldAll_cons, List.append_assoc] at h
      exact absurd (h ▸ stops) (p.yield_ne_divides _)
  | p :: ps, q :: qs, rest, rest', stops, stops', h => by
      rw [yieldAll_cons, yieldAll_cons, List.append_assoc, List.append_assoc] at h
      obtain ⟨rfl, tail⟩ := yield_injective p q _ _ h
      obtain ⟨rfl, rfl⟩ := yieldAll_injective_of_stops ps qs _ _ stops stops' tail
      exact ⟨rfl, rfl⟩

theorem yieldRest_injective :
    (c d : Continuation) → (rest rest' : List Token) → yieldRest c ++ rest = yieldRest d ++ rest' →
      c = d ∧ rest = rest'
  | .close _, d, rest, rest', h => by
      cases d <;> obtain ⟨same, rfl, tail⟩ := Place.cons_token_injective h <;> cases same
      exact ⟨rfl, tail⟩
  | .otherwise _ body close, d, rest, rest', h => by
      cases d <;> obtain ⟨same, rfl, tail⟩ := Place.cons_token_injective h <;> cases same
      simp only [List.append_eq, List.append_assoc] at tail
      obtain ⟨rfl, behind⟩ := yieldAll_injective_of_stops body _ _ _ (stops_cons rfl) (stops_cons rfl) tail
      obtain ⟨-, rfl, rfl⟩ := Place.cons_token_injective behind
      exact ⟨rfl, rfl⟩
  | .elseIf _ _ body more, d, rest, rest', h => by
      cases d <;> obtain ⟨same, rfl, tail⟩ := Place.cons_token_injective h <;> cases same
      simp only [List.append_eq, List.append_assoc] at tail
      obtain ⟨rfl, behind⟩ := yieldAll_injective_of_stops body _ _ _ (stops_yieldRest _ _) (stops_yieldRest _ _) tail
      obtain ⟨rfl, rfl⟩ := yieldRest_injective more _ _ _ behind
      exact ⟨rfl, rfl⟩

end

theorem yieldAll_injective {ps qs : List Phrase} (h : yieldAll ps = yieldAll qs) : ps = qs :=
  (yieldAll_injective_of_stops ps qs [] [] stops_nil stops_nil (by rw [h])).1

end Phrase

end TextTemplate
