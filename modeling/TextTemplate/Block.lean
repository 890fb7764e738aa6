import TextTemplate.Text

namespace TextTemplate

inductive BranchKind where
  | first | elseIf | otherwise
  deriving DecidableEq, Repr

mutual

inductive Node where
  | text (content : Text)
  | interpolation (source : Text) (line : Nat)
  | binding (name expression : Text) (line : Nat)
  | loop (index : Option Text) (item path : Text) (body : List Node) (line : Nat)
  | conditional (branches : List Branch) (line : Nat)

inductive Branch where
  | mk (kind : BranchKind) (condition : Option Text) (body : List Node) (line : Nat)

end

abbrev Block := List Node

structure NodeCounts where
  interpolations : Nat
  loops : Nat
  conditionals : Nat
  bindings : Nat
  deriving DecidableEq, Repr

namespace NodeCounts

def zero : NodeCounts := ⟨0, 0, 0, 0⟩

def add (a b : NodeCounts) : NodeCounts :=
  ⟨a.interpolations + b.interpolations, a.loops + b.loops, a.conditionals + b.conditionals, a.bindings + b.bindings⟩

end NodeCounts

namespace Node

def isDirective : Node → Bool
  | text _ => false
  | _ => true

mutual

def counts : Node → NodeCounts
  | text _ => .zero
  | interpolation _ _ => ⟨1, 0, 0, 0⟩
  | binding _ _ _ => ⟨0, 0, 0, 1⟩
  | loop _ _ _ body _ => (NodeCounts.mk 0 1 0 0).add (blockCounts body)
  | conditional branches _ => (NodeCounts.mk 0 0 1 0).add (branchCounts branches)

def blockCounts : List Node → NodeCounts
  | [] => .zero
  | node :: rest => node.counts.add (blockCounts rest)

def branchCounts : List Branch → NodeCounts
  | [] => .zero
  | .mk _ _ body _ :: rest => (blockCounts body).add (branchCounts rest)

end

end Node

def Block.counts (block : Block) : NodeCounts := Node.blockCounts block

end TextTemplate
