import TextTemplate.Error
import TextTemplate.Block
import TextTemplate.Expr
import TextTemplate.Context

/-!
# Rendering blocks

Every block goes the same way: first its own bindings in order, then its other nodes from the first to the last.
A loop renders its body once for each element in a context of its own, a conditional renders the first branch
that is selected in a frame of its own. Where a directive fails, `recover` alone decides: in strict mode the
error goes on with the line of the directive, otherwise the directive renders as nothing and is noted.
-/

namespace TextTemplate

structure Stats where
  templateSize : Nat
  outputSize : Nat
  interpolations : Nat
  loops : Nat
  iterations : Nat
  conditionals : Nat
  bindings : Nat
  suppressedErrors : Nat
  maxDepth : Nat
  deriving DecidableEq, Repr

def Stats.zero : Stats := ⟨0, 0, 0, 0, 0, 0, 0, 0, 0⟩

inductive DirectiveKind where
  | binding | loop | conditional | interpolation
  deriving DecidableEq, Repr

def DirectiveKind.shown : DirectiveKind → String
  | binding => "<let>"
  | loop => "<for>"
  | conditional => "<if>"
  | interpolation => "$\x7b...\x7d"

structure Suppression where
  line : Nat
  kind : DirectiveKind
  error : TemplateError
  deriving DecidableEq, Repr

structure Progress where
  context : Context
  stats : Stats
  suppressed : List Suppression

/-- A computation on the progress of a render, which is kept on an error. -/
def Render (α : Type) : Type := Progress → Except TemplateError α × Progress

namespace Render

instance : Monad Render where
  pure a := fun s => (.ok a, s)
  bind m f := fun s =>
    match m s with
    | (.ok a, s) => f a s
    | (.error e, s) => (.error e, s)

def fail (error : TemplateError) : Render α := fun s => (.error error, s)

def ofExpr (result : Except ExprFault α) : Render α := fun s => (result.mapError .expression, s)

def context : Render Context := fun s => (.ok s.context, s)

def count (change : Stats → Stats) : Render Unit := fun s => (.ok (), { s with stats := change s.stats })

def within (ctx : Context) (m : Render α) : Render α := fun s =>
  let (result, after) := m { s with context := ctx }
  (result, { after with context := s.context })

def inBranch (m : Render α) : Render α := fun s =>
  let (result, after) := m { s with context := s.context.enterBranch }
  (result, { after with context := after.context.leaveBranch })

/-- What becomes of an error of a directive. -/
def recover (strict : Bool) (line : Nat) (kind : DirectiveKind) (fallback : α) (m : Render α) : Render α := fun s =>
  match m s with
  | (.ok a, s) => (.ok a, s)
  | (.error e, s) =>
      if strict then (.error (e.atLine line), s)
      else
        let stats := { s.stats with suppressedErrors := s.stats.suppressedErrors + 1 }
        (.ok fallback, { s with stats, suppressed := s.suppressed ++ [⟨line, kind, e⟩] })

def bindingValue (expression : Text) : Render Value := do
  let ctx ← context
  ofExpr (do (← Expr.read expression).value ctx)

def bind (name : Text) (value : Value) : Render Unit := fun s =>
  (.ok (), { s with context := s.context.bind name value })

def bindAll (strict : Bool) : Block → Render Unit
  | [] => pure ()
  | .binding name expression line :: rest => do
      match ← recover strict line .binding none (some <$> bindingValue expression) with
      | some value => do
          bind name value
          count fun stats => { stats with bindings := stats.bindings + 1 }
      | none => pure ()
      bindAll strict rest
  | _ :: rest => bindAll strict rest

def interpolate (source : Text) : Render Text := do
  count fun stats => { stats with interpolations := stats.interpolations + 1 }
  let ctx ← context
  ofExpr (do (← Expr.read source).render ctx)

def enterBlock (strict : Bool) (depth : Nat) (block : Block) (nodes : Render Text) : Render Text :=
  if nestingMax < depth then fail (.expression .tooDeep)
  else do
    count fun stats => { stats with maxDepth := max stats.maxDepth (depth + 1) }
    bindAll strict block
    nodes

def eachItem (index : Option Text) (item : Text) (body : Render Text) : Nat → List Value → Render (List Text)
  | _, [] => pure []
  | position, element :: rest => do
      let text ← within (.ofIteration element item (index.map fun name => (name, position))) body
      count fun stats => { stats with iterations := stats.iterations + 1 }
      let texts ← eachItem index item body (position + 1) rest
      pure (text :: texts)

def expandLoop (index : Option Text) (item path : Text) (body : Render Text) : Render Text := do
  let path ← ofExpr (Path.read path)
  match (← context).resolve path with
  | some (.array items) => do
      count fun stats => { stats with loops := stats.loops + 1 }
      return Text.join ['\n'] (← eachItem index item body 0 items)
  | _ => return []

def selects (kind : BranchKind) (condition : Option Text) (line : Nat) : Render Bool :=
  match kind, condition with
  | .otherwise, _ => pure true
  | _, none => pure true
  | _, some source => fun s =>
      match Condition.read source with
      | .ok condition => (.ok (condition.eval s.context), s)
      | .error fault => (.error (.directive line fault), s)

mutual

def node (strict : Bool) (depth : Nat) : Node → Render Text
  | .text content => pure content
  | .binding _ _ _ => pure []
  | .interpolation source line => recover strict line .interpolation [] (interpolate source)
  | .loop index item path body line =>
      recover strict line .loop [] <|
        expandLoop index item path (enterBlock strict (depth + 1) body (nodes strict (depth + 1) body))
  | .conditional choices line =>
      recover strict line .conditional [] do
        count fun stats => { stats with conditionals := stats.conditionals + 1 }
        branches strict depth choices

def nodes (strict : Bool) (depth : Nat) : List Node → Render Text
  | [] => pure []
  | first :: rest => do
      let text ← node strict depth first
      let more ← nodes strict depth rest
      return text ++ more

def branches (strict : Bool) (depth : Nat) : List Branch → Render Text
  | [] => pure []
  | .mk kind condition body line :: rest => do
      if ← selects kind condition line then
        inBranch (enterBlock strict (depth + 1) body (nodes strict (depth + 1) body))
      else branches strict depth rest

end

def block (strict : Bool) (depth : Nat) (block : Block) : Render Text :=
  enterBlock strict depth block (nodes strict depth block)

end Render

end TextTemplate
