import TextTemplate.Expr
import TextTemplate.Error
import TextTemplate.Json

namespace TextTemplate

inductive ScopeKind where
  | root | iteration | branch
  deriving DecidableEq, Repr

structure Frame where
  kind : ScopeKind
  bindings : Entries

structure Context where
  root : Option Entries
  frames : List Frame
  item : Option Text

namespace Value

def index? (segment : Text) : Option Nat :=
  let digits := match segment with
    | '+' :: rest => rest
    | _ => segment
  if digits = [] ∨ !digits.all Char.isDigit ∨ twoTo 64 ≤ Text.toNat digits then none
  else some (Text.toNat digits)

def lengthName : Text := "length".toList

def step? : Value → Text → Option Value
  | object entries, segment => Entries.get? entries segment
  | array items, segment =>
      if segment = lengthName then some (ofNat items.length)
      else (index? segment).bind fun i => items[i]?
  | text t, segment => if segment = lengthName then some (ofNat t.length) else none
  | _, _ => none

def walk? (v : Value) (segments : List Text) : Option Value := segments.foldlM step? v

end Value

namespace Context

def ofRoot (root : Entries) : Context := ⟨some root, [⟨.root, []⟩], none⟩

/-- The context of an iteration: the element, if it is a mapping, and over it the index if it has a name. -/
def ofIteration (element : Value) (item : Text) (index : Option (Text × Nat)) : Context :=
  let root := match element with
    | .object entries => some entries
    | _ => none
  let bindings := match index with
    | some (name, position) => Entries.insert name (.ofNat position) []
    | none => []
  ⟨root, [⟨.iteration, bindings⟩], some item⟩

def scope (ctx : Context) : ScopeKind :=
  match ctx.frames with
  | frame :: _ => frame.kind
  | [] => .root

def bound (ctx : Context) : List Text :=
  match ctx.frames with
  | frame :: _ => frame.bindings.keys
  | [] => []

def bind (ctx : Context) (name : Text) (value : Value) : Context :=
  match ctx.frames with
  | frame :: rest => { ctx with frames := { frame with bindings := frame.bindings.insert name value } :: rest }
  | [] => ctx

def enterBranch (ctx : Context) : Context := { ctx with frames := ⟨.branch, []⟩ :: ctx.frames }

def leaveBranch (ctx : Context) : Context := { ctx with frames := ctx.frames.tail }

def get? (ctx : Context) (name : Text) : Option Value :=
  (ctx.frames.findSome? fun frame => frame.bindings.get? name).or (ctx.root.bind (Entries.get? · name))

def withoutItem (ctx : Context) : List Text → List Text
  | first :: next :: rest => if ctx.item = some first then next :: rest else first :: next :: rest
  | segments => segments

def resolve (ctx : Context) (path : Path) : Option Value :=
  match ctx.withoutItem path.segments with
  | [] => none
  | first :: rest => (ctx.get? first).bind (Value.walk? · rest)

end Context

def Value.display : Option Value → Text
  | none | some .null => []
  | some (.text t) => t
  | some (.number n) => n.plainText
  | some (.bool true) => "true".toList
  | some (.bool false) => "false".toList
  | some v => Json.write v

def Operand.eval (ctx : Context) : Operand → Option Value
  | literal v => some v
  | path p => ctx.resolve p

def Condition.eval (ctx : Context) : Condition → Bool
  | compare left op right => op.holds (ctx.resolve left) (right.eval ctx)
  | truthy path negated => Value.truthy (ctx.resolve path) != negated

def Operand.shown : Operand → Text
  | literal v => Json.write v
  | path p => p.shown

def Operand.branchText (ctx : Context) (branch : Operand) : Except ExprFault Text :=
  if Value.isContainer (branch.eval ctx) then .error (.containerBranch branch.shown)
  else .ok (Value.display (branch.eval ctx))

def Expr.render (ctx : Context) : Expr → Except ExprFault Text
  | operand o => .ok (Value.display (o.eval ctx))
  | condition c => .ok (if c.eval ctx then "true".toList else "false".toList)
  | ternary c whenTrue whenFalse => (if c.eval ctx then whenTrue else whenFalse).branchText ctx

def Expr.value (ctx : Context) : Expr → Except ExprFault Value
  | operand o => .ok ((o.eval ctx).getD .null)
  | condition c => .ok (.bool (c.eval ctx))
  | ternary c whenTrue whenFalse => do
      return .text (← (if c.eval ctx then whenTrue else whenFalse).branchText ctx)

end TextTemplate
