import TextTemplate.Block
import TextTemplate.Block.Closing
import TextTemplate.Error
import TextTemplate.Text

/-!
# From tokens to blocks

Tokens are taken one by one. The builder holds the directives that are open, each with the nodes before it, and
the nodes of the innermost block. A tag that cannot stand where it does is a problem: in strict mode it ends the
reading, otherwise it becomes literal text and is noted. The two modes differ in nothing else.
-/

namespace TextTemplate

inductive OpenDirective where
  | loop (index : Option Text) (item path : Text)
  | chain (finished : List Branch) (kind : BranchKind) (condition : Option Text) (line : Nat)

/-- An open directive, its opening tag, and the nodes before it, latest first. -/
structure Level where
  directive : OpenDirective
  opening : Token
  before : List Node

structure Demotion where
  token : Token
  problem : TagProblem
  deriving DecidableEq, Repr

structure Builder where
  nodes : List Node
  levels : List Level
  demoted : List Demotion

namespace Builder

def empty : Builder := ⟨[], [], []⟩

def pushText (t : Text) (nodes : List Node) : List Node :=
  if t = [] then nodes
  else
    match nodes with
    | .text content :: rest => .text (content ++ t) :: rest
    | nodes => .text t :: nodes

def push (b : Builder) (node : Node) : Builder := { b with nodes := node :: b.nodes }

def trimNode (change : Text → Text) : Node → List Node
  | .text t => if change t = [] then [] else [.text (change t)]
  | node => [node]

def trimFirst : List Node → List Node
  | [] => []
  | node :: rest => trimNode Text.dropFirstBreak node ++ rest

def trimLast : List Node → List Node
  | [] => []
  | node :: rest => trimNode Text.dropLastBreak node ++ rest

def loopBody : List Node → Block
  | [.text t] => trimNode Text.dropLastBreak (.text t.dropFirstBreak)
  | nodes => trimFirst (trimLast nodes).reverse

/-- Why a tag cannot be used where it stands; `closed` tells of an opening tag that its closing tag comes. -/
def problem? (b : Builder) (closed : Bool) : Lexeme → Option TagProblem
  | .forOpen _ _ _ =>
      if !closed then some (.neverClosed .forClose)
      else if nestingMax ≤ b.levels.length then some .tooDeep else none
  | .ifOpen _ =>
      if !closed then some (.neverClosed .ifClose)
      else if nestingMax ≤ b.levels.length then some .tooDeep else none
  | .forClose =>
      match b.levels with
      | ⟨.loop _ _ _, _, _⟩ :: _ => none
      | _ => some .unmatched
  | .elseIf _ | .otherwise =>
      match b.levels with
      | ⟨.chain _ kind _ _, _, _⟩ :: _ => if kind = .otherwise then some .afterElse else none
      | _ => some .unmatched
  | .ifClose =>
      match b.levels with
      | ⟨.chain _ _ _ _, _, _⟩ :: _ => none
      | _ => some .unmatched
  | _ => none

def enter (b : Builder) (directive : OpenDirective) (opening : Token) : Builder :=
  { b with nodes := [], levels := ⟨directive, opening, b.nodes⟩ :: b.levels }

def nextBranch (b : Builder) (kind : BranchKind) (condition : Option Text) (line : Nat) : Builder :=
  match b.levels with
  | ⟨.chain finished lastKind lastCondition lastLine, opening, before⟩ :: levels =>
      let branch := .mk lastKind lastCondition b.nodes.reverse lastLine
      { b with nodes := [], levels := ⟨.chain (branch :: finished) kind condition line, opening, before⟩ :: levels }
  | _ => b

def leave (b : Builder) : Builder :=
  match b.levels with
  | ⟨.loop index item path, opening, before⟩ :: levels =>
      { b with nodes := .loop index item path (loopBody b.nodes) opening.position.line :: before, levels }
  | ⟨.chain finished kind condition line, opening, before⟩ :: levels =>
      let branches := (.mk kind condition b.nodes.reverse line :: finished).reverse
      { b with nodes := .conditional branches opening.position.line :: before, levels }
  | [] => b

def accept (b : Builder) (token : Token) : Builder :=
  let line := token.position.line
  match token.lexeme with
  | .text content => { b with nodes := pushText content b.nodes }
  | .interpolation source => b.push (.interpolation source line)
  | .binding name expression => b.push (.binding name expression line)
  | .forOpen index item path => b.enter (.loop index item path) token
  | .ifOpen condition => b.enter (.chain [] .first (some condition) line) token
  | .elseIf condition => b.nextBranch .elseIf (some condition) line
  | .otherwise => b.nextBranch .otherwise none line
  | .forClose | .ifClose => b.leave
  | .endOfText => b

def demote (b : Builder) (token : Token) (problem : TagProblem) : Builder :=
  { b with nodes := pushText token.raw b.nodes, demoted := ⟨token, problem⟩ :: b.demoted }

def step (strict : Bool) (b : Builder) (token : Token) (closed : Bool) : Except TemplateError Builder :=
  match b.problem? closed token.lexeme with
  | none => .ok (b.accept token)
  | some problem =>
      if strict then .error (.parse token.position token.lexeme problem) else .ok (b.demote token problem)

def run (strict : Bool) : Builder → List (Token × Bool) → Except TemplateError Builder
  | b, [] => .ok b
  | b, (token, closed) :: rest => do run strict (← b.step strict token closed) rest

def closingOf : Lexeme → Lexeme
  | .forOpen _ _ _ => .forClose
  | _ => .ifClose

def finish (b : Builder) : Except TemplateError (Block × List Demotion) :=
  match b.levels with
  | [] => .ok (b.nodes.reverse, b.demoted.reverse)
  | level :: _ =>
      let opening := level.opening
      .error (.parse opening.position opening.lexeme (.neverClosed (closingOf opening.lexeme)))

end Builder

def Token.upToEnd (tokens : List Token) : List Token := tokens.takeWhile fun token => token.lexeme ≠ .endOfText

/-- The block that tokens spell, and the tags among them that became literal text. -/
def Block.ofTokens (strict : Bool) (tokens : List Token) : Except TemplateError (Block × List Demotion) := do
  let tokens := Token.upToEnd tokens
  let closed := (Outlook.ofTokens tokens).map fun outlook => outlook.own.isSome
  (← Builder.run strict .empty (tokens.zip closed)).finish

end TextTemplate
