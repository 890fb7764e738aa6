import TextTemplate.Command.Arguments
import TextTemplate.Command.Host
import TextTemplate.Template

namespace TextTemplate

namespace Node

def checkAt (line : Nat) (read : Except ExprFault α) : Except TemplateError Unit :=
  match read with
  | .ok _ => .ok ()
  | .error fault => .error (.directive line fault)

mutual

def check : Node → Except TemplateError Unit
  | text _ => .ok ()
  | interpolation source line => checkAt line (Expr.read source)
  | binding _ expression line => checkAt line (Expr.read expression)
  | loop _ _ path body line => do
      checkAt line (Path.read path)
      checkBlock body
  | conditional branches _ => checkBranches branches

def checkBlock : List Node → Except TemplateError Unit
  | [] => .ok ()
  | node :: rest => do
      node.check
      checkBlock rest

def checkBranches : List Branch → Except TemplateError Unit
  | [] => .ok ()
  | .mk _ condition body line :: rest => do
      match condition with
      | some source => checkAt line (Condition.read source)
      | none => .ok ()
      checkBlock body
      checkBranches rest

end

end Node

def checkTemplate (source : Text) : Except TemplateError NodeCounts := do
  let template ← Template.parse true source
  Node.checkBlock template.block
  return template.block.counts

namespace Command

def percent (part whole : Nat) : String :=
  let share := ((Number.Binary64.ofInt part).div (.ofInt whole)).mul (.ofInt 100)
  let tenths := Number.Binary64.roundDiv .toEven (10 * Number.Binary64.quanta share.magnitude) (twoTo 1074)
  toString (tenths / 10) ++ "." ++ toString (tenths % 10) ++ "%"

section
variable {m : Type → Type} [Monad m] [Host m]

def checkFile (path : Text) : Action m Unit := do
  say ("🔍 Checking " ++ String.ofList path)
  let source ← ExceptT.lift (readTemplate path).run
  match (do checkTemplate (← source)) with
  | .ok counts =>
      say ("✅ " ++ String.ofList path ++ " - No issues found (" ++ toString counts.interpolations ++
        " interpolations, " ++ toString counts.loops ++ " loops, " ++ toString counts.conditionals ++
        " conditionals, " ++ toString counts.bindings ++ " bindings)")
  | .error e => do
      say ("❌ " ++ String.ofList path ++ " - " ++ e.message)
      throw e

def checkFiles : List Text → Action m Nat
  | [] => pure 0
  | path :: rest => do
      let outcome ← ExceptT.lift (checkFile path).run
      let errors ← checkFiles rest
      match outcome with
      | .ok () => pure errors
      | .error _ => pure (errors + 1)

def isTemplatePath (path : Text) : Bool := FilePath.extension? path = some "tmpl".toList

def checkDirectory (path : Text) (recursive : Bool) : Action m Unit := do
  let files ← onFile .file (Host.filesIn recursive path)
  let templates := (files.filter isTemplatePath).mergeSort fun t u => t.order u ≠ .gt
  let errors ← checkFiles templates
  let total := templates.length
  say "\n📊 Check Summary:"
  say ("   Total files: " ++ toString total)
  say ("   Files with errors: " ++ toString errors)
  if total > 0 then say ("   Success rate: " ++ percent (total - errors) total)
  if errors > 0 then throw (.format (.failedTemplates errors))

def runCheck (a : CheckArguments) : Action m Unit := do
  if ← ExceptT.lift (Host.isDirectory a.input) then checkDirectory a.input a.recursive else checkFile a.input

end

end Command

end TextTemplate
