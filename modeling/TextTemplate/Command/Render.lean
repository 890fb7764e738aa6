import TextTemplate.Command.Arguments
import TextTemplate.Command.Config
import TextTemplate.Command.Host

namespace TextTemplate

def RenderResult.toJson (r : RenderResult) : Text :=
  let success := [("success".toList, Json.write (.bool r.success))]
  let output := (r.output.map fun t => ("output".toList, Json.quote t)).toList
  let error := (r.error.map fun t => ("error".toList, Json.quote t)).toList
  Json.spread (success ++ output ++ error)

def RenderResult.fieldNames : List Text := ["success".toList, "output".toList, "error".toList]

def RenderResult.ofJson? (t : Text) : Option RenderResult := do
  let fields ← Json.readRecord? fieldNames t
  let field := Entries.get? fields
  return {
    success := ← (field "success".toList).bind Command.Config.bool?
    output := ← Command.Config.field? true Command.Config.text? (field "output".toList)
    error := ← Command.Config.field? true Command.Config.text? (field "error".toList) }

namespace Command

structure Outcome where
  text : Text
  stats : Stats
  failure : Option TemplateError

def Outcome.of (format : OutputFormat) (rendered : Except TemplateError Rendered) : Except TemplateError Outcome :=
  match format, rendered with
  | .text, .ok r => .ok ⟨r.output, r.stats, none⟩
  | .text, .error e => .error e
  | .json, .ok r => .ok ⟨(RenderResult.ok r.output).toJson, r.stats, none⟩
  | .json, .error e => .ok ⟨(RenderResult.failed e).toJson, .zero, some e⟩

def defaultOutput (directory template : Text) : Text :=
  let name := (FilePath.fileName? template).getD "output".toList
  let (stem, extension) := FilePath.cutExtension name
  FilePath.join directory (if extension = some "tmpl".toList then stem else name)

def warnings (template : Template) (suppressed : List Suppression) : List String :=
  template.demoted.map (fun d =>
    "Line " ++ toString d.token.position.line ++ ": " ++ d.problem.shown d.token.lexeme ++ "; keeping it as text") ++
  suppressed.map fun s =>
    "Line " ++ toString s.line ++ ": dropping " ++ s.kind.shown ++ ": " ++ s.error.message

section
variable {m : Type → Type} [Monad m] [Host m]

def renderLogged (options : Options) (template : Text) (data : Value) : m (Except TemplateError Rendered) :=
  match Template.parse options.strict template with
  | .error e => pure (.error e)
  | .ok parsed => do
      let rendered := parsed.render options data
      let suppressed := match rendered with
        | .ok r => r.suppressed
        | .error _ => []
      (warnings parsed suppressed).forM fun warning => Host.log .warning warning.toList
      return rendered

def showStats (stats : Stats) : Action m Unit := do
  sayError "\n📊 Render Statistics:"
  sayError ("   Template size: " ++ toString stats.templateSize ++ " bytes")
  sayError ("   Output size: " ++ toString stats.outputSize ++ " bytes")
  sayError ("   Interpolations: " ++ toString stats.interpolations)
  sayError ("   Loops: " ++ toString stats.loops ++ " (" ++ toString stats.iterations ++ " iterations)")
  sayError ("   Conditionals: " ++ toString stats.conditionals)
  sayError ("   Bindings: " ++ toString stats.bindings)
  sayError ("   Max nesting depth: " ++ toString stats.maxDepth)
  if stats.suppressedErrors > 0 then
    sayError ("   ⚠️  Suppressed directive errors: " ++ toString stats.suppressedErrors)

def tenths (n : Nat) : String := toString (n / 10) ++ "." ++ toString (n % 10)

def writeOutput (template path text : Text) : Action m Unit := do
  match FilePath.parent? path with
  | some (c :: rest) => onFile .file (Host.makeDirectories (c :: rest))
  | _ => pure ()
  onFile .file (Host.writeText path text)
  say ("✅ Rendered " ++ String.ofList template ++ " -> " ++ String.ofList path)

def deliver (template : Text) (format : OutputFormat) (text : Text) : Option Text → Action m Unit
  | some path => writeOutput template path text
  | none => ExceptT.lift (Host.print (if format = .json then text ++ ['\n'] else text))

def renderOnce (a : RenderArguments) (options : Options) (data output : Option Text) : Action m Unit := do
  let template ← readTemplate a.template
  let data ← loadData data
  let before ← ExceptT.lift Host.clock
  let rendered ← ExceptT.lift (renderLogged options template data)
  let after ← ExceptT.lift Host.clock
  let outcome ← MonadExcept.ofExcept (Outcome.of a.format rendered)
  deliver a.template a.format outcome.text output
  match outcome.failure with
  | some e => throw e
  | none =>
      if a.showStats then
        showStats outcome.stats
        sayError ("   Render time: " ++ toString ((after - before) / 1000) ++ "µs")

def outputPath (config : Config) (a : RenderArguments) : Option Text :=
  a.output.or (config.outputDirectory.map fun directory => defaultOutput directory a.template)

def runRender (config : Config) (a : RenderArguments) : Action m Unit := do
  let options ← MonadExcept.ofExcept (config.options a.strict a.defines)
  renderOnce a options (a.data.or config.dataFile) (outputPath config a)

end

end Command

end TextTemplate
