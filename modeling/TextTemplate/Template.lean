import TextTemplate.Token.Lexer
import TextTemplate.Block.Builder
import TextTemplate.Render

namespace TextTemplate

structure Options where
  strict : Bool
  defaults : List (Text × Text)

def Options.lenient : Options := ⟨false, []⟩

def Options.strictly : Options := ⟨true, []⟩

structure Template where
  block : Block
  demoted : List Demotion
  size : Nat

structure Rendered where
  output : Text
  stats : Stats
  suppressed : List Suppression

namespace Template

def parse (strict : Bool) (source : Text) : Except TemplateError Template := do
  let (block, demoted) ← Block.ofTokens strict (Token.scan source)
  return ⟨block, demoted, source.utf8Size⟩

def hasDirectives (t : Template) : Bool := t.block.any Node.isDirective

def root (defaults : List (Text × Text)) : Value → Except TemplateError Entries
  | .object entries =>
      .ok (defaults.foldl (fun entries (name, value) => entries.insertNew name (.text value)) entries)
  | data => .error (.notMapping data.kindName)

def start (root : Entries) : Progress := ⟨.ofRoot root, .zero, []⟩

def render (t : Template) (options : Options) (data : Value) : Except TemplateError Rendered := do
  let root ← root options.defaults data
  match Render.block options.strict 0 t.block (start root) with
  | (.ok output, progress) =>
      let stats := { progress.stats with templateSize := t.size, outputSize := output.utf8Size }
      return ⟨output, stats, progress.suppressed⟩
  | (.error e, _) => .error e

end Template

def renderWithOptions (options : Options) (template : Text) (data : Value) : Except TemplateError Rendered := do
  (← Template.parse options.strict template).render options data

/-- The output of a template, whatever is wrong with it; data that is no mapping counts as empty. -/
def render (template : Text) (data : Value) : Text :=
  let data := if data.isObject then data else .object []
  match renderWithOptions .lenient template data with
  | .ok rendered => rendered.output
  | .error _ => []

structure RenderResult where
  success : Bool
  output : Option Text
  error : Option Text
  deriving DecidableEq, Repr

namespace RenderResult

def ok (output : Text) : RenderResult := ⟨true, some output, none⟩

def failed (error : TemplateError) : RenderResult := ⟨false, none, some error.message.toList⟩

def toExcept (r : RenderResult) : Except Text Text :=
  match r.success, r.output, r.error with
  | true, some output, _ => .ok output
  | _, _, some error => .error error
  | _, _, none => .error "render produced no output".toList

end RenderResult

def renderSafe (template : Text) (data : Value) : RenderResult :=
  match renderWithOptions .strictly template data with
  | .ok rendered => .ok rendered.output
  | .error e => .failed e

def renderBytes (bytes : List Nat) (data : Value) : Except TemplateError Text :=
  match Text.Utf8.decode bytes with
  | .ok template => .ok (render template data)
  | .error fault => .error (.notText fault)

end TextTemplate
