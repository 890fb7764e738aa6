import TextTemplate.Token
import TextTemplate.Value
import TextTemplate.Text.Utf8

namespace TextTemplate

inductive ExprFault where
  | emptyExpression
  | emptyPath
  | malformedPath (source : Text)
  | containerBranch (branch : Text)
  | tooDeep
  deriving DecidableEq, Repr

inductive TagProblem where
  | neverClosed (closing : Lexeme)
  | tooDeep
  | unmatched
  | afterElse
  deriving DecidableEq, Repr

inductive FormatFault where
  | jsonData
  | tomlData
  | jsonConfig
  | tomlConfig
  | configName
  | definition (text : Text)
  | count (argument : Text)
  | failedTemplates (total : Nat)
  | allRoundsFailed
  deriving DecidableEq, Repr

inductive FileFault where
  | notFound
  | notPermitted
  | exists
  | notDirectory
  | isDirectory
  | other (message : String)
  deriving DecidableEq, Repr

inductive TemplateError where
  | file (fault : FileFault)
  | parse (position : Position) (tag : Lexeme) (problem : TagProblem)
  | expression (fault : ExprFault)
  | directive (line : Nat) (fault : ExprFault)
  | notMapping (kind : String)
  | documentNotMapping
  | notText (fault : Text.Utf8.Fault)
  | unreadable (path : Text) (fault : FileFault)
  | format (fault : FormatFault)
  deriving DecidableEq, Repr

def nestingMax : Nat := 64

def ExprFault.message : ExprFault → String
  | .emptyExpression => "empty expression"
  | .emptyPath => "empty path"
  | .malformedPath source => "malformed path '" ++ String.ofList source ++ "'"
  | .containerBranch branch => "ternary branch '" ++ String.ofList branch ++ "' is a mapping or sequence"
  | .tooDeep => "blocks nested deeper than " ++ toString nestingMax ++ " levels"

def TagProblem.message : TagProblem → String
  | .neverClosed closing => "is never closed with " ++ String.ofList closing.shown
  | .tooDeep => "is nested too deeply"
  | .unmatched => "without a matching opening tag"
  | .afterElse => "after <else>"

def FormatFault.message : FormatFault → String
  | .jsonData => "Invalid JSON data: malformed document"
  | .tomlData => "Invalid TOML data: malformed document"
  | .jsonConfig => "Invalid JSON config: malformed document"
  | .tomlConfig => "Invalid TOML config: malformed document"
  | .configName => "Config file must be .json or .toml format"
  | .definition text => "Invalid variable definition: " ++ String.ofList text ++ ". Use NAME=VALUE format."
  | .count argument => "Invalid " ++ String.ofList argument ++ " number"
  | .failedTemplates total => toString total ++ " templates have errors"
  | .allRoundsFailed => "All benchmark iterations failed"

def FileFault.message : FileFault → String
  | .notFound => "No such file or directory (os error 2)"
  | .notPermitted => "Permission denied (os error 13)"
  | .exists => "File exists (os error 17)"
  | .notDirectory => "Not a directory (os error 20)"
  | .isDirectory => "Is a directory (os error 21)"
  | .other message => message

def TagProblem.shown (tag : Lexeme) (problem : TagProblem) : String :=
  String.ofList tag.shown ++ " " ++ problem.message

namespace TemplateError

def message : TemplateError → String
  | file fault => "IO error: " ++ fault.message
  | parse position tag problem =>
      "Parse error at line " ++ toString position.line ++ ", column " ++ toString position.column ++ ": " ++
        problem.shown tag
  | expression fault => "Expression error: " ++ fault.message
  | directive line fault => "Directive error at line " ++ toString line ++ ": " ++ fault.message
  | notMapping kind => "Invalid context: data context must be an object, got " ++ kind
  | documentNotMapping => "Invalid context: data must be a JSON object at the top level"
  | notText fault => "Template is not valid text: " ++ fault.message
  | unreadable path fault => "File not found: " ++ String.ofList path ++ ": " ++ fault.message
  | format fault => "Invalid format: " ++ fault.message

def atLine (line : Nat) : TemplateError → TemplateError
  | expression fault => directive line fault
  | error => error

end TemplateError

end TextTemplate
