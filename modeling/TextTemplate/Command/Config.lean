import TextTemplate.Data.Document
import TextTemplate.Json.Fields
import TextTemplate.Template
import TextTemplate.Text

namespace TextTemplate.Command

structure Config where
  strict : Option Bool
  debug : Option Bool
  defaults : Option (List (Text × Text))
  dataFile : Option Text
  outputDirectory : Option Text
  deriving DecidableEq

namespace Config

def empty : Config := ⟨none, none, none, none, none⟩

def fieldNames : List Text :=
  ["strict".toList, "debug".toList, "variables".toList, "data_file".toList, "output_directory".toList]

def bool? : Value → Option Bool
  | .bool b => some b
  | _ => none

def text? : Value → Option Text
  | .text t => some t
  | _ => none

def texts? : Value → Option (List (Text × Text))
  | .object entries => entries.mapM fun (key, value) => (text? value).map fun t => (key, t)
  | _ => none

def field? (nullable : Bool) (read : Value → Option α) : Option Value → Option (Option α)
  | none => some none
  | some .null => if nullable then some none else none
  | some value => (read value).map some

def ofFields? (nullable : Bool) (field : Text → Option Value) : Option Config := do
  return {
    strict := ← field? nullable bool? (field "strict".toList)
    debug := ← field? nullable bool? (field "debug".toList)
    defaults := ← field? nullable texts? (field "variables".toList)
    dataFile := ← field? nullable text? (field "data_file".toList)
    outputDirectory := ← field? nullable text? (field "output_directory".toList) }

def ofJson? (t : Text) : Option Config := do
  let fields ← Json.readRecord? fieldNames t
  ofFields? true (Entries.get? fields)

def ofToml? (t : Text) : Option Config := do
  let table ← Toml.read? t
  ofFields? false (Entries.get? table.toEntries)

def read (path contents : Text) : Except TemplateError Config :=
  if ".json".toList.isSuffixOf path then
    match ofJson? contents with
    | some config => .ok config
    | none => .error (.format .jsonConfig)
  else if ".toml".toList.isSuffixOf path then
    match ofToml? contents with
    | some config => .ok config
    | none => .error (.format .tomlConfig)
  else .error (.format .configName)

def definitions : List Text → Except TemplateError (List (Text × Text))
  | [] => .ok []
  | define :: rest =>
      match Text.definition? define with
      | none => .error (.format (.definition define))
      | some definition => return (← definitions rest) ++ [definition]

/-- The options of a render: a flag or the configuration makes it strict, and definitions win over variables. -/
def options (config : Config) (strict : Bool) (defines : List Text) : Except TemplateError Options := do
  return ⟨strict || config.strict.getD false, (← definitions defines) ++ config.defaults.getD []⟩

end Config

end TextTemplate.Command
