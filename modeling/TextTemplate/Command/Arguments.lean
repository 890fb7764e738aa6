import TextTemplate.Text

namespace TextTemplate.Command

inductive OptionKind where
  | flag
  | counted
  | single
  | repeated
  | help
  | version
  deriving DecidableEq, Repr

structure OptionSpec where
  name : Text
  letter : Option Char
  kind : OptionKind
  choices : List Text

structure CommandSpec where
  options : List OptionSpec
  plain : Nat
  commands : List Text

inductive Halt where
  | misuse
  | help
  | version
  deriving DecidableEq, Repr

structure Given where
  options : List (Text × Text)
  plain : List Text
  command : Option (Text × List Text)

namespace Given

def empty : Given := ⟨[], [], none⟩

def has (given : Given) (name : String) : Bool := given.options.any fun option => option.1 = name.toList

def values (given : Given) (name : String) : List Text :=
  (given.options.filter fun option => option.1 = name.toList).map Prod.snd

def value? (given : Given) (name : String) : Option Text := (given.values name).head?

def count (given : Given) (name : String) : Nat := (given.values name).length

end Given

namespace OptionKind

def takesValue : OptionKind → Bool
  | single | repeated => true
  | _ => false

def atMostOnce : OptionKind → Bool
  | flag | single => true
  | _ => false

end OptionKind

def record (given : Given) (option : OptionSpec) (value : Text) : Except Halt Given :=
  if option.kind = .help then .error .help
  else if option.kind = .version then .error .version
  else if option.kind.atMostOnce ∧ given.options.any (fun earlier => earlier.1 = option.name) then .error .misuse
  else if option.choices ≠ [] ∧ value ∉ option.choices then .error .misuse
  else .ok { given with options := given.options ++ [(option.name, value)] }

def looksLikeOption : Text → Bool
  | '-' :: _ :: _ => true
  | _ => false

def takeLetters (spec : CommandSpec) (given : Given) : Text → Except Halt (Given × Option OptionSpec)
  | [] => .ok (given, none)
  | letter :: rest =>
      match spec.options.find? fun option => option.letter = some letter with
      | none => .error .misuse
      | some option =>
          if option.kind.takesValue then
            match rest with
            | [] => .ok (given, some option)
            | '=' :: value => return (← record given option value, none)
            | value => return (← record given option value, none)
          else do takeLetters spec (← record given option []) rest

def takeLong (spec : CommandSpec) (given : Given) (t : Text) : Except Halt (Given × Option OptionSpec) :=
  let name := t.takeWhile (· ≠ '=')
  match spec.options.find? fun option => option.name = name with
  | none => .error .misuse
  | some option =>
      match option.kind.takesValue, t.dropWhile (· ≠ '=') with
      | true, _ :: value => return (← record given option value, none)
      | true, [] => .ok (given, some option)
      | false, [] => return (← record given option [], none)
      | false, _ :: _ => .error .misuse

def takePlain (spec : CommandSpec) (given : Given) (t : Text) : Except Halt Given :=
  if given.plain.length < spec.plain then .ok { given with plain := given.plain ++ [t] } else .error .misuse

def takeAll (spec : CommandSpec) : (plainOnly : Bool) → (pending : Option OptionSpec) → Given → List Text →
    Except Halt Given
  | _, some _, _, [] => .error .misuse
  | _, none, given, [] => if given.plain.length = spec.plain then .ok given else .error .misuse
  | plainOnly, some option, given, t :: rest =>
      if looksLikeOption t then .error .misuse
      else do takeAll spec plainOnly none (← record given option t) rest
  | true, none, given, t :: rest => do takeAll spec true none (← takePlain spec given t) rest
  | false, none, given, t :: rest =>
      match t with
      | '-' :: '-' :: [] => takeAll spec true none given rest
      | '-' :: '-' :: long => do
          let (given, pending) ← takeLong spec given long
          takeAll spec false pending given rest
      | '-' :: letter :: letters => do
          let (given, pending) ← takeLetters spec given (letter :: letters)
          takeAll spec false pending given rest
      | t =>
          if t ∈ spec.commands then .ok { given with command := some (t, rest) }
          else do takeAll spec false none (← takePlain spec given t) rest

def CommandSpec.read (spec : CommandSpec) (arguments : List Text) : Except Halt Given :=
  takeAll spec false none .empty arguments

inductive OutputFormat where
  | text | json
  deriving DecidableEq, Repr

structure RenderArguments where
  template : Text
  data : Option Text
  defines : List Text
  output : Option Text
  strict : Bool
  showStats : Bool
  format : OutputFormat
  watch : Bool

structure CheckArguments where
  input : Text
  recursive : Bool

structure BenchmarkArguments where
  template : Text
  data : Option Text
  defines : List Text
  iterations : Text
  warmup : Text

inductive Task where
  | render (arguments : RenderArguments)
  | check (arguments : CheckArguments)
  | benchmark (arguments : BenchmarkArguments)

structure Invocation where
  config : Option Text
  verbosity : Nat
  task : Option Task

private def optionNamed (name : String) (letter : Option Char) (kind : OptionKind) : OptionSpec :=
  ⟨name.toList, letter, kind, []⟩

private def helpOption : OptionSpec := optionNamed "help" (some 'h') .help

def topSpec : CommandSpec :=
  ⟨[optionNamed "config" (some 'c') .single, optionNamed "verbose" (some 'v') .counted, helpOption,
    optionNamed "version" (some 'V') .version],
    0, ["render".toList, "check".toList, "benchmark".toList, "help".toList]⟩

def renderSpec : CommandSpec :=
  ⟨[optionNamed "data" (some 'd') .single, optionNamed "define" (some 'D') .repeated,
    optionNamed "output" (some 'o') .single, optionNamed "strict" none .flag, optionNamed "debug" none .flag,
    optionNamed "stats" none .flag, ⟨"format".toList, some 'f', .single, ["text".toList, "json".toList]⟩,
    optionNamed "watch" (some 'w') .flag, helpOption], 1, []⟩

def checkSpec : CommandSpec := ⟨[optionNamed "recursive" (some 'r') .flag, helpOption], 1, []⟩

def benchmarkSpec : CommandSpec :=
  ⟨[optionNamed "data" (some 'd') .single, optionNamed "define" (some 'D') .repeated,
    optionNamed "iterations" (some 'n') .single, optionNamed "warmup" none .single, helpOption], 1, []⟩

def readHelp : List Text → Halt
  | [] => .help
  | name :: rest =>
      if rest = [] ∧ name ∈ topSpec.commands then .help else .misuse

def readTask (name : Text) (arguments : List Text) : Except Halt Task :=
  if name = "render".toList then do
    let given ← renderSpec.read arguments
    let format := if given.value? "format" = some "json".toList then OutputFormat.json else .text
    return .render
      ⟨given.plain.headD [], given.value? "data", given.values "define", given.value? "output", given.has "strict",
        given.has "stats", format, given.has "watch"⟩
  else if name = "check".toList then do
    let given ← checkSpec.read arguments
    return .check ⟨given.plain.headD [], given.has "recursive"⟩
  else if name = "benchmark".toList then do
    let given ← benchmarkSpec.read arguments
    return .benchmark
      ⟨given.plain.headD [], given.value? "data", given.values "define",
        (given.value? "iterations").getD "100".toList, (given.value? "warmup").getD "10".toList⟩
  else .error (readHelp arguments)

def Invocation.read (arguments : List Text) : Except Halt Invocation := do
  let given ← topSpec.read arguments
  let task ← given.command.mapM fun (name, rest) => readTask name rest
  return ⟨given.value? "config", given.count "verbose", task⟩

end TextTemplate.Command
