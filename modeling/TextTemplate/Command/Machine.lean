import TextTemplate.Command.Host

namespace TextTemplate.Command

inductive Entry where
  | file (contents : Text)
  | directory (entries : List (Text × Entry))

namespace Entry

def child? : Entry → Text → Option Entry
  | file _, _ => none
  | directory entries, name => (entries.find? fun entry => entry.1 = name).map Prod.snd

def follow? (e : Entry) (names : List Text) : Option Entry := names.foldlM child? e

def setChild (e : Entry) (name : Text) (child : Entry) : Entry :=
  match e with
  | file contents => file contents
  | directory entries =>
      if entries.any (fun entry => entry.1 = name) then
        directory (entries.map fun entry => if entry.1 = name then (name, child) else entry)
      else directory (entries ++ [(name, child)])

def put : Entry → List Text → Entry → Entry
  | _, [], new => new
  | e, name :: names, new => e.setChild name (put ((e.child? name).getD (directory [])) names new)

mutual

def files (recursive : Bool) (path : Text) : Entry → List Text
  | file _ => [path]
  | directory entries => filesAmong recursive path entries

def filesAmong (recursive : Bool) (path : Text) : List (Text × Entry) → List Text
  | [] => []
  | (name, file _) :: rest => FilePath.join path name :: filesAmong recursive path rest
  | (name, directory entries) :: rest =>
      (if recursive then filesAmong recursive (FilePath.join path name) entries else []) ++
        filesAmong recursive path rest

end

end Entry

structure Machine where
  root : Entry
  directory : List Text
  output : Text
  errors : Text
  verbosity : Nat

namespace Machine

def parts (path : Text) : List Text :=
  (path.splitOn '/').filter (· ≠ []) ++ if path.getLast? = some '/' then [['.']] else []

/-- Where the names of a path lead from a place, which is given by its names, innermost first. -/
def walk (root : Entry) : (place : List Text) → List Text → Except FileFault (List Text)
  | place, [] => .ok place
  | place, name :: rest =>
      match root.follow? place.reverse with
      | none => .error .notFound
      | some (.file _) => .error .notDirectory
      | some (.directory _) =>
          if name = ['.'] then walk root place rest
          else if name = "..".toList then walk root place.tail rest
          else walk root (name :: place) rest

def origin (s : Machine) (path : Text) : List Text := if FilePath.isAbsolute path then [] else s.directory.reverse

def locate (s : Machine) (path : Text) : Except FileFault (List Text) :=
  if path = [] then .error .notFound
  else (walk s.root (s.origin path) (parts path)).map List.reverse

def readText (s : Machine) (path : Text) : Except FileFault Text := do
  let names ← s.locate path
  match s.root.follow? names with
  | some (.file contents) => .ok contents
  | some (.directory _) => .error .isDirectory
  | none => .error .notFound

def isDirectory (s : Machine) (path : Text) : Bool :=
  match s.locate path with
  | .ok names =>
      match s.root.follow? names with
      | some (.directory _) => true
      | _ => false
  | .error _ => false

def filesIn (recursive : Bool) (s : Machine) (path : Text) : Except FileFault (List Text) := do
  let names ← s.locate path
  match s.root.follow? names with
  | some entry => .ok (entry.files recursive path)
  | none => .error .notFound

def writeText (s : Machine) (path contents : Text) : Except FileFault Machine :=
  if path = [] then .error .notFound
  else do
    let names ← walk s.root (s.origin path) ((path.splitOn '/').filter (· ≠ []))
    if path.getLast? = some '/' then .error .isDirectory
    else
      match s.root.follow? names.reverse with
      | some (.directory _) => .error .isDirectory
      | _ => .ok { s with root := s.root.put names.reverse (.file contents) }

def make (root : Entry) : (place : List Text) → List Text → Except FileFault Entry
  | _, [] => .ok root
  | place, name :: rest =>
      if name = ['.'] then make root place rest
      else if name = "..".toList then make root place.tail rest
      else
        let here := (name :: place).reverse
        match root.follow? here with
        | some (.directory _) => make root (name :: place) rest
        | some (.file _) => .error (if rest = [] then .exists else .notDirectory)
        | none => make (root.put here (.directory [])) (name :: place) rest

def makeDirectories (s : Machine) (path : Text) : Except FileFault Machine := do
  return { s with root := ← make s.root (s.origin path) (FilePath.names path) }

def logLine (level : LogLevel) (message : Text) : Text :=
  let mark := match level with
    | .warning => "[WARN] "
    | .info => "[INFO] "
  mark.toList ++ (message.flatMap fun c => if c = '\n' then "\n    ".toList else [c]) ++ ['\n']

def change (f : Machine → Except FileFault Machine) : StateM Machine (Except FileFault Unit) := fun s =>
  match f s with
  | .ok s => (.ok (), s)
  | .error fault => (.error fault, s)

instance : Host (StateM Machine) where
  readText path := fun s => (s.readText path, s)
  isDirectory path := fun s => (s.isDirectory path, s)
  filesIn recursive path := fun s => (s.filesIn recursive path, s)
  makeDirectories path := change (·.makeDirectories path)
  writeText path contents := change (·.writeText path contents)
  print t := fun s => ((), { s with output := s.output ++ t })
  printError t := fun s => ((), { s with errors := s.errors ++ t })
  setVerbosity n := fun s => ((), { s with verbosity := n })
  log level message := fun s =>
    let told := level = .warning ∨ 0 < s.verbosity
    ((), if told then { s with errors := s.errors ++ logLine level message } else s)
  clock := fun s => (0, s)

end Machine

end TextTemplate.Command
