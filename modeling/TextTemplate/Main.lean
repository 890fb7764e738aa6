import TextTemplate.Command.Run

namespace TextTemplate.Command

def FileFault.ofError : IO.Error → FileFault
  | .noFileOrDirectory _ _ _ => .notFound
  | .alreadyExists _ _ _ => .exists
  | .permissionDenied _ _ _ => .notPermitted
  | .inappropriateType _ code _ => if code = 21 then .isDirectory else .notDirectory
  | error => .other (toString error)

def guarded (action : IO α) : IO (Except FileFault α) := do
  try return .ok (← action)
  catch error => return .error (FileFault.ofError error)

def readFile (path : Text) : IO (Except FileFault Text) := do
  match ← guarded (IO.FS.readBinFile (String.ofList path)) with
  | .error fault => return .error fault
  | .ok bytes =>
      match String.fromUTF8? bytes with
      | some contents => return .ok contents.toList
      | none => return .error (.other "stream did not contain valid UTF-8")

def isDirectoryAt (path : Text) : IO Bool := do
  match ← guarded (IO.FS.realPath (String.ofList path)) with
  | .ok place => place.isDir
  | .error _ => return false

partial def listFiles (recursive : Bool) (path : Text) : IO (List Text) := do
  let place ← IO.FS.realPath (String.ofList path)
  let entries ← place.readDir
  let found ← entries.toList.mapM fun entry => do
    let child := FilePath.join path entry.fileName.toList
    if ← entry.path.isDir then
      if recursive then listFiles recursive child else return []
    else return [child]
  return found.flatten

def printTo (stream : IO.FS.Stream) (t : Text) : IO Unit := do
  stream.putStr (String.ofList t)
  stream.flush

abbrev Program := StateT Nat IO

instance : Host Program where
  readText path := readFile path
  isDirectory path := isDirectoryAt path
  filesIn recursive path := guarded (listFiles recursive path)
  makeDirectories path := guarded (IO.FS.createDirAll (String.ofList path))
  writeText path contents := guarded (IO.FS.writeFile (String.ofList path) (String.ofList contents))
  print t := do printTo (← IO.getStdout) t
  printError t := do printTo (← IO.getStderr) t
  setVerbosity n := set n
  log level message := do
    if level = .warning ∨ 0 < (← get) then
      let mark := if level = .warning then "[WARN] " else "[INFO] "
      printTo (← IO.getStderr) (mark.toList ++ message ++ ['\n'])
  clock := do IO.monoNanosNow

def watched (a : RenderArguments) (data : Option Text) : Program (List (Option Text)) :=
  (a.template :: data.toList).mapM fun path => do return (← readFile path).toOption

partial def renderOnChanges (a : RenderArguments) (options : Options) (data output : Option Text)
    (seen : List (Option Text)) : Program Unit := do
  IO.sleep 200
  let contents ← watched a data
  if contents ≠ seen then
    Host.printError "🔄 File changed, re-rendering...\n".toList
    match ← (renderOnce a options data output : Action Program Unit).run with
    | .ok () => Host.printError "✅ Re-rendered\n".toList
    | .error e => Host.printError ("❌ Render failed: " ++ e.message ++ "\n").toList
  renderOnChanges a options data output contents

def watch (config : Config) (a : RenderArguments) : Action Program Unit := do
  let options ← MonadExcept.ofExcept (config.options a.strict a.defines)
  let data := a.data.or config.dataFile
  let output := outputPath config a
  sayError ("👀 Watching " ++ String.ofList a.template ++ " for changes...")
  let contents ← ExceptT.lift (watched a data)
  match ← ExceptT.lift (renderOnce a options data output : Action Program Unit).run with
  | .ok () => pure ()
  | .error e => sayError ("❌ Initial render failed: " ++ e.message)
  ExceptT.lift (renderOnChanges a options data output contents)

def execute (arguments : List Text) : Program Nat := do
  match Invocation.read arguments with
  | .ok ⟨config, verbosity, some (.render a)⟩ =>
      if a.watch then
        match ← (do watch (← loadConfig config) a : Action Program Unit).run with
        | .ok () => return 0
        | .error e => do
            Host.printError (report e)
            return 1
      else runInvocation ⟨config, verbosity, some (.render a)⟩
  | _ => run arguments

end TextTemplate.Command

def main (arguments : List String) : IO UInt32 := do
  let (code, _) ← (TextTemplate.Command.execute (arguments.map String.toList)).run 0
  return code.toUInt32
