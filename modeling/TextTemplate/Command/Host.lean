import TextTemplate.Data.Document

namespace TextTemplate.Command

inductive LogLevel where
  | warning | info
  deriving DecidableEq, Repr

class Host (m : Type → Type) where
  readText : Text → m (Except FileFault Text)
  isDirectory : Text → m Bool
  filesIn (recursive : Bool) : Text → m (Except FileFault (List Text))
  makeDirectories : Text → m (Except FileFault Unit)
  writeText : (path contents : Text) → m (Except FileFault Unit)
  print : Text → m Unit
  printError : Text → m Unit
  setVerbosity : Nat → m Unit
  log : LogLevel → Text → m Unit
  clock : m Nat

abbrev Action (m : Type → Type) := ExceptT TemplateError m

section
variable {m : Type → Type} [Monad m] [Host m]

def say (line : String) : Action m Unit := ExceptT.lift (Host.print (line.toList ++ ['\n']))

def sayError (line : String) : Action m Unit := ExceptT.lift (Host.printError (line.toList ++ ['\n']))

def onFile (onFault : FileFault → TemplateError) (outcome : m (Except FileFault α)) : Action m α :=
  ExceptT.mk do return (← outcome).mapError onFault

def readTemplate (path : Text) : Action m Text := onFile (.unreadable path) (Host.readText path)

def loadData : Option Text → Action m Value
  | none => pure (.object [])
  | some path => do
      let contents ← onFile (.unreadable ("Data file ".toList ++ path)) (Host.readText path)
      ExceptT.lift (Host.log .info ("Loaded data from ".toList ++ path))
      MonadExcept.ofExcept (readDocument (.ofPath path) contents)

end

end TextTemplate.Command
