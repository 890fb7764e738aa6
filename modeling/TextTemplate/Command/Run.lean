import TextTemplate.Command.Benchmark
import TextTemplate.Command.Check

namespace TextTemplate.Command

def versionLine : String := "tmplr 0.1.0\n"

def usage : String :=
  "Usage: tmplr [-c FILE] [-v]... [COMMAND]\n\n" ++
  "  render TEMPLATE [-d FILE] [-D NAME=VALUE]... [-o FILE] [-f text|json] [--strict] [--debug] [--stats] [-w]\n" ++
  "  check INPUT [-r]\n" ++
  "  benchmark TEMPLATE [-d FILE] [-D NAME=VALUE]... [-n N] [--warmup N]\n"

section
variable {m : Type → Type} [Monad m] [Host m]

def loadConfig : Option Text → Action m Config
  | none => pure .empty
  | some path => do
      let contents ← onFile (.unreadable ("Config file ".toList ++ path)) (Host.readText path)
      ExceptT.lift (Host.log .info ("Loaded configuration from ".toList ++ path))
      MonadExcept.ofExcept (Config.read path contents)

def runTask (config : Config) : Option Task → Action m Unit
  | some (.render a) => runRender config a
  | some (.check a) => runCheck a
  | some (.benchmark a) => runBenchmark config a
  | none => say "No subcommand specified. Use --help for usage information."

def report : TemplateError → Text
  | .file fault => ("IO Error: " ++ fault.message ++ "\n").toList
  | e => ("Error: " ++ e.message ++ "\n").toList

def runInvocation (i : Invocation) : m Nat := do
  Host.setVerbosity i.verbosity
  let task : Action m Unit := do runTask (← loadConfig i.config) i.task
  match ← task.run with
  | .ok () => return 0
  | .error e => do
      Host.printError (report e)
      return 1

def runHalt : Halt → m Nat
  | .version => do
      Host.print versionLine.toList
      return 0
  | .help => do
      Host.print usage.toList
      return 0
  | .misuse => do
      Host.printError usage.toList
      return 2

def run (arguments : List Text) : m Nat :=
  match Invocation.read arguments with
  | .ok invocation => runInvocation invocation
  | .error halt => runHalt halt

end

end TextTemplate.Command
