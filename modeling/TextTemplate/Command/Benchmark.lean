import TextTemplate.Command.Render

namespace TextTemplate.Command

def count? (t : Text) : Option Nat := Value.index? t

structure Summary where
  least : Nat
  greatest : Nat
  median : Nat
  mean : Nat
  deviation : Nat

def rootBetween (n low high : Nat) : Nat → Nat
  | 0 => low
  | steps + 1 =>
      let middle := (low + high + 1) / 2
      if middle * middle ≤ n then rootBetween n middle high steps else rootBetween n low (middle - 1) steps

def root (n : Nat) : Nat := rootBetween n 0 n (n.log2 + 2)

def total (times : List Nat) : Nat := times.foldl Nat.add 0

def Summary.of? (times : List Nat) : Option Summary :=
  let sorted := times.mergeSort
  match sorted with
  | [] => none
  | least :: _ =>
      let size := sorted.length
      let mean := total sorted / size
      let squares := sorted.map fun time => (time - mean) * (time - mean) + (mean - time) * (mean - time)
      some ⟨least, sorted.getLast?.getD least, (sorted[size / 2]?).getD least, mean, root (total squares / size)⟩

section
variable {m : Type → Type} [Monad m] [Host m]

def microseconds (time : Nat) : String := tenths (time / 100) ++ "µs"

def warmUp (options : Options) (template : Text) (data : Value) (rounds : Nat) : (left failures : Nat) → m Nat
  | 0, failures => pure failures
  | left + 1, failures => do
      Host.print ['.']
      match ← renderLogged options template data with
      | .ok _ => warmUp options template data rounds left failures
      | .error e => do
          if failures = 0 then
            let round := toString (rounds - left)
            Host.log .warning ("Warmup render " ++ round ++ " failed: " ++ e.message).toList
          warmUp options template data rounds left (failures + 1)

def measure (options : Options) (template : Text) (data : Value) : (left : Nat) → m (List Nat)
  | 0 => pure []
  | left + 1 => do
      Host.print ['.']
      let before ← Host.clock
      let rendered ← renderLogged options template data
      let after ← Host.clock
      let times ← measure options template data left
      match rendered with
      | .ok _ => return (after - before) :: times
      | .error _ => return times

def readCount (name : String) (t : Text) : Action m Nat :=
  match count? t with
  | some n => pure n
  | none => throw (.format (.count name.toList))

def runBenchmark (config : Config) (a : BenchmarkArguments) : Action m Unit := do
  let iterations ← readCount "iterations" a.iterations
  let warmup ← readCount "warmup" a.warmup
  let template ← readTemplate a.template
  let data ← loadData (a.data.or config.dataFile)
  let options ← MonadExcept.ofExcept (config.options false a.defines)
  say "🏁 Running render benchmarks"
  say ("   Template: " ++ String.ofList a.template)
  say ("   Warmup iterations: " ++ toString warmup)
  say ("   Benchmark iterations: " ++ toString iterations)
  ExceptT.lift (Host.print "   Warming up".toList)
  let failures ← ExceptT.lift (warmUp options template data warmup warmup 0)
  say (if failures > 0 then " done (" ++ toString failures ++ "/" ++ toString warmup ++ " failed)" else " done")
  ExceptT.lift (Host.print "   Benchmarking".toList)
  let times ← ExceptT.lift (measure options template data iterations)
  say " done"
  match Summary.of? times with
  | none => throw (.format .allRoundsFailed)
  | some summary => do
      say "\n📊 Benchmark Results:"
      say ("   Successful iterations: " ++ toString times.length ++ "/" ++ toString iterations)
      say ("   Min time: " ++ microseconds summary.least)
      say ("   Max time: " ++ microseconds summary.greatest)
      say ("   Median time: " ++ microseconds summary.median)
      say ("   Mean time: " ++ microseconds summary.mean ++ " ± " ++ microseconds summary.deviation)
      if summary.deviation * 10 > summary.mean then
        let share := 1000 * summary.deviation / max summary.mean 1
        say ("   ⚠️  High variance detected (" ++ tenths share ++ "%)")

end

end TextTemplate.Command
