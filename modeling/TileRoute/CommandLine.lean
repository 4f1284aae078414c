import TileRoute.Stage.Report
import TileRoute.Stage.Run
import TileRoute.Text.Blank

/-!
# The command line

The arguments of the program ask for help, for the list of the mnemonics or for the run of a
scenario. They are read from left to right; help and the list are given at once, whatever follows.
The number of ticks may also come from the environment, which is looked at before the arguments.
-/

namespace TileRoute.CommandLine

structure RunRequest where
  scenario : String
  ticks : Nat
  interval : Nat
  deriving DecidableEq, Repr

inductive Request where
  | help
  | mnemonics
  | run (r : RunRequest)
  deriving DecidableEq, Repr

inductive UsageError where
  | missingValue (flag : String)
  | badNumber (name value : String)
  | unknownArgument (argument : String)
  | missingScenario
  deriving DecidableEq, Repr

def defaultTicks : Nat := 600

def defaultInterval : Nat := 60

def ticksVariable : String := "ROUTE_SANDBOX_TICKS"

def usage : String :=
  "usage:\n  route_sandbox --scenario <path> [--ticks <n>] [--log-every <n>]\n"
    ++ "  route_sandbox --list-mnemonics\n\n"
    ++ s!"--ticks defaults to {defaultTicks} (or ${ticksVariable}); "
    ++ "--log-every 0 disables periodic snapshots"

def UsageError.message : UsageError → String
  | .missingValue flag => s!"missing value for {flag}"
  | .badNumber name value => s!"invalid {name} value '{value}' (expected u64)"
  | .unknownArgument argument => s!"unknown argument '{argument}'\n\n{usage}"
  | .missingScenario => s!"missing --scenario\n\n{usage}"

def dropPlus : List Char → List Char
  | '+' :: rest => rest
  | rest => rest

/-- A number of 64 bits: digits, after an optional plus. -/
def number? (s : String) : Option Nat :=
  (Decimal.natural? (dropPlus s.toList)).filter fun n => decide (n ≤ 18446744073709551615)

def numberFor (name value : String) : Except UsageError Nat :=
  match number? value with
  | some n => .ok n
  | none => .error (.badNumber name value)

structure Options where
  scenario? : Option String := none
  ticks? : Option Nat := none
  interval : Nat := defaultInterval

def Options.request (o : Options) : Except UsageError Request :=
  match o.scenario? with
  | some scenario => .ok (.run ⟨scenario, o.ticks?.getD defaultTicks, o.interval⟩)
  | none => .error .missingScenario

/-- Reads the arguments, given what has been asked for before them. -/
def readArguments (o : Options) : List String → Except UsageError Request
  | [] => o.request
  | flag :: rest =>
    if flag = "-h" ∨ flag = "--help" then .ok .help
    else if flag = "--list-mnemonics" then .ok .mnemonics
    else if flag = "--scenario" ∨ flag = "--ticks" ∨ flag = "--log-every" then
      match rest with
      | [] => .error (.missingValue flag)
      | value :: rest =>
        if flag = "--scenario" then readArguments { o with scenario? := some value } rest
        else do
          let n ← numberFor flag value
          if flag = "--ticks" then readArguments { o with ticks? := some n } rest
          else readArguments { o with interval := n } rest
    else .error (.unknownArgument flag)

def readTicks : Option String → Except UsageError (Option Nat)
  | none => .ok none
  | some value => some <$> numberFor ticksVariable (Text.trim value)

def Request.ofArguments (ticks? : Option String) (arguments : List String) :
    Except UsageError Request := do
  let ticks? ← readTicks ticks?
  readArguments { ticks? } arguments

structure Outcome where
  code : Nat
  output : String := ""
  errors : String := ""
  deriving DecidableEq, Repr

def runText (r : RunRequest) (text : String) : Except ScenarioError (Stage Float) := do
  let s ← Scenario.accept text
  let built ← (Stage.ofScenario s).mapError .badMap
  .ok (built.value.run r.ticks r.interval).value

/-- The file that has to be read for an answer. -/
def fileFor? : Except UsageError Request → Option String
  | .ok (.run r) => some r.scenario
  | _ => none

def answer (text? : Option String) : Except UsageError Request → Outcome
  | .error e => { code := 2, errors := e.message ++ "\n" }
  | .ok .help => { code := 0, output := usage ++ "\n" }
  | .ok .mnemonics =>
    { code := 0, output := String.join (Lexicon.standard.usage.map fun line => line ++ "\n") }
  | .ok (.run r) =>
    match text?.map (runText r) with
    | some (.ok s) => { code := 0, output := s.report ++ "\n" }
    | _ => { code := 1 }

end TileRoute.CommandLine
