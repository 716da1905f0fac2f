import Reconcile.Attempt.Basic
import Reconcile.Number.Power

/-!
# The command line

Settings come from the command line, else from the environment, else from defaults. A setting
that the command line gives is not looked for in the environment, so what the environment
says about it may be nonsense.

The command line is read from left to right. A value that stands apart from its option is
only looked at when the next option is understood, so an option that does not exist is
reported first.
-/

namespace Reconcile

/-- The settings of the operator. -/
structure Settings where
  namespaces : List String
  stepMaxRetries : Nat
  retryInitialDelay : Nat
  retryMaxDelay : Nat
  failureRetryLimit : Nat
  plainLogs : Bool
deriving DecidableEq, Repr

namespace Settings

/-- The settings when nothing is given. -/
def standard : Settings := ⟨["default"], 5, 200, 30000, standardFailureLimit, false⟩

/-- The policy for retries. -/
def policy (s : Settings) : Retry.Policy Float :=
  { Retry.Policy.standard with
    maxRetries := s.stepMaxRetries
    initial := .ofMillis s.retryInitialDelay
    ceiling := .ofMillis s.retryMaxDelay }

/-- The name under which the operator logs. -/
def serviceName : String := "keel-operator"

/-- Whether logs are written as JSON. -/
def jsonLogs (s : Settings) : Bool := !s.plainLogs

end Settings

namespace CommandLine

/-- Why a command line is not accepted, or what it asks for instead of a start. -/
inductive Refusal
  | help
  | version
  /-- A value is missing, or not one of the possible ones. -/
  | invalidValue
  /-- A value is not a number of the right range. -/
  | valueValidation
  | unknownArgument
  /-- An option that stands once at most is repeated. -/
  | argumentConflict
  /-- A flag has a value. -/
  | tooManyValues
deriving DecidableEq, Repr

/-- The options. -/
inductive Flag
  | namespaces
  | stepMaxRetries
  | retryInitialDelay
  | retryMaxDelay
  | failureRetryLimit
  | plainLogs
deriving DecidableEq, Repr

namespace Flag

/-- All options. -/
def all : List Flag :=
  [namespaces, stepMaxRetries, retryInitialDelay, retryMaxDelay, failureRetryLimit, plainLogs]

/-- The name of an option, without dashes. -/
def name : Flag → String
  | namespaces => "namespaces"
  | stepMaxRetries => "step-max-retries"
  | retryInitialDelay => "retry-initial-delay-ms"
  | retryMaxDelay => "retry-max-delay-ms"
  | failureRetryLimit => "failure-retry-limit"
  | plainLogs => "plain-logs"

/-- The variable that an option is taken from when it is not given. -/
def environmentKey : Flag → String
  | namespaces => "KEEL_DOMAIN_NAMESPACES"
  | stepMaxRetries => "KEEL_STEP_MAX_RETRIES"
  | retryInitialDelay => "KEEL_RETRY_INITIAL_DELAY_MS"
  | retryMaxDelay => "KEEL_RETRY_MAX_DELAY_MS"
  | failureRetryLimit => "KEEL_FAILURE_RETRY_LIMIT"
  | plainLogs => "KEEL_PLAIN_LOGS"

end Flag

/-! ## Values -/

/-- The digits of a number, at least one. -/
def digits? (cs : List Char) : Option Nat :=
  if cs ≠ [] ∧ cs.all Char.isDigit then some (cs.foldl (fun n c => 10 * n + (c.toNat - 48)) 0)
  else none

/-- A number below a bound, with an optional sign. Zero may be negative if `signed` is set. -/
def number? (signed : Bool) (bound : Nat) (text : String) : Option Nat := do
  let n ←
    match text.toList with
    | '+' :: cs => digits? cs
    | '-' :: cs => if signed then (digits? cs).filter (· = 0) else none
    | cs => digits? cs
  if n < bound then some n else none

/-- A number of retries, in 32 bits. -/
def count (text : String) : Except Refusal Nat :=
  match number? true (Number.twoTo 32) text with
  | some n => .ok n
  | none => .error .valueValidation

/-- A number of milliseconds, in 64 bits. -/
def millis (text : String) : Except Refusal Nat :=
  match number? false (Number.twoTo 64) text with
  | some n => .ok n
  | none => .error .valueValidation

/-- The parts of a text between commas. -/
def parts (text : String) : List String :=
  let step (c : Char) (found : List Char × List (List Char)) : List Char × List (List Char) :=
    if c = ',' then ([], found.1 :: found.2) else (c :: found.1, found.2)
  let (first, rest) := text.toList.foldr step ([], [])
  (first :: rest).map String.ofList

/-- Whether logs are plain, as a variable says it. -/
def flagValue (text : String) : Except Refusal Bool :=
  if text = "true" then .ok true
  else if text = "false" then .ok false
  else .error .invalidValue

/-! ## Settings that have been given -/

/-- What has been given so far. -/
structure Given where
  namespaces : Option (List String)
  stepMaxRetries : Option Nat
  retryInitialDelay : Option Nat
  retryMaxDelay : Option Nat
  failureRetryLimit : Option Nat
  plainLogs : Option Bool
deriving DecidableEq, Repr

namespace Given

/-- Nothing has been given. -/
def nothing : Given := ⟨none, none, none, none, none, none⟩

/-- Whether an option has been given. -/
def has (g : Given) : Flag → Bool
  | .namespaces => g.namespaces.isSome
  | .stepMaxRetries => g.stepMaxRetries.isSome
  | .retryInitialDelay => g.retryInitialDelay.isSome
  | .retryMaxDelay => g.retryMaxDelay.isSome
  | .failureRetryLimit => g.failureRetryLimit.isSome
  | .plainLogs => g.plainLogs.isSome

/-- Enters the value of an option. Namespaces add up. -/
def enter (g : Given) (flag : Flag) (text : String) : Except Refusal Given :=
  match flag with
  | .namespaces => .ok { g with namespaces := some (g.namespaces.getD [] ++ parts text) }
  | .stepMaxRetries => do return { g with stepMaxRetries := some (← count text) }
  | .retryInitialDelay => do return { g with retryInitialDelay := some (← millis text) }
  | .retryMaxDelay => do return { g with retryMaxDelay := some (← millis text) }
  | .failureRetryLimit => do return { g with failureRetryLimit := some (← count text) }
  | .plainLogs => do return { g with plainLogs := some (← flagValue text) }

/-- Enters an option of the command line with its value. All but the namespaces stand once at
most, which is noticed before the value is looked at. -/
def enterOnce (g : Given) (flag : Flag) : Option String → Except Refusal Given
  | none => .error .invalidValue
  | some text =>
    if g.has flag && flag ≠ .namespaces then .error .argumentConflict else g.enter flag text

/-- The settings, with defaults for what has not been given. -/
def settings (g : Given) : Settings where
  namespaces := g.namespaces.getD Settings.standard.namespaces
  stepMaxRetries := g.stepMaxRetries.getD Settings.standard.stepMaxRetries
  retryInitialDelay := g.retryInitialDelay.getD Settings.standard.retryInitialDelay
  retryMaxDelay := g.retryMaxDelay.getD Settings.standard.retryMaxDelay
  failureRetryLimit := g.failureRetryLimit.getD Settings.standard.failureRetryLimit
  plainLogs := g.plainLogs.getD Settings.standard.plainLogs

end Given

/-! ## Arguments -/

/-- What an argument is by its form. -/
inductive Argument
  /-- The mark behind which nothing is an option. -/
  | escape
  /-- A name behind two dashes, with the value behind an equality sign. -/
  | long (name : String) (value : Option String)
  /-- A letter behind one dash. -/
  | short (letter : Char)
  /-- Anything else. -/
  | plain (text : String)
deriving DecidableEq, Repr

/-- Splits a text at its first equality sign. -/
def splitValue (cs : List Char) : String × Option String :=
  match cs.dropWhile (· ≠ '=') with
  | [] => (String.ofList cs, none)
  | _ :: value => (String.ofList (cs.takeWhile (· ≠ '=')), some (String.ofList value))

/-- The form of an argument. -/
def Argument.of (text : String) : Argument :=
  match text.toList with
  | ['-', '-'] => .escape
  | '-' :: '-' :: cs =>
    let (name, value) := splitValue cs
    .long name value
  | '-' :: c :: _ => .short c
  | _ => .plain text

/-- The reading of a command line: what has been given, and the option that waits for a value
or has just got one. -/
structure Reading where
  given : Given
  waiting : Option (Flag × Option String)
deriving DecidableEq, Repr

namespace Reading

/-- Enters the option that waits. -/
def settle (r : Reading) : Except Refusal Given :=
  match r.waiting with
  | none => .ok r.given
  | some (flag, value) => r.given.enterOnce flag value

/-- Whether an option has no value yet. -/
def needsValue (r : Reading) : Bool :=
  match r.waiting with
  | some (_, none) => true
  | _ => false

/-- Gives the option that waits its value. -/
def supply (r : Reading) (text : String) : Reading :=
  { r with waiting := r.waiting.map fun w => (w.1, some text) }

/-- Reads an option. -/
def option (r : Reading) (flag : Flag) (value : Option String) : Except Refusal Reading :=
  match flag, value with
  | .plainLogs, some _ => .error .tooManyValues
  | .plainLogs, none => do
    let given ← (← r.settle).enterOnce .plainLogs (some "true")
    return ⟨given, none⟩
  | flag, some text => do
    let given ← (← r.settle).enterOnce flag (some text)
    return ⟨given, none⟩
  | flag, none => do return ⟨← r.settle, some (flag, none)⟩

/-- Reads a request for a text about the program. -/
def request (r : Reading) (refusal : Refusal) : Except Refusal Reading := do
  let _ ← r.settle
  .error refusal

/-- Reads an argument. -/
def argument (r : Reading) (a : Argument) : Except Refusal Reading :=
  match a with
  | .escape => .ok r
  | .long "help" none => r.request .help
  | .long "version" none => r.request .version
  | .long "help" (some _) => .error .tooManyValues
  | .long "version" (some _) => .error .tooManyValues
  | .long name value =>
    match Flag.all.find? fun f => f.name = name with
    | some flag => r.option flag value
    | none => .error .unknownArgument
  | .short 'h' => r.request .help
  | .short 'V' => r.request .version
  | .short _ => .error .unknownArgument
  | .plain text => if r.needsValue then .ok (r.supply text) else .error .unknownArgument

end Reading

/-- Reads arguments. Behind the mark nothing is accepted any more. -/
def read (r : Reading) : List String → Except Refusal Reading
  | [] => .ok r
  | text :: rest =>
    match Argument.of text with
    | .escape => if rest.isEmpty then .ok r else .error .unknownArgument
    | a => do read (← r.argument a) rest

/-- Takes what has not been given from the environment. -/
def complete (lookUp : String → Option String) (g : Given) : List Flag → Except Refusal Given
  | [] => .ok g
  | flag :: rest =>
    match g.has flag, lookUp flag.environmentKey with
    | false, some text => do complete lookUp (← g.enter flag text) rest
    | _, _ => complete lookUp g rest

/-- The settings of a command line in an environment. -/
def parse (arguments : List String) (lookUp : String → Option String) :
    Except Refusal Settings := do
  let given ← (← read ⟨.nothing, none⟩ arguments).settle
  return (← complete lookUp given Flag.all).settings

end CommandLine

end Reconcile
