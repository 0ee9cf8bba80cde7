import CredentialEngine.CommandLine.Invocation
import CredentialEngine.Dict

/-!
# Reading arguments

General options come first, then the command with what belongs to it. An option takes its value
after an equals sign or from the next argument, may be given once, and takes precedence over its
environment variable, which takes precedence over the default. After two dashes nothing is an option
any more. A request for help is answered as soon as everything before it is in order.
-/
namespace CredentialEngine.CommandLine

inductive Halted where
  | refused
  /-- Help was asked for. -/
  | help
  deriving DecidableEq, Repr

inductive Form where
  /-- Two dashes and nothing else. -/
  | terminator
  /-- Two dashes, a name, and a value if there is an equals sign. -/
  | long (name : String) (value : Option String)
  /-- One dash and at least one letter. -/
  | short (letters : List Char)
  | word (text : String)
  deriving DecidableEq, Repr

def Form.ofText (s : String) : Form :=
  match s.toList with
  | ['-', '-'] => .terminator
  | '-' :: '-' :: cs =>
    let name := cs.takeWhile (· ≠ '=')
    match cs.dropWhile (· ≠ '=') with
    | _ :: value => .long (String.ofList name) (some (String.ofList value))
    | [] => .long (String.ofList name) none
  | '-' :: c :: cs => .short (c :: cs)
  | _ => .word s

/-- The options that have been given, and one that may not have been settled yet. -/
structure Given where
  values : List (Setting × String) := []
  /-- An option and, once it has come, its value. -/
  pending : Option (Setting × Option String) := none
  deriving DecidableEq, Repr

namespace Given

/-- Takes a value for a setting, which must be acceptable and the first one. -/
def add (g : Given) (s : Setting) (value : String) : Except Halted Given :=
  if (g.values.any fun v => v.1 == s) || !s.kind.accepts value then .error .refused
  else .ok { g with values := (s, value) :: g.values }

/-- Settles the pending option, which must have its value by now. -/
def settle (g : Given) : Except Halted Given :=
  match g.pending with
  | none => .ok g
  | some (_, none) => .error .refused
  | some (s, some value) => { g with pending := none }.add s value

/-- The pending option still wants its value. -/
def isWaiting (g : Given) : Bool :=
  match g.pending with
  | some (_, none) => true
  | _ => false

def fill (g : Given) (value : String) : Given :=
  { g with pending := g.pending.map fun p => (p.1, some value) }

/-- Takes an option in its long form, out of those known here. -/
def long (known : List Setting) (g : Given) (name : String) (value : Option String) :
    Except Halted Given :=
  if name = "help" then
    match value with
    | some _ => .error .refused
    | none => do
      let _ ← g.settle
      .error .help
  else
    match known.find? fun s => s.optionName == name with
    | none => .error .refused
    | some s =>
      match s.kind, value with
      | .switch, some _ => .error .refused
      | .switch, none => do (← g.settle).add s "true"
      | _, some v => do (← g.settle).add s v
      | _, none => do return { (← g.settle) with pending := some (s, none) }

/-- The only option in short form asks for help. -/
def short (g : Given) (letters : List Char) : Except Halted Given :=
  match letters with
  | 'h' :: _ => do
    let _ ← g.settle
    .error .help
  | _ => .error .refused

/-- The value of a setting: from an option, from the environment or by default. -/
def value (environment : Dict String) (g : Given) (s : Setting) : Except Halted String :=
  match g.values.lookup s with
  | some v => .ok v
  | none =>
    match environment.get? s.variableName with
    | some v => if s.kind.accepts v then .ok v else .error .refused
    | none => .ok s.default

end Given

/-- The arguments of the command that reconciles: options only. -/
def reconcileArguments (environment : Dict String) (g : Given) :
    List String → Except Halted Command
  | [] => do return .reconcile (← (← g.settle).value environment .manifests)
  | a :: as =>
    match Form.ofText a with
    | .word v =>
      if g.isWaiting then reconcileArguments environment (g.fill v) as else .error .refused
    | .long name v => do reconcileArguments environment (← g.long [.manifests] name v) as
    | .short letters => do reconcileArguments environment (← g.short letters) as
    | .terminator =>
      if as.isEmpty then do return .reconcile (← (← g.settle).value environment .manifests)
      else .error .refused

/-- The arguments of the command that looks up: the id and nothing else. After two dashes, which
`literal` tells of, the id may have any form. -/
def lookupArguments (literal : Bool) (id : Option String) : List String → Except Halted Command
  | [] =>
    match id with
    | some v => .ok (.lookup v)
    | none => .error .refused
  | a :: as =>
    let positional (v : String) : Except Halted Command :=
      if id.isSome then .error .refused else lookupArguments literal (some v) as
    if literal then positional a
    else
      match Form.ofText a with
      | .word v => positional v
      | .terminator => lookupArguments true id as
      | .long name v =>
        match Given.long [] {} name v with
        | .ok _ => lookupArguments literal id as
        | .error h => .error h
      | .short letters =>
        match Given.short {} letters with
        | .ok _ => lookupArguments literal id as
        | .error h => .error h

/-- Help may be asked for about a command, or about help itself. -/
def helpArguments : List String → Halted
  | [] => .help
  | [topic] => if ["reconcile", "lookup", "help"].contains topic then .help else .refused
  | _ => .refused

def commandAndOptions (environment : Dict String) (g : Given) :
    List String → Except Halted (Command × Given)
  | [] => .error .refused
  | a :: as =>
    if g.isWaiting then
      match Form.ofText a with
      | .word v => commandAndOptions environment (g.fill v) as
      | _ => .error .refused
    else if a = "reconcile" then do return (← reconcileArguments environment {} as, g)
    else if a = "lookup" then do return (← lookupArguments false none as, g)
    else if a = "help" then .error (helpArguments as)
    else
      match Form.ofText a with
      | .long name v => do commandAndOptions environment (← g.long Setting.general name v) as
      | .short letters => do commandAndOptions environment (← g.short letters) as
      | _ => .error .refused

/-- The invocation that arguments and environment variables give. -/
def Invocation.ofArguments (arguments : List String) (environment : Dict String) :
    Except Halted Invocation := do
  let (command, given) ← commandAndOptions environment {} arguments
  let given ← given.settle
  let text := given.value environment
  let count (s : Setting) : Except Halted Nat := do
    match count? (← text s) with
    | some n => return n
    | none => .error .refused
  return {
    command
    link := {
      url := ← text .url
      requestTimeoutMs := ← count .requestTimeout
      reconnectAttempts := ← count .reconnectAttempts
      reconnectBackoffMs := ← count .reconnectBackoff }
    space := ← text .space
    secretsDirectory := ← text .secrets
    operationTimeoutSecs := ← count .operationTimeout
    logLevel := ← text .logLevel
    logJson := (← text .logJson) == "true" }

end CredentialEngine.CommandLine
