import PinKeeper.Command.HostName
import PinKeeper.Policy.Store

/-!
# Command/Arguments — what the command line asks for

The words of the command line are read from left to right.  A word that names a command opens its
`Scope`, and what follows belongs to it; options that hold for every command may stand in any scope,
and the innermost one counts.  An option that takes a value takes it from the same word or from the
next one; the next word is the value unless it looks like an option.  After `--` every word is an
operand.

Reading stops at the first thing that is wrong, and also at a request for help or the version
(`Stop`).  A value is looked at when the word after it is read, and a scope is complete when its
commands are.
-/

namespace PinKeeper.Command

/-! ## What can be asked for -/

/-- View of the policy file. -/
inductive PolicyView where
  | contents
  | location
  | problems
deriving DecidableEq, Repr

/-- Command on the cluster. -/
inductive Action where
  | add (path profile : String) (recursive : Bool) (manifest : Option String)
  | status (cid : String)
  | peers
  | pins
  | health
  | repair (dryRun : Bool)
  | rebalance (dryRun : Bool)
  | ensurePins (profile : String) (dryRun : Bool)
  | tagPins (profile : String) (dryRun : Bool)
  | get (cid : String) (profile path : Option String)
  | remove (cid : String) (force : Bool)
deriving DecidableEq, Repr

/-- What is to be done. -/
inductive Task where
  | view (policy : PolicyView)
  | act (action : Action)
deriving DecidableEq, Repr

/-- What the command line asks for. -/
structure Invocation where
  policyPath : Option String
  host : Option String
  json : Bool
  debug : Bool
  task : Task
deriving DecidableEq, Repr

/-- Why nothing is done. -/
inductive Stop where
  | usage
  | help
  | version
deriving DecidableEq, Repr

/-! ## Scopes and their options -/

/-- Part of the command line that belongs to one command. -/
inductive Scope where
  | program
  | add | status | peers | ls | health | repair | rebalance | ensurePins | tagPins | get | rm
  | config | configShow | configPath | configValidate
deriving DecidableEq, Repr

/-- Commands that can be named in a scope. -/
def Scope.commands : Scope → List (String × Scope)
  | .program =>
    [("add", .add), ("status", .status), ("peers", .peers), ("ls", .ls), ("health", .health),
      ("repair", .repair), ("rebalance", .rebalance), ("ensure-pins", .ensurePins),
      ("tag-pins", .tagPins), ("get", .get), ("rm", .rm), ("config", .config)]
  | .config => [("show", .configShow), ("path", .configPath), ("validate", .configValidate)]
  | _ => []

/-- What an option does. -/
inductive Effect where
  | value (accepts : String → Bool)
  | mark
  | stop (why : Stop)

/-- Option with its names. -/
structure Choice where
  name : String
  letter : Option Char
  effect : Effect

/-- True for a text that can be a path. -/
def isPath (s : String) : Bool := !s.isEmpty

/-- Options that hold for every command. -/
def globalChoices : List Choice :=
  [⟨"config-file", none, .value isPath⟩, ⟨"host", none, .value fun s => (hostName s).toBool⟩,
    ⟨"json", none, .mark⟩, ⟨"debug", none, .mark⟩, ⟨"help", some 'h', .stop .help⟩]

/-- Options of a scope alone. -/
def Scope.ownChoices : Scope → List Choice
  | .program => [⟨"version", some 'V', .stop .version⟩]
  | .add => [profile, ⟨"no-recursive", none, .mark⟩, ⟨"output-json", none, .value isPath⟩]
  | .repair | .rebalance => [dryRun]
  | .ensurePins | .tagPins => [profile, dryRun]
  | .get => [profile, ⟨"output", some 'o', .value isPath⟩]
  | .rm => [⟨"force", some 'f', .mark⟩]
  | _ => []
where
  profile : Choice := ⟨"profile", some 'p', .value fun _ => true⟩
  dryRun : Choice := ⟨"dry-run", none, .mark⟩

/-- Options of a scope. -/
def Scope.choices (scope : Scope) : List Choice := scope.ownChoices ++ globalChoices

/-- Operands of a scope, each with what it accepts. -/
def Scope.operands : Scope → List (String → Bool)
  | .add => [isPath]
  | .status | .get | .rm => [fun _ => true]
  | _ => []

/-! ## Reading a scope -/

/-- What was read of a scope. -/
structure Reading where
  /-- Options with their values; a mark has the empty value. -/
  options : List (String × String)
  operands : List String
  /-- Option whose value is still to come, or has come and is still to be looked at. -/
  pending : Option (Choice × Option String)

namespace Reading

def empty : Reading := ⟨[], [], none⟩

/-- Value of an option. -/
def option? (r : Reading) (name : String) : Option String := r.options.lookup name

def has (r : Reading) (name : String) : Bool := (r.option? name).isSome

/-- Takes an option, which may stand only once. -/
def take (r : Reading) (c : Choice) (value : String) : Except Stop Reading :=
  if r.has c.name then .error .usage
  else .ok { r with options := r.options ++ [(c.name, value)] }

/-- Takes an option with a value, if that is acceptable. -/
def takeValue (r : Reading) (c : Choice) (value : String) : Except Stop Reading :=
  match c.effect with
  | .value accepts => if accepts value then r.take c value else .error .usage
  | _ => .error .usage

/-- Looks at a value that has come; one that has not come yet is missing. -/
def settle (r : Reading) : Except Stop Reading :=
  match r.pending with
  | none => .ok r
  | some (_, none) => .error .usage
  | some (c, some value) => { r with pending := none }.takeValue c value

/-- Takes an option with the value that stands in the same word, if any. -/
def choose (r : Reading) (c : Choice) (attached : Option String) : Except Stop Reading := do
  match c.effect, attached with
  | .value _, some value => (← r.settle).takeValue c value
  | .value _, none => return { (← r.settle) with pending := some (c, none) }
  | _, some _ => .error .usage
  | .mark, none => (← r.settle).take c ""
  | .stop why, none => do
    let _ ← r.settle
    .error why

/-- Takes an option by its name. -/
def long (scope : Scope) (r : Reading) (name : String) (attached : Option String) :
    Except Stop Reading :=
  match scope.choices.find? fun c => c.name == name with
  | some c => r.choose c attached
  | none => .error .usage

/-- Takes options by their letters; the rest of the word is the value of one that takes a value. -/
def short (scope : Scope) (r : Reading) : List Char → Except Stop Reading
  | [] => .ok r
  | letter :: rest =>
    match scope.choices.find? fun c => c.letter == some letter with
    | none => .error .usage
    | some c =>
      match c.effect, rest with
      | .value _, [] => r.choose c none
      | .value _, '=' :: value => r.choose c (some (String.ofList value))
      | .value _, value => r.choose c (some (String.ofList value))
      | _, rest => do short scope (← r.choose c none) rest

/-- Takes an operand. -/
def operand (scope : Scope) (r : Reading) (word : String) : Except Stop Reading := do
  let r ← r.settle
  match scope.operands[r.operands.length]? with
  | some accepts =>
    if accepts word then .ok { r with operands := r.operands ++ [word] } else .error .usage
  | none => .error .usage

/-- True if the next word is a value unless it looks like an option. -/
def isWaiting (r : Reading) : Bool :=
  match r.pending with
  | some (_, none) => true
  | _ => false

/-- Takes a word that opens no scope. -/
def word (scope : Scope) (r : Reading) (w : String) : Except Stop Reading :=
  match w.toList with
  | '-' :: '-' :: name =>
    let value := name.dropWhile (· != '=')
    r.long scope (String.ofList (name.takeWhile (· != '=')))
      (if value.isEmpty then none else some (String.ofList (value.drop 1)))
  | '-' :: letter :: letters => r.short scope (letter :: letters)
  | _ =>
    match r.pending with
    | some (c, none) => .ok { r with pending := some (c, some w) }
    | _ => r.operand scope w

end Reading

/-! ## Reading the whole command line -/

/-- Word that asks for help about the commands that follow it. -/
def helpWord : String := "help"

/-- Follows command names to the scope that help is asked about. -/
def helpAbout : Scope → List String → Stop
  | _, [] => .help
  | scope, w :: ws =>
    match scope.commands.lookup w with
    | some inner => helpAbout inner ws
    | none => if w = helpWord && ws.isEmpty && !scope.commands.isEmpty then .help else .usage

/-- Completes a scope.  The variable for the policy file stands in where the option is missing, and
has to be acceptable then. -/
def complete (env : Environment) (r : Reading) : Except Stop Reading := do
  let r ← r.settle
  if !r.has "config-file" && env.lookup PolicyFile.locationVariable == some "" then .error .usage
  else .ok r

/-- Reads words in a scope; gives the scopes that were opened, the innermost one last. -/
def readScopes (env : Environment) : (scope : Scope) → (onlyOperands : Bool) → Reading →
    List String → Except Stop (List (Scope × Reading))
  | scope, _, r, [] => do return [(scope, ← complete env r)]
  | scope, true, r, w :: ws => do readScopes env scope true (← r.operand scope w) ws
  | scope, false, r, w :: ws =>
    match if r.isWaiting then none else scope.commands.lookup w with
    | some inner => do
      let opened ← readScopes env inner false .empty ws
      return (scope, ← complete env r) :: opened
    | none =>
      if w = helpWord && !r.isWaiting && !scope.commands.isEmpty then .error (helpAbout scope ws)
      else if w = "--" then readScopes env scope true r ws
      else do readScopes env scope false (← r.word scope w) ws

/-- What the innermost scope asks for, if nothing is missing. -/
def Task.ofReading? (r : Reading) (scope : Scope) : Option Task :=
  let act (a : Action) : Option Task := some (.act a)
  match scope, r.operands, r.option? "profile" with
  | .add, [path], some profile =>
    act (.add path profile (!r.has "no-recursive") (r.option? "output-json"))
  | .status, [cid], _ => act (.status cid)
  | .peers, _, _ => act .peers
  | .ls, _, _ => act .pins
  | .health, _, _ => act .health
  | .repair, _, _ => act (.repair (r.has "dry-run"))
  | .rebalance, _, _ => act (.rebalance (r.has "dry-run"))
  | .ensurePins, _, some profile => act (.ensurePins profile (r.has "dry-run"))
  | .tagPins, _, some profile => act (.tagPins profile (r.has "dry-run"))
  | .get, [cid], profile => act (.get cid profile (r.option? "output"))
  | .rm, [cid], _ => act (.remove cid (r.has "force"))
  | .config, _, _ => some (.view .contents)
  | .configShow, _, _ => some (.view .contents)
  | .configPath, _, _ => some (.view .location)
  | .configValidate, _, _ => some (.view .problems)
  | _, _, _ => none

/-- Reads the command line. -/
def Invocation.read (env : Environment) (args : List String) : Except Stop Invocation := do
  let opened ← readScopes env .program false .empty args
  let inward := opened.reverse
  let innermost (name : String) : Option String := inward.findSome? fun o => o.2.option? name
  match inward.head?.bind fun o => Task.ofReading? o.2 o.1 with
  | some task =>
    .ok { policyPath := innermost "config-file" <|> env.lookup PolicyFile.locationVariable
          host := innermost "host"
          json := (innermost "json").isSome
          debug := (innermost "debug").isSome
          task := task }
  | none => .error .usage

end PinKeeper.Command
