/-!
# Command-line arguments

Arguments are taken from left to right, and the first thing that is wrong or asks for information
ends the reading. Options may stand before and after the files they go with; a lone `--` ends them.
-/

namespace Weaver.CommandLine

/-- What to do. -/
inductive Command where
  /-- Weave an artifact in place. -/
  | weave (file : String) (name : Option String) (editor : Bool) (references : List String)
      (errors : Nat)
  /-- Make an artifact from a module description. -/
  | assemble (file output : String)
  /-- Show what is in an artifact. -/
  | inspect (file : String) (json : Bool)
  /-- Load artifacts into a host and report what they register. -/
  | load (files : List String) (editor fallback : Bool) (entry : Option String)

/-- A command with the settings file to use, if it is not the one found next to the artifact. -/
structure Invocation where
  settings : Option String
  command : Command

/-- What arguments that are no invocation ask for. -/
inductive Refusal where
  | version
  | help
  /-- The arguments make no sense. -/
  | usage
deriving DecidableEq

/-! ## Options -/

/-- What an option's value has to be. -/
inductive ValueKind where
  /-- Any text. -/
  | text
  /-- A text that is not empty. -/
  | path
  /-- A number of at most sixty-four bits. -/
  | number
deriving DecidableEq

/-- An option by its long name, its letter if it has one, and its value if it takes one. -/
structure OptionSpec where
  long : String
  short : Option Char := none
  value : Option ValueKind := none
  /-- It may be given more than once. -/
  repeatable : Bool := false

/-- What has been read: flags, options with their values, and positional arguments, in order. -/
structure Readings where
  flags : List String := []
  values : List (String × String) := []
  positionals : List String := []

namespace Readings

/-- The values of an option in order. -/
def valuesOf (r : Readings) (option : String) : List String :=
  (r.values.filter (·.1 == option)).map (·.2)

/-- The value of an option that is given at most once. -/
def value? (r : Readings) (option : String) : Option String :=
  (r.valuesOf option).head?

end Readings

/-- The option that sets the settings file, anywhere on the line. -/
def settingsOption : OptionSpec := { long := "config", value := some .path }

/-- A number of digits, with a plus sign or without, that fits into sixty-four bits. -/
def number? (text : String) : Option Nat :=
  let digits := match text.toList with
    | '+' :: rest => rest
    | chars => chars
  if digits.isEmpty || !digits.all Char.isDigit then none
  else
    let n := digits.foldl (fun n c => 10 * n + (c.toNat - '0'.toNat)) 0
    if n < UInt64.size then some n else none

/-- Whether a value is what an option wants. -/
def ValueKind.accepts : ValueKind → String → Bool
  | text, _ => true
  | path, value => !value.isEmpty
  | number, value => (number? value).isSome

/-- Adds the value of an option. -/
def addValue (r : Readings) (spec : OptionSpec) (kind : ValueKind) (value : String) :
    Except Refusal Readings :=
  if !spec.repeatable && r.values.any (·.1 == spec.long) then .error .usage
  else if kind.accepts value then .ok { r with values := r.values ++ [(spec.long, value)] }
  else .error .usage

/-- Adds a flag. -/
def addFlag (r : Readings) (spec : OptionSpec) : Except Refusal Readings :=
  if r.flags.contains spec.long then .error .usage
  else .ok { r with flags := r.flags ++ [spec.long] }

/-- Adds a positional argument, of which there may be so many. None is empty. -/
def addPositional (r : Readings) (limit : Option Nat) (value : String) : Except Refusal Readings :=
  if value.isEmpty || limit.any fun n => n ≤ r.positionals.length then .error .usage
  else .ok { r with positionals := r.positionals ++ [value] }

/-! ## One argument -/

/-- The shapes that an argument can have. -/
inductive Shape where
  /-- A lone pair of dashes. -/
  | separator
  /-- A long option and the value behind its equals sign. -/
  | long (name : String) (value : Option String)
  /-- A letter and the value right behind it, with an equals sign between them or without. -/
  | short (letter : Char) (value : Option String)
  | positional

/-- The shape of an argument. A lone dash is a positional argument. -/
def shapeOf (arg : String) : Shape :=
  match arg.toList with
  | ['-', '-'] => .separator
  | '-' :: '-' :: rest =>
    let (name, value) := rest.span (· != '=')
    .long (String.ofList name) (match value with
      | _ :: value => some (String.ofList value)
      | [] => none)
  | '-' :: letter :: rest =>
    .short letter (match rest with
      | [] => none
      | '=' :: value => some (String.ofList value)
      | value => some (String.ofList value))
  | _ => .positional

/-- Whether an argument can be the value of the option before it. -/
def isValue (arg : String) : Bool :=
  match shapeOf arg with
  | .positional => true
  | _ => false

/-- Reads an option, with its value in the same argument if there is one. The result holds the
arguments that are left. -/
def readOption (r : Readings) (spec : OptionSpec) (attached : Option String) (rest : List String) :
    Except Refusal (Readings × List String) :=
  match spec.value, attached, rest with
  | none, none, rest => (addFlag r spec).map (·, rest)
  | none, some _, _ => .error .usage
  | some kind, some value, rest => (addValue r spec kind value).map (·, rest)
  | some kind, none, value :: rest =>
    if isValue value then (addValue r spec kind value).map (·, rest) else .error .usage
  | some _, none, [] => .error .usage

/-- An option by its long name. -/
def longOption? (specs : List OptionSpec) (name : String) : Option OptionSpec :=
  specs.find? (·.long == name)

/-- An option by its letter. -/
def shortOption? (specs : List OptionSpec) (letter : Char) : Option OptionSpec :=
  specs.find? (·.short == some letter)

/-- Reads one option, whatever its shape. -/
def readShape (specs : List OptionSpec) (r : Readings) (shape : Shape) (rest : List String) :
    Except Refusal (Readings × List String) :=
  match shape with
  | .long "help" none => .error .help
  | .short 'h' _ => .error .help
  | .long name value =>
    match longOption? specs name with
    | some spec => readOption r spec value rest
    | none => .error .usage
  | .short letter value =>
    match shortOption? specs letter with
    | some spec => readOption r spec value rest
    | none => .error .usage
  | _ => .error .usage

/-! ## Subcommands -/

/-- Reads the arguments of a subcommand. The fuel bounds their number. -/
def readArguments (specs : List OptionSpec) (limit : Option Nat) :
    (fuel : Nat) → Readings → List String → Except Refusal Readings
  | _, r, [] => .ok r
  | 0, _, _ => .error .usage
  | fuel + 1, r, arg :: rest =>
    match shapeOf arg with
    | .separator => rest.foldlM (fun r value => addPositional r limit value) r
    | .positional => do readArguments specs limit fuel (← addPositional r limit arg) rest
    | shape => do
      let (r, rest) ← readShape specs r shape rest
      readArguments specs limit fuel r rest

/-- The options of `weave`. -/
def weaveOptions : List OptionSpec :=
  [settingsOption, { long := "name", value := some .text }, { long := "editor" },
   { long := "reference", value := some .text, repeatable := true },
   { long := "errors", value := some .number }]

/-- The options of `assemble`. -/
def assembleOptions : List OptionSpec :=
  [settingsOption, { long := "output", short := some 'o', value := some .path }]

/-- The options of `inspect`. -/
def inspectOptions : List OptionSpec :=
  [settingsOption, { long := "json" }]

/-- The options of `load`. -/
def loadOptions : List OptionSpec :=
  [settingsOption, { long := "editor" }, { long := "fallback" },
   { long := "run", value := some .text }]

/-- Reads a subcommand and its arguments. -/
def readCommand (name : String) (args : List String) : Except Refusal (Readings × Command) :=
  let read (specs : List OptionSpec) (limit : Option Nat) : Except Refusal Readings :=
    readArguments specs limit args.length {} args
  match name with
  | "weave" => do
    let r ← read weaveOptions (some 1)
    let some file := r.positionals.head? | throw .usage
    return (r, .weave file (r.value? "name") (r.flags.contains "editor") (r.valuesOf "reference")
      (((r.value? "errors").bind number?).getD 0))
  | "assemble" => do
    let r ← read assembleOptions (some 1)
    let some file := r.positionals.head? | throw .usage
    let some output := r.value? "output" | throw .usage
    return (r, .assemble file output)
  | "inspect" => do
    let r ← read inspectOptions (some 1)
    let some file := r.positionals.head? | throw .usage
    return (r, .inspect file (r.flags.contains "json"))
  | "load" => do
    let r ← read loadOptions none
    if r.positionals.isEmpty then throw .usage
    return (r, .load r.positionals (r.flags.contains "editor") (r.flags.contains "fallback")
      (r.value? "run"))
  | "help" =>
    match args with
    | [] => .error .help
    | [topic] =>
      if ["weave", "assemble", "inspect", "load", "help"].contains topic then .error .help
      else .error .usage
    | _ => .error .usage
  | _ => .error .usage

/-- Reads the options before the subcommand, then the subcommand. A settings file that is given to
the subcommand comes before one given in front of it. The fuel bounds the number of arguments. -/
def readLine : (fuel : Nat) → Readings → List String → Except Refusal Invocation
  | 0, _, _ => .error .usage
  | _, _, [] => .error .usage
  | fuel + 1, r, arg :: rest =>
    match shapeOf arg with
    | .long "version" none => .error .version
    | .short 'V' _ => .error .version
    | .separator => .error .usage
    | .positional => do
      let (inner, command) ← readCommand arg rest
      return { settings := (inner.value? "config").or (r.value? "config"), command }
    | shape => do
      let (r, rest) ← readShape [settingsOption] r shape rest
      readLine fuel r rest

/-- Reads a whole command line. -/
def parse (args : List String) : Except Refusal Invocation :=
  readLine args.length {} args

end Weaver.CommandLine
