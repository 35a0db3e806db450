/-!
The words of a command line: options, which begin with a dash, and the texts between them. Main
function: the words of a list of arguments, given the options that may occur.
-/
namespace WorkloadMap.CommandLine

structure OptionForm where
  name : String
  short : Option Char := none
  takesValue : Bool := true

inductive Word where
  | option (name value : String)
  | text (s : String)
deriving DecidableEq, Repr

/-- A dash alone is a text. -/
def isOption (arg : String) : Bool :=
  match arg.toList with
  | ['-'] => false
  | '-' :: _ => true
  | _ => false

/-- An option that an argument names, with the value in the argument itself if there is one. -/
def named? (forms : List OptionForm) (arg : String) : Option (OptionForm × Option String) :=
  match arg.toList with
  | '-' :: '-' :: body =>
    let name := body.takeWhile (· != '=')
    let value := match body.drop name.length with
      | _ :: value => some (String.ofList value)
      | [] => none
    (forms.find? (·.name.toList == name)).map (·, value)
  | '-' :: c :: body =>
    let value := match body with
      | [] => none
      | '=' :: value => some (String.ofList value)
      | value => some (String.ofList value)
    (forms.find? (·.short == some c)).map (·, value)
  | _ => none

/-- An option of an argument: complete, or still without the value it takes. A switch takes none. -/
inductive Reading where
  | complete (w : Word)
  | needsValue (name : String)

def reading? (forms : List OptionForm) (arg : String) : Option Reading := do
  let (form, value) ← named? forms arg
  match form.takesValue, value with
  | true, some v => some (.complete (.option form.name v))
  | true, none => some (.needsValue form.name)
  | false, none => some (.complete (.option form.name ""))
  | false, some _ => none

/-- The words of all arguments. After two dashes alone nothing is an option. -/
def words (forms : List OptionForm) : List String → Option (List Word)
  | [] => some []
  | arg :: args =>
    if arg = "--" then some (args.map .text)
    else if !isOption arg then (words forms args).map (.text arg :: ·)
    else match reading? forms arg with
      | none => none
      | some (.complete w) => (words forms args).map (w :: ·)
      | some (.needsValue name) =>
        match args with
        | [] => none
        | value :: args =>
          if isOption value then none else (words forms args).map (.option name value :: ·)

/-- The options before the first text, that text, and the arguments after it. -/
def leading (forms : List OptionForm) : List String → Option (List Word × String × List String)
  | [] => none
  | arg :: args =>
    if arg = "--" then none
    else if !isOption arg then some ([], arg, args)
    else match reading? forms arg with
      | none => none
      | some (.complete w) => (leading forms args).map fun (ws, rest) => (w :: ws, rest)
      | some (.needsValue name) =>
        match args with
        | [] => none
        | value :: args =>
          if isOption value then none
          else (leading forms args).map fun (ws, rest) => (.option name value :: ws, rest)

def texts (ws : List Word) : List String :=
  ws.filterMap fun
    | .text s => some s
    | .option .. => none

/-- The values of an option, one for each time it was given. -/
def values (ws : List Word) (name : String) : List String :=
  ws.filterMap fun
    | .option n value => if n = name then some value else none
    | .text _ => none

/-- The value of an option that may be given once, read if it was. -/
def once? (ws : List Word) (name : String) (read : String → Option α) : Option (Option α) :=
  match values ws name with
  | [] => some none
  | [value] => (read value).map some
  | _ => none

/-- Whether a switch that may be given once was. -/
def switch? (ws : List Word) (name : String) : Option Bool :=
  match values ws name with
  | [] => some false
  | [_] => some true
  | _ => none

end WorkloadMap.CommandLine
