/-!
The arguments of the command line. Arguments are read from left to right, and the first one that
asks for help, asks for the version or makes no sense decides; only then are the arguments checked
as a whole.
-/

namespace PackScope

/-- **A command**: merge override files, show the scope of a pack, or show the flat map. -/
inductive Command where
  | varfile (files : List String) (output : Option String)
  | context (manifest : String) (files : List String)
  | flattenLegacy (file : String)
  | flatten (files : List String)
  deriving DecidableEq, Repr, Inhabited

/-- What the arguments ask for. -/
inductive Request where
  | command (c : Command)
  | help
  | version
  | misuse
  deriving DecidableEq, Repr, Inhabited

namespace Arguments

/-! ### Options -/

/-- The options, each with one meaning wherever it is known. -/
inductive Opt where
  | verbose
  | help
  | version
  | output
  | pack
  | vars
  | legacy
  deriving DecidableEq, Repr

/-- Whether an option takes a value. -/
def Opt.takesValue : Opt → Bool
  | verbose | help | version => false
  | output | pack | vars | legacy => true

/-- Where arguments stand: in front of the name of a command, or behind it. -/
inductive Level where
  | root
  | varfile
  | context
  | flatten
  deriving DecidableEq, Repr

/-- The level behind the name of a command. -/
def Level.ofName? (name : String) : Option Level :=
  if name = "varfile" then some varfile
  else if name = "context" then some context
  else if name = "flatten" then some flatten
  else none

/-- The option of a long name. -/
def Level.long? (level : Level) (name : String) : Option Opt :=
  if name = "verbose" then some .verbose
  else if name = "help" then some .help
  else if name = "version" && level = root then some .version
  else if name = "output" && level = varfile then some .output
  else if name = "pack" && level = context then some .pack
  else if name = "vars" && (level = context || level = flatten) then some .vars
  else if name = "legacy" && level = flatten then some .legacy
  else none

/-- The option of a letter. -/
def Level.short? (level : Level) (letter : Char) : Option Opt :=
  if letter = 'v' then some .verbose
  else if letter = 'h' then some .help
  else if letter = 'V' && level = root then some .version
  else if letter = 'o' && level = varfile then some .output
  else if letter = 'p' && level = context then some .pack
  else none

/-! ### What has been given -/

/-- What the arguments of one level have given so far. -/
structure Given where
  verbose : Bool := false
  output : Option String := none
  pack : Option String := none
  legacy : Option String := none
  vars : List String := []
  files : List String := []
  deriving Repr, Inhabited

/-- Stops reading arguments. -/
abbrev Reading := Except Request

/-- A value that is given for the first time; no value may be empty. -/
def once (earlier : Option String) (value : String) : Reading (Option String) :=
  if earlier.isSome || value.isEmpty then .error .misuse else .ok (some value)

/-- One more of several values; no value may be empty. -/
def more (earlier : List String) (value : String) : Reading (List String) :=
  if value.isEmpty then .error .misuse else .ok (earlier ++ [value])

/-- Takes an option without a value. -/
def Given.flag (g : Given) : Opt → Reading Given
  | .verbose => if g.verbose then .error .misuse else .ok { g with verbose := true }
  | .help => .error .help
  | .version => .error .version
  | _ => .error .misuse

/-- Takes an option with its value. -/
def Given.option (g : Given) (opt : Opt) (value : String) : Reading Given := do
  match opt with
  | .output => return { g with output := ← once g.output value }
  | .pack => return { g with pack := ← once g.pack value }
  | .legacy => return { g with legacy := ← once g.legacy value }
  | .vars => return { g with vars := ← more g.vars value }
  | _ => throw .misuse

/-- Takes an argument that is no option; only one command has a use for it. -/
def Given.positional (g : Given) (level : Level) (value : String) : Reading Given := do
  if level = .varfile then return { g with files := ← more g.files value } else throw .misuse

/-! ### Arguments -/

/-- Whether an argument is read as an option. -/
def isOption (arg : List Char) : Bool := arg.length > 1 && arg.head? = some '-'

/-- Letters behind one dash. The last one may be an option that takes what follows it as its value,
or else the next argument, in which case it is handed back. -/
def readLetters (level : Level) (g : Given) : List Char → Reading (Given × Option Opt)
  | [] => .ok (g, none)
  | letter :: rest =>
    match level.short? letter with
    | none => .error .misuse
    | some opt =>
      if opt.takesValue then
        match rest with
        | [] => .ok (g, some opt)
        | '=' :: value => do return (← g.option opt (.ofList value), none)
        | value => do return (← g.option opt (.ofList value), none)
      else do readLetters level (← g.flag opt) rest

/-- A name behind two dashes, with its value behind an equality sign if it has one. An option whose
value is to follow is handed back. -/
def readName (level : Level) (g : Given) (arg : List Char) : Reading (Given × Option Opt) :=
  let name := arg.takeWhile (· ≠ '=')
  let value := arg.dropWhile (· ≠ '=')
  match level.long? (.ofList name), value with
  | none, _ => .error .misuse
  | some opt, [] => if opt.takesValue then .ok (g, some opt) else do return (← g.flag opt, none)
  | some opt, _ :: value =>
    if opt.takesValue then do return (← g.option opt (.ofList value), none) else .error .misuse

/-- An argument that is an option. -/
def readOption (level : Level) (g : Given) : List Char → Reading (Given × Option Opt)
  | '-' :: '-' :: name => readName level g name
  | '-' :: letters => readLetters level g letters
  | _ => .error .misuse

/-- The arguments behind the name of a command. Behind two dashes alone there are no options. -/
def readLevel (level : Level) (g : Given) : List String → Reading Given
  | [] => .ok g
  | arg :: rest =>
    if arg = "--" then rest.foldlM (fun g value => g.positional level value) g
    else if isOption arg.toList then do
      match ← readOption level g arg.toList, rest with
      | (g, none), rest => readLevel level g rest
      | (_, some _), [] => throw .misuse
      | (g, some opt), value :: rest =>
        if isOption value.toList then throw .misuse
        readLevel level (← g.option opt value) rest
    else do readLevel level (← g.positional level arg) rest

/-! ### Commands -/

/-- The command that a level and its arguments ask for. -/
def command (level : Level) (g : Given) : Reading Command :=
  match level with
  | .root => .error .misuse
  | .varfile => if g.files.isEmpty then .error .misuse else .ok (.varfile g.files g.output)
  | .context =>
    match g.pack with
    | some manifest => .ok (.context manifest g.vars)
    | none => .error .misuse
  | .flatten =>
    match g.legacy with
    | some file => if g.vars.isEmpty then .ok (.flattenLegacy file) else .error .misuse
    | none => .ok (.flatten g.vars)

/-- What is asked for by the names behind the word for help: at most one command. -/
def readHelp : List String → Request
  | [] => .help
  | [name] => if name = "help" || (Level.ofName? name).isSome then .help else .misuse
  | _ => .misuse

/-- The arguments in front of the name of a command, and the command. -/
def readRoot (g : Given) : List String → Reading Command
  | [] => .error .misuse
  | arg :: rest =>
    if arg = "--" then .error .misuse
    else if isOption arg.toList then do
      let (g, _) ← readOption .root g arg.toList
      readRoot g rest
    else if arg = "help" then .error (readHelp rest)
    else
      match Level.ofName? arg with
      | some level => do command level (← readLevel level {} rest)
      | none => .error .misuse

/-- **What arguments ask for.** -/
def read (args : List String) : Request :=
  match readRoot {} args with
  | .ok c => .command c
  | .error request => request

end Arguments

end PackScope
