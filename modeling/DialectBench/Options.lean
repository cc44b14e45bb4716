import DialectBench.Text.Lines

/-!
# Command-line options

Reading the arguments of a command.  A switch has a short or a long name, or both; a long name may
be shortened as long as it stays unique, a value may follow in the next argument, after an equals
sign, or right behind a short name, and short names without a value may be run together.  Asking
for help ends the command, and so does any argument that cannot be understood.
-/

namespace DialectBench.Options

/-- A switch of a command. -/
structure Switch where
  /-- The name under which its value is kept. -/
  key : String
  /-- The spellings, dashes included. -/
  names : List String
  takesValue : Bool
  /-- The values that are accepted, if not all are. -/
  choices : Option (List String)
  isRequired : Bool
  deriving Repr

/-- The switch that asks for help. -/
def help : Switch := ⟨"help", ["-h", "--help"], false, none, false⟩

/-- A switch with a value. -/
def valued (key : String) (names : List String) : Switch := ⟨key, names, true, none, false⟩

/-- Why a command ends before it starts. -/
inductive Stop where
  | help
  | usage
  deriving DecidableEq, Repr

/-- The exit status of a command that ends before it starts. -/
def Stop.status : Stop → Nat
  | .help => 0
  | .usage => 2

/-! ## Sorting arguments -/

/-- A switch as it was given, with the value in the same argument if there is one. -/
structure Given where
  switch : Switch
  /-- Whether a single dash was used. -/
  isShort : Bool
  value : Option String

/-- What an argument is. -/
inductive Piece where
  /-- A value, or a stray word. -/
  | word (s : String)
  | given (g : Given)
  /-- Something else that starts with a dash. -/
  | unknown

/-- The switch with a name. -/
def find? (switches : List Switch) (name : String) : Option Switch :=
  switches.find? (·.names.contains name)

/-- Whether a spelling is a short one. -/
def isShort (name : String) : Bool := !name.startsWith "--"

/-- A text cut at its first equals sign, if it has one. -/
def cutValue (s : String) : String × Option String :=
  let name := s.toList.takeWhile (· ≠ '=')
  match s.toList.dropWhile (· ≠ '=') with
  | [] => (s, none)
  | _ :: value => (String.ofList name, some (String.ofList value))

/-- The switches that an argument may mean by a shortened long name, or by a short name with its
    value behind it. -/
def candidates (switches : List Switch) (arg : String) : List Given :=
  switches.flatMap fun s => s.names.filterMap fun name =>
    if isShort arg then
      if name.toList = arg.toList.take 2 then
        some ⟨s, true, some (String.ofList (arg.toList.drop 2))⟩
      else if arg.toList.isPrefixOf name.toList then some ⟨s, isShort name, none⟩
      else none
    else
      let (start, value) := cutValue arg
      if start.toList.isPrefixOf name.toList then some ⟨s, isShort name, value⟩ else none

/-- Whether a text is a negative number. -/
def isNegative (s : String) : Bool :=
  match s.toList with
  | '-' :: digits =>
    match digits.dropWhile Char.isDigit with
    | [] => !digits.isEmpty
    | '.' :: fraction => !fraction.isEmpty && fraction.all Char.isDigit
    | _ => false
  | _ => false

/-- What an argument is. -/
def sortOne (switches : List Switch) (arg : String) : Except Stop Piece :=
  if !arg.startsWith "-" then .ok (.word arg)
  else
    let (name, value) := cutValue arg
    match find? switches arg, find? switches name with
    | some s, _ => .ok (.given ⟨s, isShort arg, none⟩)
    | none, some s =>
      if value.isSome then .ok (.given ⟨s, isShort name, value⟩) else .ok .unknown
    | none, none =>
      if arg == "-" then .ok (.word arg)
      else
        match candidates switches arg with
        | [g] => .ok (.given g)
        | _ :: _ :: _ => .error .usage
        | [] => .ok (if isNegative arg || arg.toList.contains ' ' then .word arg else .unknown)

/-- What the arguments are.  After two dashes alone nothing is a switch. -/
def sort (switches : List Switch) : List String → Except Stop (List Piece)
  | [] => .ok []
  | "--" :: rest => .ok (.unknown :: rest.map .word)
  | arg :: rest => do
    let p ← sortOne switches arg
    return p :: (← sort switches rest)

/-! ## Reading -/

/-- The values that were given, the latest first. -/
abbrev Values := List (String × String)

/-- Notes that a switch was given. -/
def take (s : Switch) (value : String) (values : Values) : Except Stop Values :=
  if s.key == help.key then .error .help
  else
    match s.choices with
    | none => .ok ((s.key, value) :: values)
    | some cs => if cs.contains value then .ok ((s.key, value) :: values) else .error .usage

/-- The switches that short names run together mean, and the value behind them. -/
def runTogether (switches : List Switch) (s : Switch) : List Char →
    Except Stop (List Switch × Option String)
  | [] => .ok ([s], none)
  | c :: rest =>
    if s.takesValue then .ok ([s], some (String.ofList (c :: rest)))
    else
      match find? switches (String.ofList ['-', c]) with
      | none => .error .usage
      | some t => (runTogether switches t rest).map fun r => (s :: r.1, r.2)

/-- The switches of an argument and the value in it. -/
def Given.spread (switches : List Switch) (g : Given) : Except Stop (List Switch × Option String) :=
  match g.value with
  | none => .ok ([g.switch], none)
  | some v =>
    if g.switch.takesValue then .ok ([g.switch], some v)
    else if g.isShort && !v.isEmpty then runTogether switches g.switch v.toList
    else .error .usage

/-- Notes switches, the last of which has a value. -/
def takeAll (value : String) : List Switch → Values → Except Stop Values
  | [], values => .ok values
  | s :: rest, values => do
    takeAll value rest (← take s (if rest.isEmpty then value else "") values)

/-- Reads sorted arguments.  `stray` says whether something was met that belongs to no switch. -/
def readPieces (switches : List Switch) : List Piece → Bool → Values → Except Stop Values
  | [], stray, values =>
    if stray || switches.any fun s => s.isRequired && (values.lookup s.key).isNone then
      .error .usage
    else .ok values
  | .word _ :: rest, _, values => readPieces switches rest true values
  | .unknown :: rest, _, values => readPieces switches rest true values
  | .given g :: rest, stray, values => do
    let (given, value) ← g.spread switches
    match value, (given.getLast?.map Switch.takesValue).getD false, rest with
    | some v, _, rest => readPieces switches rest stray (← takeAll v given values)
    | none, false, rest => readPieces switches rest stray (← takeAll "" given values)
    | none, true, .word v :: rest => readPieces switches rest stray (← takeAll v given values)
    | none, true, _ => .error .usage

/-- Reads the arguments of a command. -/
def read (switches : List Switch) (args : List String) : Except Stop Values := do
  let all := help :: switches
  readPieces all (← sort all args) false []

end DialectBench.Options
