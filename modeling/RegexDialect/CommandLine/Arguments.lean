import RegexDialect.Text

/-! Reading the arguments of a command line: a command, then positional arguments, options and
switches in any order. -/
namespace RegexDialect.CommandLine

structure Choice where
  long : String
  letter : Option Char
  takesValue : Bool
deriving DecidableEq, Repr

/-- What a command accepts: so many positional arguments, and its options. -/
structure Form where
  positionals : Nat
  options : List Choice

/-- Arguments as read: positional ones in order, and options with their values. -/
structure Arguments where
  positionals : List Text
  options : List (Choice × Text)

namespace Arguments

def none : Arguments := ⟨[], []⟩

def value? (a : Arguments) (long : String) : Option Text :=
  (a.options.find? fun e => e.1.long == long).map Prod.snd

def isOn (a : Arguments) (long : String) : Bool := (a.value? long).isSome

end Arguments

inductive Stop
  | help
  | misuse
deriving DecidableEq, Repr

namespace Form

def addPositional (f : Form) (a : Arguments) (t : Text) : Except Stop Arguments :=
  if a.positionals.length < f.positionals then .ok { a with positionals := a.positionals ++ [t] }
  else .error .misuse

/-- Adds an option; none may be given twice. -/
def addOption (a : Arguments) (o : Choice) (value : Text) : Except Stop Arguments :=
  if a.options.any fun e => e.1 == o then .error .misuse
  else .ok { a with options := a.options ++ [(o, value)] }

def readLong (f : Form) (t : Text) (a : Arguments) : Except Stop (Arguments × Option Choice) := do
  let name := t.takeWhile (· != '=')
  let attached := (t.drop name.length).tail?
  match f.options.find? fun o => o.long.toList == name with
  | none => if name == "help".toList && attached.isNone then .error .help else .error .misuse
  | some o =>
    match o.takesValue, attached with
    | true, some v => .ok (← addOption a o v, none)
    | true, none => .ok (a, some o)
    | false, some _ => .error .misuse
    | false, none => .ok (← addOption a o [], none)

/-- Letters after a single hyphen: switches, of which the last may be an option with the value
attached. -/
def readLetters (f : Form) : Text → Arguments → Except Stop (Arguments × Option Choice)
  | [], a => .ok (a, none)
  | c :: r, a =>
    match f.options.find? fun o => o.letter == some c with
    | none => if c == 'h' then .error .help else .error .misuse
    | some o =>
      if o.takesValue then
        match r with
        | [] => .ok (a, some o)
        | '=' :: v => do .ok (← addOption a o v, none)
        | v => do .ok (← addOption a o v, none)
      else do
        let a ← addOption a o []
        readLetters f r a

/-- Reads arguments. `pending` is an option that waits for its value; after `--` all are
positional. -/
def readAll (f : Form) :
    (pending : Option Choice) → (literal : Bool) → List Text → Arguments → Except Stop Arguments
  | none, _, [], a => if a.positionals.length == f.positionals then .ok a else .error .misuse
  | some _, _, [], _ => .error .misuse
  | pending, true, t :: ts, a => do readAll f pending true ts (← f.addPositional a t)
  | pending, false, t :: ts, a =>
    match pending, t with
    | _, ['-', '-'] => readAll f pending true ts a
    | some _, '-' :: _ :: _ => .error .misuse
    | none, '-' :: '-' :: name => do
      let (a, pending) ← f.readLong name a
      readAll f pending false ts a
    | none, '-' :: c :: letters => do
      let (a, pending) ← f.readLetters (c :: letters) a
      readAll f pending false ts a
    | some o, value => do readAll f none false ts (← addOption a o value)
    | none, value => do readAll f none false ts (← f.addPositional a value)

def read (f : Form) (ts : List Text) : Except Stop Arguments := f.readAll none false ts .none

end Form

/-- A byte offset or count as an argument: decimal digits, perhaps after a plus sign, below 2 to the
64. -/
def readCount (t : Text) : Except Stop Nat :=
  let digits := match t with
    | '+' :: r => r
    | r => r
  match Text.toNat? digits with
  | some n => if n < Nat.pow 2 64 then .ok n else .error .misuse
  | none => .error .misuse

end RegexDialect.CommandLine
