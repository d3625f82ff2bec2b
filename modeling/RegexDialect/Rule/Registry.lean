import RegexDialect.Baseline.Interface
import RegexDialect.Escape
import RegexDialect.Rule.Script

/-! The registry of rules. The rule registered last is asked first, so it shadows older rules for
the same text. -/
namespace RegexDialect

namespace Recognition

/-- The recognition that a match found in `rest` stands for: the token ends where the match ends. -/
def ofGroups? (rest : Text) (groups : Baseline.Groups) : Option Recognition := do
  let whole ← (groups.head?).join
  some ⟨(Text.upTo rest whole.stop).length, groups.map fun g => g.map (Text.slice rest)⟩

end Recognition

namespace Rule

/-- A recognizer as it is searched for: tied to the start of the text. -/
def anchored (recognizer : Text) : Text := ['^', '(', '?', ':'] ++ recognizer ++ [')']

def recognizerOf (m : Baseline.Matcher) : Recognizer := fun rest =>
  (m.search rest 0).map fun found => found.bind (Recognition.ofGroups? rest)

/-- A rule from a recognizer's source; a source that the engine does not accept is an error that
names it. -/
def make (engine : Baseline.Engine) (recognizer : Text) (handler : Token → Script)
    (scope : Scope) (activation : Option Check) : Except Error Rule :=
  match engine.build (anchored recognizer) none with
  | .ok m => .ok (.custom recognizer (recognizerOf m) handler scope activation)
  | .error cause => .error (.engine recognizer (.build cause))

def source : Rule → Text
  | builtin b => b.source.toList
  | custom source _ _ _ _ => source

def scope : Rule → Scope
  | builtin b => b.scope
  | custom _ _ _ scope _ => scope

def isConditional : Rule → Bool
  | builtin b => b.awaits.isSome
  | custom _ _ _ _ activation => activation.isSome

end Rule

/-- Rules, the one registered last first. -/
structure Registry where
  rules : List Rule

namespace Registry

def empty : Registry := ⟨[]⟩

def builtin : Registry := ⟨Builtin.all.reverse.map Rule.builtin⟩

def register (r : Registry) (rule : Rule) : Registry := ⟨rule :: r.rules⟩

def size (r : Registry) : Nat := r.rules.length

def isEmpty (r : Registry) : Bool := r.rules.isEmpty

/-- The rule that fires at a place whose remaining text is `rest`. While rules are asked the turn is
marked as inside a handler; the mark it had before is put back, whatever happens. -/
def lookup (r : Registry) : Lookup := fun pattern position rest scope turn =>
  match Rule.consultAll r.rules pattern position rest scope { turn with inHandler := true } with
  | (answer, after) => (answer, { after with inHandler := turn.inHandler })

/-- The rule that fires at a byte offset of a pattern. -/
def tryAt (r : Registry) (pattern : Text) (position : Nat) (scope : Scope) (turn : Turn) :
    Except Error (Option Hit) × Turn :=
  r.lookup pattern position (Text.dropTo pattern position) scope turn

def compileIn (r : Registry) (pattern : Text) (flags : Flags) (inHandler : Bool) :
    Except Error Compiled × Bool :=
  compileWith r.lookup pattern flags inHandler

def compile (r : Registry) (pattern : Text) (flags : Flags) : Except Error Compiled :=
  (r.compileIn pattern flags false).1

def showScope (s : Scope) : Text :=
  match s.inside, s.outside with
  | true, true => "Scope(INSIDE_CLASS | OUTSIDE_CLASS)".toList
  | true, false => "Scope(INSIDE_CLASS)".toList
  | false, true => "Scope(OUTSIDE_CLASS)".toList
  | false, false => "Scope(0x0)".toList

def showRule (r : Rule) : Text :=
  "TokenRule \x7b recognizer: ".toList ++ Text.quoted r.source ++ ", scope: ".toList ++
    showScope r.scope ++
    ", conditional: ".toList ++ (if r.isConditional then "true" else "false").toList ++
      " \x7d".toList

def display (r : Registry) : Text :=
  "TokenRegistry \x7b rules: [".toList ++
    (", ".toList).intercalate (r.rules.reverse.map showRule) ++ "] \x7d".toList

end Registry
end RegexDialect
