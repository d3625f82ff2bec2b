import RegexDialect.CommandLine.Arguments
import RegexDialect.Replace
import RegexDialect.Split

/-! The command line: what the arguments ask for, and what is written in answer. -/
namespace RegexDialect.CommandLine

inductive Command
  | compile (pattern flags : Text)
  | exec (pattern input flags : Text) (position : Nat) (sticky : Bool)
  | find (pattern input flags : Text)
  | replace (pattern input template flags : Text) (all literal : Bool)
  | split (pattern input flags : Text) (limit : Option Nat)
  | escape (text : Text)
  | help
  | version
deriving DecidableEq, Repr

def flagsOption : Choice := ⟨"flags", some 'f', true⟩

namespace Command

def count? (a : Arguments) (long : String) : Except Stop (Option Nat) :=
  match a.value? long with
  | some t => (readCount t).map some
  | none => .ok none

def flagsOf (a : Arguments) : Text := (a.value? "flags").getD []

def parseCompile (ts : List Text) : Except Stop Command := do
  let a ← (Form.mk 1 [flagsOption]).read ts
  match a.positionals with
  | [pattern] => .ok (compile pattern (flagsOf a))
  | _ => .error .misuse

def parseExec (ts : List Text) : Except Stop Command := do
  let a ← (Form.mk 2 [flagsOption, ⟨"pos", none, true⟩, ⟨"sticky", none, false⟩]).read ts
  let position ← count? a "pos"
  match a.positionals with
  | [pattern, input] => .ok (exec pattern input (flagsOf a) (position.getD 0) (a.isOn "sticky"))
  | _ => .error .misuse

def parseFind (ts : List Text) : Except Stop Command := do
  let a ← (Form.mk 2 [flagsOption]).read ts
  match a.positionals with
  | [pattern, input] => .ok (find pattern input (flagsOf a))
  | _ => .error .misuse

def parseReplace (ts : List Text) : Except Stop Command := do
  let a ← (Form.mk 3 [flagsOption, ⟨"all", some 'a', false⟩, ⟨"literal", some 'l', false⟩]).read ts
  match a.positionals with
  | [pattern, input, template] =>
    .ok (replace pattern input template (flagsOf a) (a.isOn "all") (a.isOn "literal"))
  | _ => .error .misuse

def parseSplit (ts : List Text) : Except Stop Command := do
  let a ← (Form.mk 2 [flagsOption, ⟨"limit", none, true⟩]).read ts
  let limit ← count? a "limit"
  match a.positionals with
  | [pattern, input] => .ok (split pattern input (flagsOf a) limit)
  | _ => .error .misuse

def parseEscape (ts : List Text) : Except Stop Command := do
  let a ← (Form.mk 1 []).read ts
  match a.positionals with
  | [text] => .ok (escape text)
  | _ => .error .misuse

def parsers : List (String × (List Text → Except Stop Command)) := [
  ("compile", parseCompile), ("exec", parseExec), ("find", parseFind), ("replace", parseReplace),
  ("split", parseSplit), ("escape", parseEscape)]

/-- The command that arguments ask for; `none` when they make no sense. -/
def parse : List Text → Option Command
  | [] => none
  | t :: ts =>
    if t == "--help".toList || t.take 2 == ['-', 'h'] then some help
    else if t == "--version".toList || t.take 2 == ['-', 'V'] then some version
    else if t == "help".toList then
      if ts.isEmpty || (ts.length == 1 && parsers.any fun e => some e.1.toList == ts.head?) then
        some help else none
    else
      match parsers.find? fun e => e.1.toList == t with
      | some e =>
        match e.2 ts with
        | .ok c => some c
        | .error .help => some help
        | .error .misuse => none
      | none => none

end Command

inductive Complaint
  | usage
  | error (e : Error)
deriving DecidableEq, Repr

structure Outcome where
  output : Text
  complaint : Option Complaint
deriving DecidableEq, Repr

namespace Outcome

def status (o : Outcome) : Nat :=
  match o.complaint with
  | none => 0
  | some .usage => 2
  | some (.error _) => 1

def errorText (o : Outcome) : Text :=
  match o.complaint with
  | none => []
  | some .usage => "Usage: augrex <compile|exec|find|replace|split|escape> [ARGUMENTS]\n".toList
  | some (.error e) => "Error: ".toList ++ e.message ++ ['\n']

end Outcome

def line (t : Text) : Text := t ++ ['\n']

def lines (l : List Text) : Text := l.flatMap line

def groupLabel (p : Pattern) (n : Nat) : Text :=
  match (p.names[n - 1]?).join with
  | some name => "Group ".toList ++ Text.ofNat n ++ [' ', '('] ++ name ++ [')']
  | none => "Group ".toList ++ Text.ofNat n

def groupLines (p : Pattern) (m : Match) : List Text :=
  (List.range m.groups.length).map fun k =>
    [' ', ' '] ++ groupLabel p (k + 1) ++ [':', ' '] ++ (m.group (k + 1)).getD "<absent>".toList

def describePattern (p : Pattern) : Text :=
  let head := ["Output:".toList, [' ', ' '] ++ p.rewritten, "  Flags:  ".toList ++ p.flags.letters]
  let groups :=
    if p.groupCount == 0 then []
    else [[], "Capture groups:".toList] ++ p.names.zipIdx.map fun e =>
      "  Group ".toList ++ Text.ofNat (e.2 + 1) ++ [':', ' '] ++ e.1.getD ['-']
  lines (head ++ groups)

def describeMatch (p : Pattern) (m : Match) : Text :=
  let head := ["✓ Match found!".toList,
    "  Position: ".toList ++ Text.ofNat m.start ++ ['.', '.'] ++ Text.ofNat m.stop,
    "  Match:    ".toList ++ m.matched]
  let groups := if m.size == 1 then [] else [[], "Capture groups:".toList] ++ groupLines p m
  lines (head ++ groups)

/-- What one of many matches is shown as; names are shown when the pattern has any. -/
def describeFound (p : Pattern) (e : Match × Nat) : Text :=
  let head := [' ', ' '] ++ Text.ofNat (e.2 + 1) ++ ['.', ' '] ++ Text.ofNat e.1.start ++
    ['.', '.'] ++ Text.ofNat e.1.stop ++ [' ', '=', ' '] ++ e.1.matched
  let names :=
    if p.named then
      e.1.namedGroups.map fun g => "       ".toList ++ g.1 ++ [' ', '=', ' '] ++ g.2.getD []
    else []
  lines (head :: names)

def describeAll (p : Pattern) (found : List (Match × Nat)) : Text :=
  if found.isEmpty then line "No matches found".toList
  else
    line ("Found ".toList ++ Text.ofNat found.length ++ " match(es)".toList) ++ line [] ++
      found.flatMap (describeFound p)

def describeItems (items : List Text) : Text :=
  lines (items.zipIdx.map fun e => [' ', ' '] ++ Text.ofNat e.2 ++ [':', ' '] ++ Text.quoted e.1)

def outcome (before : Text) (r : Except Error Text) : Outcome :=
  match r with
  | .ok t => ⟨before ++ t, none⟩
  | .error e => ⟨before, some (.error e)⟩

def run (engine : Baseline.Engine) : Command → Outcome
  | .compile pattern flags =>
    outcome (lines ["Compiling pattern...".toList, "  Input:  ".toList ++ pattern, []])
      ((Pattern.make engine pattern flags).map describePattern)
  | .exec pattern input flags position sticky =>
    outcome
      (lines ["Testing pattern...".toList, "  Pattern: ".toList ++ pattern,
        "  Input:   ".toList ++ input, []])
      do
        let p ← Pattern.make engine pattern flags
        match ← p.execAt input position sticky with
        | some m => .ok (describeMatch p m)
        | none => .ok (line "✗ No match".toList)
  | .find pattern input flags =>
    outcome [] do
      let p ← Pattern.make engine pattern flags
      match p.visits input with
      | (found, none) => .ok (describeAll p found)
      | (_, some e) => .error e
  | .replace pattern input template flags all literal =>
    let all := if all then some true else none
    let r := Replacement.template template
    outcome []
      (if literal then (replaceLiteral engine input pattern r all ()).1.map line
      else do
        let p ← Pattern.make engine pattern flags
        let t ← (RegexDialect.replace input p r all ()).1
        .ok (line t))
  | .split pattern input flags limit =>
    outcome [] do
      let p ← Pattern.make engine pattern flags
      let items ← RegexDialect.split input p limit
      .ok (describeItems items)
  | .escape text => outcome [] (.ok (line (escapeLiteral text)))
  | .version => outcome [] (.ok (line "augrex 0.1.0".toList))
  | .help => outcome [] (.ok (lines [
      "Usage: augrex <COMMAND>".toList, [], "Commands:".toList,
      "  compile <PATTERN> [-f FLAGS]".toList,
      "  exec <PATTERN> <INPUT> [-f FLAGS] [--pos N] [--sticky]".toList,
      "  find <PATTERN> <INPUT> [-f FLAGS]".toList,
      "  replace <PATTERN> <INPUT> <TEMPLATE> [-f FLAGS] [-a] [-l]".toList,
      "  split <PATTERN> <INPUT> [-f FLAGS] [--limit N]".toList,
      "  escape <TEXT>".toList]))

def runArguments (engine : Baseline.Engine) (arguments : List Text) : Outcome :=
  match Command.parse arguments with
  | some c => run engine c
  | none => ⟨[], some .usage⟩

end RegexDialect.CommandLine
