import RegexDialect.Match

/-! Chains of patterns: every stage searches the values that the stage before it found. -/
namespace RegexDialect

inductive GroupKey
  | number (n : Nat)
  | name (name : Text)
deriving DecidableEq, Repr

/-- A pattern, and the group to pass on; the whole match where none is given. -/
structure Stage where
  pattern : Pattern
  group : Option GroupKey

namespace Stage

/-- What a match passes on; an absent group gives an empty value. -/
def extract (s : Stage) (m : Match) : Text :=
  match s.group with
  | none => m.matched
  | some (.number n) => (m.group n).getD []
  | some (.name name) => (m.namedGroup name).getD []

def values (s : Stage) (text : Text) : Except Error (List Text) :=
  match untilError (s.pattern.results text) with
  | (matched, none) => .ok (matched.map s.extract)
  | (_, some e) => .error e

def valuesOfAll (s : Stage) : List Text → Except Error (List Text)
  | [] => .ok []
  | t :: ts => do
    let first ← s.values t
    let rest ← s.valuesOfAll ts
    .ok (first ++ rest)

end Stage

/-- Sends values through stages. It ends with no value as soon as a stage finds nothing. -/
def chainFrom : List Text → List Stage → Except Error (List Text)
  | values, [] => .ok values
  | values, s :: ss => do
    let next ← s.valuesOfAll values
    if next.isEmpty then .ok next else chainFrom next ss

/-- The values that the last stage finds; without stages the text itself. -/
def matchChain (text : Text) (stages : List Stage) : Except Error (List Text) :=
  chainFrom [text] stages

end RegexDialect
