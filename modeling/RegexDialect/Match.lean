import RegexDialect.Pattern

/-! Matches of a pattern in a text, one at a time or one after the other. -/
namespace RegexDialect

/-- A match: the text, the span matched, the spans of groups 1 and on, and the names of the
groups. -/
structure Match where
  text : Text
  span : Span
  groups : List (Option Span)
  names : List (Option Text)
deriving DecidableEq, Repr

namespace Match

def start (m : Match) : Nat := m.span.start

def stop (m : Match) : Nat := m.span.stop

def isEmpty (m : Match) : Bool := m.span.isEmpty

def matched (m : Match) : Text := Text.slice m.text m.span

def before (m : Match) : Text := Text.upTo m.text m.start

def after (m : Match) : Text := Text.dropTo m.text m.stop

/-- Number of groups, the whole match among them. -/
def size (m : Match) : Nat := m.groups.length + 1

/-- Span of a group; group 0 is the whole match. -/
def range? (m : Match) : Nat → Option Span
  | 0 => some m.span
  | n + 1 => (m.groups[n]?).join

def group (m : Match) (n : Nat) : Option Text := (m.range? n).map (Text.slice m.text)

def groupIndex (m : Match) (name : Text) : Option Nat :=
  (m.names.findIdx? (· == some name)).map (· + 1)

/-- Text of the last group with a name. -/
def namedGroup (m : Match) (name : Text) : Option Text :=
  match m.names.reverse.findIdx? (· == some name) with
  | some k => m.group (m.names.length - k)
  | none => none

def namedGroups (m : Match) : List (Text × Option Text) :=
  m.names.zipIdx.filterMap fun e => e.1.map fun name => (name, m.group (e.2 + 1))

end Match

namespace Pattern

/-- The match that a search result stands for, if it may start where it does. -/
def matchOf? (p : Pattern) (text : Text) (position : Nat) (sticky : Bool)
    (groups : Baseline.Groups) :
    Option Match :=
  match groups with
  | some span :: rest =>
    if (sticky || p.isSticky) && span.start != position then none
    else some ⟨text, span, rest, p.names⟩
  | _ => none

/-- The first match at or after a byte offset. With `sticky`, or under the flag `y`, a match that
starts later does not count. Past the end of the text there is none. -/
def execAt (p : Pattern) (text : Text) (position : Nat) (sticky : Bool) :
    Except Error (Option Match) :=
  if Text.bytes text < position then .ok none
  else if !Text.isBoundary text position then .error (.invalidPosition position)
  else (p.search text position).map fun found => found.bind (p.matchOf? text position sticky)

def exec (p : Pattern) (text : Text) : Except Error (Option Match) := p.execAt text 0 false

def isMatch (p : Pattern) (text : Text) : Except Error Bool := (p.exec text).map Option.isSome

end Pattern

/-- An iteration over matches: the place of the next search, or nothing when it has ended. -/
structure Matches where
  pattern : Pattern
  text : Text
  cursor : Option Nat

namespace Matches

def start (p : Pattern) (text : Text) : Matches := ⟨p, text, some 0⟩

/-- Where to search after a match: at its end, or one character further when it is empty. -/
def advance (m : Match) : Nat := if m.isEmpty then Text.stepFrom m.text m.stop else m.stop

def next (it : Matches) : Option (Except Error Match) × Matches :=
  match it.cursor with
  | none => (none, it)
  | some position =>
    match it.pattern.execAt it.text position false with
    | .ok (some m) => (some (.ok m), { it with cursor := some (advance m) })
    | .ok none => (none, { it with cursor := none })
    | .error e => (some (.error e), { it with cursor := none })

def take : (fuel : Nat) → Matches → List (Except Error Match)
  | 0, _ => []
  | fuel + 1, it =>
    match it.next with
    | (some r, it) => r :: take fuel it
    | (none, _) => []

end Matches

namespace Pattern

/-- All matches from left to right, perhaps with an error at the end. There is at most one for every
character and one at the end of the text. -/
def results (p : Pattern) (text : Text) : List (Except Error Match) :=
  (Matches.start p text).take (text.length + 2)

end Pattern

/-- The values before the first error, and that error. -/
def untilError {α : Type} : List (Except Error α) → List α × Option Error
  | [] => ([], none)
  | .error e :: _ => ([], some e)
  | .ok a :: r =>
    match untilError r with
    | (l, e) => (a :: l, e)

namespace Pattern

def visits (p : Pattern) (text : Text) : List (Match × Nat) × Option Error :=
  match untilError (p.results text) with
  | (l, e) => (l.zipIdx, e)

end Pattern
end RegexDialect
