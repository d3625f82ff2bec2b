import RegexDialect.Scan.BaselineToken
import RegexDialect.Token

/-! The scan that rewrites a pattern. It goes once from left to right and cuts the pattern into
segments: at each place the rules are asked first, then a unit of baseline syntax is copied, else a
single character. Only a single bracket character moves the scan into or out of a class. -/
namespace RegexDialect

/-- A piece of the pattern, what is emitted for it, whether a rule took it and the scope it was read
in. -/
structure Segment where
  source : Text
  output : Text
  byRule : Bool
  scope : Scope
deriving DecidableEq, Repr

namespace Segment

def verbatim (source : Text) (scope : Scope) : Segment := ⟨source, source, false, scope⟩

def emitted (l : List Segment) : Text := l.flatMap Segment.output

end Segment

def Scope.after (scope : Scope) (c : Char) : Scope :=
  if c == '[' then .insideClass else if c == ']' then .outsideClass else scope

/-- Scans the rest of a pattern. Every round takes at least one character, so as many rounds as
there are characters are enough. -/
def scanFrom (lookup : Lookup) (pattern : Text) :
    Nat → (position : Nat) → (rest : Text) → Scope → Turn → List Segment →
      Except Error (List Segment) × Turn
  | _, _, [], _, turn, done => (.ok done.reverse, turn)
  | 0, _, _ :: _, _, turn, done => (.ok done.reverse, turn)
  | rounds + 1, position, c :: r, scope, turn, done =>
    match lookup pattern position (c :: r) scope turn with
    | (.error e, turn) => (.error e, turn)
    | (.ok (some hit), turn) =>
      let source := (c :: r).take (max 1 hit.token.length)
      scanFrom lookup pattern rounds (position + Text.bytes source)
        ((c :: r).drop (max 1 hit.token.length)) scope turn
        (⟨source, hit.output, true, scope⟩ :: done)
    | (.ok none, turn) =>
      let n := BaselineToken.length scope (c :: r)
      if n == 0 then
        scanFrom lookup pattern rounds (position + c.utf8Size) r (scope.after c) turn
          (.verbatim [c] scope :: done)
      else
        let source := (c :: r).take n
        scanFrom lookup pattern rounds (position + Text.bytes source) ((c :: r).drop n) scope turn
          (.verbatim source scope :: done)

def scan (lookup : Lookup) (pattern : Text) (turn : Turn) : Except Error (List Segment) × Turn :=
  scanFrom lookup pattern pattern.length 0 pattern .outsideClass turn []

/-- A compiled pattern: its text in baseline syntax, and the flags and names gathered on the way. -/
structure Compiled where
  rewritten : Text
  context : Context
deriving DecidableEq

/-- Compiles a pattern with the rules behind `lookup`. While a handler or predicate runs nothing can
be compiled. -/
def compileWith (lookup : Lookup) (pattern : Text) (flags : Flags) (inHandler : Bool) :
    Except Error Compiled × Bool :=
  if inHandler then (.error .reentrantCompile, inHandler)
  else
    match scan lookup pattern ⟨.start flags, inHandler⟩ with
    | (.ok segments, turn) => (.ok ⟨Segment.emitted segments, turn.context⟩, turn.inHandler)
    | (.error e, turn) => (.error e, turn.inHandler)

end RegexDialect
