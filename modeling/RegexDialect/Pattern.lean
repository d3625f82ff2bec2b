import RegexDialect.Rule.Registry

/-! Compiled patterns: a source text, what it was rewritten to, the flags and names gathered, and a
matcher. -/
namespace RegexDialect

structure Pattern where
  source : Text
  rewritten : Text
  flags : Flags
  names : List (Option Text)
  named : Bool
  matcher : Baseline.Matcher

namespace Pattern

/-- The text that the engine is given: the flags it understands, then the rewritten pattern. -/
def baselineText (rewritten : Text) (flags : Flags) : Text := flags.baselinePrefix ++ rewritten

/-- A compiled text as a pattern. Faults of the engine are reported with the rewritten text. -/
def ofCompiled (engine : Baseline.Engine) (source : Text) (limit : Option Nat) (c : Compiled) :
    Except Error Pattern :=
  match engine.build (baselineText c.rewritten c.context.flags) limit with
  | .ok m => .ok ⟨source, c.rewritten, c.context.flags, c.context.names, c.context.named, m⟩
  | .error cause => .error (.engine c.rewritten (.build cause))

/-- Builds a pattern with the rules of a registry: flags are read first, then the source is
compiled, then the engine builds a matcher. -/
def build (engine : Baseline.Engine) (registry : Registry) (source flags : Text)
    (limit : Option Nat) :
    Except Error Pattern := do
  let flags ← Flags.parse flags
  let c ← registry.compile source flags
  ofCompiled engine source limit c

def make (engine : Baseline.Engine) (source flags : Text) : Except Error Pattern :=
  build engine .builtin source flags none

def groupCount (p : Pattern) : Nat := p.names.length

def isGlobal (p : Pattern) : Bool := p.flags.has 'g'

def isSticky (p : Pattern) : Bool := p.flags.has 'y'

def withGlobal (p : Pattern) (on : Bool) : Pattern := { p with flags := p.flags.toggle 'g' on }

def withSticky (p : Pattern) (on : Bool) : Pattern := { p with flags := p.flags.toggle 'y' on }

def copy (p : Pattern) (flags : Option Text) : Except Error Pattern :=
  match flags with
  | some _ => .error .flagsOnCompiledPattern
  | none => .ok p

def display (p : Pattern) : Text := ['/'] ++ p.source ++ ['/'] ++ p.flags.letters

def search (p : Pattern) (text : Text) (position : Nat) : Except Error (Option Baseline.Groups) :=
  match p.matcher.search text position with
  | .ok found => .ok found
  | .error cause => .error (.engine p.rewritten (.search cause))

def matchesEmpty (p : Pattern) : Except Error Bool := (p.search [] 0).map Option.isSome

end Pattern
end RegexDialect
