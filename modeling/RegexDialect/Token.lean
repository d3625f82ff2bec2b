import RegexDialect.Context

/-! Tokens: what a recognizer found in a pattern, and what a rule emits for it. -/
namespace RegexDialect

/-- A recognizer's answer on a text: how many characters the token has, and the texts of its groups,
the whole match first. -/
structure Recognition where
  length : Nat
  groups : List (Option Text)
deriving DecidableEq, Repr

/-- A token in the pattern being compiled: its byte offset, its text and the text after it. -/
structure Token where
  pattern : Text
  start : Nat
  text : Text
  rest : Text
  groups : List (Option Text)
  scope : Scope
deriving DecidableEq, Repr

namespace Token

def ofRecognition (pattern : Text) (start : Nat) (rest : Text) (scope : Scope) (r : Recognition) :
    Token :=
  ⟨pattern, start, rest.take r.length, rest.drop r.length, r.groups, scope⟩

def stop (t : Token) : Nat := t.start + Text.bytes t.text

def group (t : Token) (n : Nat) : Option Text := (t.groups[n]?).join

end Token

/-- What a rule emits, and the token it emits that for. -/
structure Hit where
  output : Text
  token : Text
deriving DecidableEq, Repr

namespace Hit

def consumed (h : Hit) : Nat := Text.bytes h.token

end Hit

/-- The context of a compilation, and whether a handler or predicate is running. -/
structure Turn where
  context : Context
  inHandler : Bool
deriving DecidableEq

/-- The answer to the question which rule fires at a place: its hit, no rule, or an error. Context
changes made before an error stay. -/
abbrev Lookup := (pattern : Text) → (position : Nat) → (rest : Text) → Scope → Turn →
  Except Error (Option Hit) × Turn

end RegexDialect
