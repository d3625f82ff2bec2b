import RegexDialect.Baseline.Interface

/-! Errors of the dialect: malformed syntax, misuse, and faults of the baseline engine. -/
namespace RegexDialect

inductive Error
  /-- A named group whose name consists of digits. -/
  | integerCaptureName (name : Text)
  /-- A flag that is not an ASCII letter. -/
  | invalidFlag (flag : Char)
  /-- A token that its handler does not accept, with its byte offset. -/
  | invalidToken (token : Text) (position : Nat)
  /-- A pattern compiled while a handler or predicate runs. -/
  | reentrantCompile
  /-- Flags given along with a pattern that is compiled already. -/
  | flagsOnCompiledPattern
  /-- A search position inside a character. -/
  | invalidPosition (position : Nat)
  /-- A fault of the baseline engine, with the text it was given. -/
  | engine (pattern : Text) (fault : Baseline.Fault)
deriving DecidableEq, Repr

namespace Error

def message : Error → Text
  | integerCaptureName name =>
    "syntax error: cannot use an integer as capture name: \x27".toList ++ name ++ ['\x27']
  | invalidFlag flag => "syntax error: invalid flag \x27".toList ++ [flag, '\x27']
  | invalidToken token position =>
    "syntax error: invalid token \x60".toList ++ token ++ "\x60 at position ".toList ++
      Text.ofNat position
  | reentrantCompile => "usage error: cannot compile a pattern from within a token handler".toList
  | flagsOnCompiledPattern =>
    "usage error: cannot supply flags when building one pattern from another".toList
  | invalidPosition position =>
    "usage error: position ".toList ++ Text.ofNat position ++ " is not a char boundary".toList
  | engine pattern fault =>
    "engine error in \x60".toList ++ pattern ++ "\x60: ".toList ++ fault.describe.toList

end Error
end RegexDialect
