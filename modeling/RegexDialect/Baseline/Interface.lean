import RegexDialect.Text

/-! What the dialect asks of a regular expression engine: to build a matcher from a pattern text,
and to search. Either can go wrong, with a pattern text that the engine does not accept or a search
that gives up. -/
namespace RegexDialect.Baseline

inductive BuildFault
  | unclosedGroup
  | strayText
  | trailingBackslash
  | unknownEscape (letter : Char)
  | badHexEscape
  | badCodePoint
  | badBackreference
  | badGroupName
  | unknownFlag
  | nothingToRepeat
  | nestedTooDeep
  | unclosedClass
  | badClass
  | unknownProperty
  | badRange
  | badRepeatBounds
  | namedAndNumbered
  | emptyCondition
  | unevenLookBehind
  | tooLarge
deriving DecidableEq, Repr

inductive SearchFault
  | backtrackLimit
  | stackLimit
deriving DecidableEq, Repr

inductive Fault
  | build (cause : BuildFault)
  | search (cause : SearchFault)
deriving DecidableEq, Repr

namespace BuildFault

def describe : BuildFault → String
  | unclosedGroup => "opening parenthesis without closing parenthesis"
  | strayText => "closing parenthesis without opening parenthesis"
  | trailingBackslash => "backslash at the end of the pattern"
  | unknownEscape _ => "unknown escape"
  | badHexEscape => "malformed hexadecimal escape"
  | badCodePoint => "escape of a value that is no character"
  | badBackreference => "reference to a group that does not exist"
  | badGroupName => "malformed or unknown group name"
  | unknownFlag => "unknown flag in a group"
  | nothingToRepeat => "quantifier without something to repeat"
  | nestedTooDeep => "groups nested too deeply"
  | unclosedClass => "unclosed character class"
  | badClass => "malformed character class"
  | unknownProperty => "unknown character property"
  | badRange => "character range out of order"
  | badRepeatBounds => "repetition bounds out of order or too large"
  | namedAndNumbered => "numbered reference beside named groups"
  | emptyCondition => "condition without a branch"
  | unevenLookBehind => "look-behind of varying width"
  | tooLarge => "pattern too large"

end BuildFault

namespace SearchFault

def describe : SearchFault → String
  | backtrackLimit => "limit of backtracking steps reached"
  | stackLimit => "limit of pending alternatives reached"

end SearchFault

def Fault.describe : Fault → String
  | build cause => cause.describe
  | search cause => cause.describe

abbrev Groups := List (Option Span)

/-- A compiled pattern text. A search starts at a byte offset and sees the text before it. -/
structure Matcher where
  search : Text → (position : Nat) → Except SearchFault (Option Groups)

/-- An engine builds matchers from pattern texts, perhaps with a limit on backtracking. -/
structure Engine where
  build : Text → (limit : Option Nat) → Except BuildFault Matcher

end RegexDialect.Baseline
