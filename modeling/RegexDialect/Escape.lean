import RegexDialect.Text
import RegexDialect.Unicode.Letters

/-! Texts written so that they stand for themselves: as a pattern that matches nothing else, and in
quotes for display. -/
namespace RegexDialect

/-- Characters that carry meaning in pattern texts. -/
def metaCharacters : Text :=
  ['-', '[', ']', '{', '}', '(', ')', '*', '+', '?', '.', ',', '\\', '^', '$', '|', '#']

def isMeta (c : Char) : Bool := metaCharacters.contains c

/-- One character as a pattern. A blank is written by its number, so free spacing cannot drop it. -/
def escapeChar (c : Char) : Text :=
  if isMeta c then ['\\', c]
  else if Unicode.isBlank c then "\\x\x7b".toList ++
    (Text.ofNatHex c.toNat).map Char.toUpper ++ ['}']
  else [c]

def escapeLiteral (t : Text) : Text := t.flatMap escapeChar

@[simp] theorem escapeLiteral_nil : escapeLiteral [] = [] := rfl

@[simp] theorem escapeLiteral_cons (c : Char) (r : Text) :
    escapeLiteral (c :: r) = escapeChar c ++ escapeLiteral r := rfl

namespace Text

def numbered (c : Char) : Text := "\\u\x7b".toList ++ ofNatHex c.toNat ++ ['}']

def quotedChar (c : Char) : Text :=
  match c with
  | '\x00' => ['\\', '0']
  | '\t' => ['\\', 't']
  | '\r' => ['\\', 'r']
  | '\n' => ['\\', 'n']
  | '\\' => ['\\', '\\']
  | '"' => ['\\', '"']
  | c => if Unicode.isExtending c || !Unicode.isPrintable c then numbered c else [c]

/-- A text in double quotes, with escapes for quotes, backslashes, control characters and all that
does not show on its own. -/
def quoted (t : Text) : Text := ['"'] ++ t.flatMap quotedChar ++ ['"']

end Text

end RegexDialect
