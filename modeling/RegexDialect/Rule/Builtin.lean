import RegexDialect.Scan
import RegexDialect.Unicode.Letters

/-! The built-in rules of the dialect. Each has a written recognizer, for display, and reads its
token directly. They are tried from the last of the list to the first, so the plain group opener
gives way to the others. -/
namespace RegexDialect

inductive Builtin
  /-- A group opener; without a question mark after it the group captures, or not at all under
  `n`. -/
  | group
  /-- A comment `(?#..)`. -/
  | comment
  /-- A named group `(?<name>`. -/
  | namedGroup
  /-- A named group `(?P<name>`. -/
  | taggedGroup
  /-- A reference `\k<name>`. -/
  | reference
  /-- The classes `[]` and `[^]`. -/
  | emptyClass
  /-- A mode modifier `(?imnsx)`, which counts at the very start only. -/
  | modifier
  /-- Blanks and line comments under `x`. -/
  | spacing
  /-- The dot under `s`. -/
  | dot
  /-- Inside classes, a bracket and the signs of set operations. -/
  | classSign
deriving DecidableEq, Repr

namespace Builtin

def all : List Builtin :=
  [group, comment, namedGroup, taggedGroup, reference, emptyClass, modifier, spacing,
    dot, classSign]

def source : Builtin → String
  | group => "\\("
  | comment => "\\(\\?#[^)]*\\)"
  | namedGroup => "\\(\\?<([$\\w]+)>"
  | taggedGroup => "\\(\\?P<([$\\w]+)>"
  | reference => "\\\\k<([\\w$]+)>"
  | emptyClass => "\\[\\^?\\]"
  | modifier => "\\(\\?([imnsx]+)\\)"
  | spacing => "(?:\\s+|#.*)+"
  | dot => "\\."
  | classSign => "\\[|&&|~~"

def scope : Builtin → Scope
  | classSign => .insideClass
  | _ => .outsideClass

def awaits : Builtin → Option Char
  | spacing => some 'x'
  | dot => some 's'
  | _ => none

def isActive (b : Builtin) (scope : Scope) (context : Context) : Bool :=
  b.scope.meets scope && (b.awaits.all context.hasFlag)

def isNameChar (c : Char) : Bool := c == '$' || Unicode.isWord c

def isModifier (c : Char) : Bool := c == 'i' || c == 'm' || c == 'n' || c == 's' || c == 'x'

/-- After `opening`, a non-empty run of characters that pass `p`, then `closing`. -/
def recognizeRun (opening : Text) (p : Char → Bool) (closing : Char) (t : Text) :
    Option Recognition := do
  let rest ← Text.dropHead? opening t
  let inner := rest.takeWhile p
  let next ← (rest.drop inner.length).head?
  if !inner.isEmpty && next == closing then
    let length := opening.length + inner.length + 1
    some ⟨length, [some (t.take length), some inner]⟩
  else none

/-- Number of characters in a run of blanks and comments; a comment ends before its line feed. -/
def spacingLength : (inComment : Bool) → Text → Nat
  | _, [] => 0
  | false, c :: r =>
    if Unicode.isBlank c then 1 + spacingLength false r else if c == '#' then
      1 + spacingLength true r else 0
  | true, c :: r => 1 + spacingLength (c != '\n') r

/-- Length of a comment `(?#..)` with both parentheses, when it is closed. -/
def commentLength? (t : Text) : Option Nat := do
  let rest ← Text.dropHead? ['(', '?', '#'] t
  let n := BaselineToken.run (· != ')') rest
  if (rest.drop n).isEmpty then none else some (n + 4)

def plain (t : Text) (n : Nat) : Recognition := ⟨n, [some (t.take n)]⟩

def recognize (b : Builtin) (t : Text) : Option Recognition :=
  match b, t with
  | group, '(' :: _ => some (plain t 1)
  | comment, _ => (commentLength? t).map (plain t)
  | namedGroup, _ => recognizeRun ['(', '?', '<'] isNameChar '>' t
  | taggedGroup, _ => recognizeRun ['(', '?', 'P', '<'] isNameChar '>' t
  | reference, _ => recognizeRun ['\\', 'k', '<'] isNameChar '>' t
  | emptyClass, '[' :: ']' :: _ => some (plain t 2)
  | emptyClass, '[' :: '^' :: ']' :: _ => some (plain t 3)
  | modifier, _ => recognizeRun ['(', '?'] isModifier ')' t
  | spacing, _ =>
    if spacingLength false t == 0 then none else some (plain t (spacingLength false t))
  | dot, '.' :: _ => some (plain t 1)
  | classSign, '[' :: _ => some (plain t 1)
  | classSign, '&' :: '&' :: _ => some (plain t 2)
  | classSign, '~' :: '~' :: _ => some (plain t 2)
  | _, _ => none

/-- A group that matches nothing, written where two neighbours must not join. -/
def emptyGroup : Text := ['(', '?', ':', ')']

/-- The separator for syntax that leaves no trace; before a quantifier there is none. -/
def separator (rest : Text) : Text :=
  if BaselineToken.startsWithQuantifier rest then [] else emptyGroup

def openNamed (name : Text) (context : Context) : Except Error Text × Context :=
  if name.all Char.isDigit then (.error (.integerCaptureName name), context)
  else (.ok ['('], context.push (some name))

/-- A reference to a group by number; an empty group parts it from a digit. A name that is not
declared yet stands for itself. -/
def refer (name rest : Text) (context : Context) : Text :=
  match context.index? name with
  | some index =>
    let digitFollows := (rest.head?.map Char.isDigit).getD false
    ['\\'] ++ Text.ofNat (index + 1) ++ if digitFollows then emptyGroup else []
  | none => ['k', '<'] ++ name ++ ['>']

def anyCharacter : Text := ['[', '\\', 's', '\\', 'S', ']']

def noCharacter : Text := ['\\', 'b', '\\', 'B']

/-- What a rule emits for its token, and the context after it. -/
def handle (b : Builtin) (token : Token) (context : Context) : Except Error Text × Context :=
  let name := (token.group 1).getD []
  match b with
  | group =>
    if token.rest.head? == some '?' then (.ok ['('], context)
    else if context.hasFlag 'n' then (.ok ['(', '?', ':'], context)
    else (.ok ['('], context.push none)
  | comment | spacing => (.ok (separator token.rest), context)
  | namedGroup | taggedGroup => openNamed name context
  | reference => (.ok (refer name token.rest context), context)
  | emptyClass => (.ok (if token.text == ['[', ']'] then noCharacter else anyCharacter), context)
  | modifier =>
    if 0 < token.start then (.ok token.text, context)
    else
      match context.setFlags name with
      | (.ok _, c) => (.ok [], c)
      | (.error e, c) => (.error e, c)
  | dot => (.ok anyCharacter, context)
  | classSign => (.ok (token.text.flatMap fun c => ['\\', c]), context)

def attempt (b : Builtin) (pattern : Text) (position : Nat) (rest : Text) (scope : Scope)
    (context : Context) :
    Except Error (Option Hit) × Context :=
  if b.isActive scope context then
    match b.recognize rest with
    | none => (.ok none, context)
    | some r =>
      let token := Token.ofRecognition pattern position rest scope r
      match b.handle token context with
      | (.ok output, c) => (.ok (some ⟨output, token.text⟩), c)
      | (.error e, c) => (.error e, c)
  else (.ok none, context)

def attemptAll (pattern : Text) (position : Nat) (rest : Text) (scope : Scope) :
    List Builtin → Context → Except Error (Option Hit) × Context
  | [], context => (.ok none, context)
  | b :: bs, context =>
    match b.attempt pattern position rest scope context with
    | (.ok none, c) => attemptAll pattern position rest scope bs c
    | answer => answer

def lookup : Lookup := fun pattern position rest scope turn =>
  match attemptAll pattern position rest scope all.reverse turn.context with
  | (answer, c) => (answer, { turn with context := c })

end Builtin
end RegexDialect
