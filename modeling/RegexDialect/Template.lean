import RegexDialect.Match
import RegexDialect.Unicode.Letters

/-! Replacement templates. `$&` stands for the match, `$` with a backquote or a quote for the text
before or after it, `$n` and `$nn` for a numbered group, a name or number in braces for a group, and
`$$` for a dollar sign. All else is literal, as is a reference that names nothing. -/
namespace RegexDialect

inductive TemplatePart
  | literal (text : Text)
  | wholeMatch
  | before
  | after
  /-- One or two digits; which of them count depends on the number of groups. -/
  | numbered (digits : Text)
  | braced (name : Text)
deriving DecidableEq, Repr

namespace TemplatePart

def isNameChar (c : Char) : Bool := c == '$' || c == '_' || Unicode.isAlphanumeric c

def bracedName? (t : Text) : Option Text :=
  let inner := t.tail.takeWhile (· != '}')
  if (t.tail.drop inner.length).isEmpty || inner.isEmpty || !inner.all isNameChar then none
  else some inner

def reference? (t : Text) : Option (Option TemplatePart × Nat) :=
  match t with
  | '$' :: _ => some (none, 1)
  | '&' :: _ => some (some wholeMatch, 1)
  | '\x60' :: _ => some (some before, 1)
  | '\x27' :: _ => some (some after, 1)
  | '\x7b' :: _ => (bracedName? t).map fun name => (some (braced name), name.length + 2)
  | _ =>
    let digits := (t.take 2).takeWhile Char.isDigit
    if digits.isEmpty then none else some (some (numbered digits), digits.length)

def ofLiteral (reversed : Text) : List TemplatePart :=
  if reversed.isEmpty then [] else [literal reversed.reverse]

/-- Reads a template; `taken` characters at the start belong to the reference before them. -/
def parseFrom : (taken : Nat) → (reversed : Text) → Text → List TemplatePart
  | _, reversed, [] => ofLiteral reversed
  | taken + 1, reversed, _ :: r => parseFrom taken reversed r
  | 0, reversed, c :: r =>
    if c == '$' then
      match reference? r with
      | some (some part, n) => ofLiteral reversed ++ part :: parseFrom n [] r
      | some (none, n) => parseFrom n ('$' :: reversed) r
      | none => parseFrom 0 ('$' :: reversed) r
    else parseFrom 0 (c :: reversed) r

def parse (t : Text) : List TemplatePart := parseFrom 0 [] t

def print : TemplatePart → Text
  | literal text => text.flatMap fun c => if c == '$' then ['$', '$'] else [c]
  | wholeMatch => ['$', '&']
  | before => ['$', '\x60']
  | after => ['$', '\x27']
  | numbered digits => '$' :: digits
  | braced name => ['$', '\x7b'] ++ name ++ ['}']

/-- The longest run of leading digits that is the number of a group, tried from `width` down. -/
def numberedGroup? (m : Match) (digits : Text) : (width : Nat) → Option (Nat × Nat)
  | 0 => none
  | width + 1 =>
    match Text.toNat? (digits.take (width + 1)) with
    | some n => if 1 ≤ n && n < m.size then some (n, width + 1) else numberedGroup? m digits width
    | none => numberedGroup? m digits width

/-- The group that a name in braces refers to: by number, or else the first one with that name. -/
def bracedGroup? (m : Match) (name : Text) : Option Nat :=
  match Text.toNat? name with
  | some n => if n < m.size then some n else m.groupIndex name
  | none => m.groupIndex name

/-- The text of a part for a match. A group that took no part gives nothing. -/
def render (m : Match) : TemplatePart → Text
  | literal text => text
  | wholeMatch => m.matched
  | before => m.before
  | after => m.after
  | numbered digits =>
    match numberedGroup? m digits digits.length with
    | some (n, width) => (m.group n).getD [] ++ digits.drop width
    | none => '$' :: digits
  | braced name =>
    match bracedGroup? m name with
    | some n => (m.group n).getD []
    | none => ['$', '\x7b'] ++ name ++ ['}']

end TemplatePart

def renderTemplate (m : Match) (template : Text) : Text :=
  (TemplatePart.parse template).flatMap (TemplatePart.render m)

end RegexDialect
