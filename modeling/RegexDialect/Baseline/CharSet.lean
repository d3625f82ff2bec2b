import RegexDialect.Baseline.Interface
import RegexDialect.Unicode.CaseFold
import RegexDialect.Unicode.Property

/-! Sets of characters written in brackets: items, ranges, properties, nested sets and set
operations. A caseless set holds a character when it holds any of its case variants; complements are
taken after that. -/
namespace RegexDialect.Baseline

inductive CharSet
  | none
  | single (c : Char)
  | range (first last : Char)
  | decimal (negated : Bool)
  | blank (negated : Bool)
  | word (negated : Bool)
  | property (negated : Bool) (p : Unicode.Property)
  | union (a b : CharSet)
  | inter (a b : CharSet)
  | minus (a b : CharSet)
  | either (a b : CharSet)
  | bracket (negated : Bool) (body : CharSet)
deriving DecidableEq, Repr

namespace CharSet

def anyCase (caseless : Bool) (p : Char → Bool) (c : Char) : Bool :=
  if caseless then (Unicode.caseVariants c).any p else p c

def holds (caseless : Bool) : CharSet → Char → Bool
  | none, _ => false
  | single a, c => a == c
  | range a b, c => a ≤ c && c ≤ b
  | decimal negated, c => Unicode.isDecimal c != negated
  | blank negated, c => Unicode.isBlank c != negated
  | word negated, c => Unicode.isWord c != negated
  | property negated p, c => anyCase caseless p.holds c != negated
  | union a b, c => a.holds caseless c || b.holds caseless c
  | inter a b, c => anyCase caseless (a.holds caseless) c && anyCase caseless (b.holds caseless) c
  | minus a b, c => anyCase caseless (a.holds caseless) c && !anyCase caseless (b.holds caseless) c
  | either a b, c => anyCase caseless (a.holds caseless) c != anyCase caseless (b.holds caseless) c
  | bracket negated body, c => anyCase caseless (body.holds caseless) c != negated

def ranges (l : List (Char × Char)) : CharSet := l.foldr (fun r s => union (range r.1 r.2) s) none

def namedClass? (name : Text) : Option CharSet :=
  let lower := [('a', 'z')]
  let upper := [('A', 'Z')]
  let digit := [('0', '9')]
  let table : List (String × List (Char × Char)) := [
    ("alnum", digit ++ upper ++ lower), ("alpha", upper ++ lower), ("ascii", [('\x00', '\x7f')]),
    ("blank", [('\t', '\t'), (' ', ' ')]), ("cntrl", [('\x00', '\x1f'), ('\x7f', '\x7f')]),
    ("digit", digit), ("graph", [('!', '~')]), ("lower", lower), ("print", [(' ', '~')]),
    ("punct", [('!', '/'), (':', '@'), ('[', '\x60'), ('\x7b', '~')]),
    ("space", [('\t', '\r'), (' ', ' ')]), ("upper", upper),
    ("word", digit ++ upper ++ lower ++ [('_', '_')]),
    ("xdigit", digit ++ [('A', 'F'), ('a', 'f')])]
  (table.find? fun e => e.1.toList == name).map fun e => ranges e.2

def readNamed? : Text → Option (CharSet × Text)
  | ':' :: r =>
    let (negated, r) := match r with
      | '^' :: s => (true, s)
      | s => (false, s)
    let name := r.takeWhile (· != ':')
    match r.drop name.length with
    | ':' :: ']' :: rest => (namedClass? name).map fun s => (bracket negated s, rest)
    | _ => Option.none
  | _ => Option.none

/-- A property by what stands in its braces; `key!=value` is the complement of `key=value`. -/
def ofPropertyName? (negated : Bool) (name : Text) : Option CharSet :=
  match name.dropWhile (· != '!') with
  | '!' :: '=' :: value =>
    (Unicode.Property.find? (name.takeWhile (· != '!') ++ '=' :: value)).map (property !negated)
  | _ => (Unicode.Property.find? name).map (property negated)

def readProperty (negated : Bool) : Text → Except BuildFault (CharSet × Text)
  | '\x7b' :: r =>
    let name := r.takeWhile (· != '}')
    match r.drop name.length, ofPropertyName? negated name with
    | '}' :: rest, some s => .ok (s, rest)
    | _, _ => .error .unknownProperty
  | c :: rest =>
    match Unicode.Property.find? [c] with
    | some p => .ok (property negated p, rest)
    | Option.none => .error .unknownProperty
  | [] => .error .unknownProperty

def readEscape : Text → Except BuildFault (CharSet × Text)
  | 'd' :: r => .ok (decimal false, r)
  | 'D' :: r => .ok (decimal true, r)
  | 's' :: r => .ok (blank false, r)
  | 'S' :: r => .ok (blank true, r)
  | 'w' :: r => .ok (word false, r)
  | 'W' :: r => .ok (word true, r)
  | 'p' :: r => readProperty false r
  | 'P' :: r => readProperty true r
  | c :: r => .ok (single c, r)
  | [] => .error .badClass

def readItem : Text → Except BuildFault (CharSet × Text)
  | '\\' :: r => readEscape r
  | c :: r => .ok (single c, r)
  | [] => .error .unclosedClass

/-- An item or a range; a hyphen before `]` or before another hyphen makes no range. -/
def readRange (t : Text) : Except BuildFault (CharSet × Text) := do
  let (low, rest) ← readItem t
  match rest with
  | [] => .error .unclosedClass
  | '-' :: ']' :: _ => .ok (low, rest)
  | '-' :: '-' :: _ => .ok (low, rest)
  | '-' :: r =>
    let (high, rest) ← readItem r
    match low, high with
    | single a, single b => if a ≤ b then .ok (range a b, rest) else .error .badRange
    | _, _ => .error .badRange
  | _ => .ok (low, rest)

abbrev Pending := Option ((CharSet → CharSet → CharSet) × CharSet)

def combine (pending : Pending) (s : CharSet) : CharSet :=
  match pending with
  | some (op, left) => op left s
  | Option.none => s

/-- The start of a bracket: its complement sign and the hyphens or the closing bracket that are
plain characters there. -/
def readOpening (t : Text) : Bool × CharSet × Text :=
  let (negated, t) := match t with
    | '^' :: r => (true, r)
    | r => (false, r)
  let hyphens := t.takeWhile (· == '-')
  let rest := t.drop hyphens.length
  if !hyphens.isEmpty then (negated, single '-', rest)
  else
    match rest with
    | ']' :: r => (negated, single ']', r)
    | r => (negated, none, r)

mutual

def readBracket : Nat → Text → Except BuildFault (CharSet × Text)
  | 0, _ => .error .badClass
  | fuel + 1, t => do
    let (negated, first, rest) := readOpening t
    let (body, rest) ← readBody fuel first Option.none rest
    .ok (bracket negated body, rest)

/-- The items of a set, gathered in `items`, and its operations. -/
def readBody : Nat → (items : CharSet) → Pending → Text → Except BuildFault (CharSet × Text)
  | 0, _, _, _ => .error .badClass
  | _, _, _, [] => .error .unclosedClass
  | fuel + 1, items, pending, '[' :: r =>
    match readNamed? r with
    | some (s, rest) => readBody fuel (union items s) pending rest
    | Option.none => do
      let (s, rest) ← readBracket fuel r
      readBody fuel (union items s) pending rest
  | _ + 1, items, pending, ']' :: r => .ok (combine pending items, r)
  | fuel + 1, items, pending, '&' :: '&' :: r =>
    readBody fuel none (some (inter, combine pending items)) r
  | fuel + 1, items, pending, '-' :: '-' :: r =>
    readBody fuel none (some (minus, combine pending items)) r
  | fuel + 1, items, pending, '~' :: '~' :: r =>
    readBody fuel none (some (either, combine pending items)) r
  | fuel + 1, items, pending, c :: r => do
    let (s, rest) ← readRange (c :: r)
    readBody fuel (union items s) pending rest

end

def read : Text → Except BuildFault CharSet
  | '[' :: r =>
    match readBracket (2 * r.length + 2) r with
    | .ok (s, []) => .ok s
    | .ok _ => .error .badClass
    | .error e => .error e
  | _ => .error .badClass

end CharSet
end RegexDialect.Baseline
