import RegexDialect.Baseline.Expr

/-! Reading a pattern text of the baseline engine. Every reader takes the text that is left and
gives back what it read, the rest, and the notes gathered so far. The explicit fuel bounds the depth
of the calls; one call takes a character or goes one level down, so a multiple of the length is
enough. -/
namespace RegexDialect.Baseline

structure Mode where
  caseless : Bool
  multiline : Bool
  dotLineFeed : Bool
  swapGreed : Bool
  spacing : Bool
deriving DecidableEq, Repr

namespace Mode

def plain : Mode := ⟨false, false, false, false, false⟩

end Mode

/-- What is noted while reading: modes, groups opened, their names, and references. -/
structure Notes where
  mode : Mode
  groups : Nat
  names : List (Text × Nat)
  references : List Nat
  numbered : Bool
deriving DecidableEq, Repr

namespace Notes

def start : Notes := ⟨.plain, 0, [], [], false⟩

def refer (n : Notes) (group : Nat) : Notes := { n with references := group :: n.references }

end Notes

namespace Reader

abbrev Step (α : Type) := α × Text × Notes

def maxDepth : Nat := 63

/-- Numbers from here on do not count as numbers. -/
def numberLimit : Nat := Nat.pow 2 64

inductive Skip
  | between
  | lineComment
  | groupComment
deriving DecidableEq

/-- The text without the comments, and under free spacing the blanks, at its start. -/
def skip (spacing : Bool) : Skip → Text → Except BuildFault Text
  | .groupComment, [] => .error .unclosedGroup
  | .groupComment, ')' :: r => skip spacing .between r
  | .groupComment, '\\' :: _ :: r => skip spacing .groupComment r
  | .groupComment, _ :: r => skip spacing .groupComment r
  | .lineComment, '\n' :: r => skip spacing .between r
  | .lineComment, _ :: r => skip spacing .lineComment r
  | .between, '(' :: '?' :: '#' :: r => skip spacing .groupComment r
  | .between, c :: r =>
    if spacing && c == '#' then skip spacing .lineComment r
    else if spacing && (c == ' ' || c == '\r' || c == '\n' || c == '\t') then
      skip spacing .between r
    else .ok (c :: r)
  | _, [] => .ok []

def skipIn (n : Notes) (t : Text) : Except BuildFault Text := skip n.mode.spacing .between t

def number? (t : Text) : Option (Nat × Text) :=
  let digits := t.takeWhile Char.isDigit
  match Text.toNat? digits with
  | some n => if n < numberLimit then some (n, t.drop digits.length) else none
  | none => none

def boundsAfter? (n : Notes) (least : Nat) (t : Text) : Option (Nat × Option Nat × Text) := do
  match ← (skipIn n t).toOption with
  | '}' :: r => some (least, some least, r)
  | ',' :: r =>
    let r ← (skipIn n r).toOption
    let (most, r) := match number? r with
      | some (m, s) => (some m, s)
      | none => (none, r)
    match ← (skipIn n r).toOption with
    | '}' :: s => some (least, most, s)
    | _ => none
  | _ => none

/-- Bounds in braces, after the opening brace: `{n}`, `{n,}`, `{n,m}`, `{,m}` or `{,}`. -/
def bounds? (n : Notes) (t : Text) : Option (Nat × Option Nat × Text) := do
  match ← (skipIn n t).toOption with
  | ',' :: r => boundsAfter? n 0 (',' :: r)
  | r =>
    let (least, r) ← number? r
    boundsAfter? n least r

def quantifier? (n : Notes) : Text → Option (Nat × Option Nat × Text)
  | '?' :: r => some (0, some 1, r)
  | '*' :: r => some (0, none, r)
  | '+' :: r => some (1, none, r)
  | '\x7b' :: r => bounds? n r
  | _ => none

def closing (n : Notes) (t : Text) : Except BuildFault Text := do
  match ← skipIn n t with
  | ')' :: r => .ok r
  | [] => .error .unclosedGroup
  | _ => .error .strayText

def isNameChar (c : Char) : Bool := Unicode.isAlphanumeric c || c == '_'

def name? (close : Text) (t : Text) : Option (Text × Text) :=
  let name := t.takeWhile isNameChar
  if name.isEmpty then none else (Text.dropHead? close (t.drop name.length)).map fun r => (name, r)

/-- A hyphen and a distance, up to a closing text: a reference counted back from the groups opened
so far. -/
def relative? (opened : Nat) (close : Text) : Text → Option (Nat × Text)
  | '-' :: r => do
    let (d, r) ← number? r
    let r ← Text.dropHead? close r
    if d == 0 then some (0, r) else if opened + 1 < d then none else some (opened + 1 - d, r)
  | _ => none

/-- A reference by name, by a number written as a name, or by distance. -/
def namedReference (close : Text) (allowRelative : Bool) (t : Text) (n : Notes) :
    Except BuildFault (Step Nat) :=
  let found : Option (Nat × Text) :=
    match name? close t with
    | some (name, r) =>
      match n.names.find? fun e => e.1 == name with
      | some e => some (e.2, r)
      | none => (number? name).bind fun k => if k.2.isEmpty then some (k.1, r) else none
    | none => if allowRelative then relative? n.groups close t else none
  match found with
  | some (group, r) => .ok (group, r, n.refer group)
  | none => .error .badGroupName

/-- A reference by number; `size` is the size of the whole pattern, and numbers from half of it on
are refused. -/
def numberedReference (size : Nat) (t : Text) (n : Notes) : Except BuildFault (Step Nat) :=
  match number? t with
  | some (group, r) =>
    if group < size / 2 then .ok (group, r, { n.refer group with numbered := true })
    else .error .badBackreference
  | none => .error .badBackreference

def characterOf (code : Nat) : Except BuildFault Char :=
  if code.isValidChar then .ok (Char.ofNat code) else .error .badCodePoint

/-- A hexadecimal escape of a fixed number of digits, or of up to eight in braces. -/
def hexEscape (digits : Nat) (t : Text) : Except BuildFault (Char × Text) := do
  let first := t.take digits
  if first.length == digits && first.all Text.isHexDigit then
    let c ← characterOf (Text.hexValue first)
    .ok (c, t.drop digits)
  else
    match t with
    | '\x7b' :: r =>
      let inner := r.takeWhile Text.isHexDigit
      match r.drop inner.length with
      | '}' :: rest =>
        if inner.isEmpty || 8 < inner.length then .error .badHexEscape
        else
          let c ← characterOf (Text.hexValue inner)
          .ok (c, rest)
      | _ => .error .badHexEscape
    | _ => .error .badHexEscape

def propertyText : Text → Except BuildFault (Text × Text)
  | '\x7b' :: r =>
    let inner := r.takeWhile (· != '}')
    match r.drop inner.length with
    | '}' :: rest => .ok (['\x7b'] ++ inner ++ ['}'], rest)
    | _ => .error .unknownProperty
  | c :: r => .ok ([c], r)
  | [] => .error .unknownProperty

def controlLetters : List (Char × Char) :=
  [('a', '\x07'), ('f', '\x0c'), ('n', '\n'), ('r', '\r'), ('t', '\t'), ('v', '\x0b'),
    ('e', '\x1b')]

/-- An escape that names a single character, after the backslash; `none` for every other escape. -/
def controlEscape? (c : Char) : Option Char := (controlLetters.find? fun e => e.1 == c).map Prod.snd

def hexDigits : CharSet := .ranges [('0', '9'), ('A', 'F'), ('a', 'f')]

/-- An escape outside classes, after the backslash. -/
def escape (size : Nat) (t : Text) (n : Notes) : Except BuildFault (Step Expr) :=
  let caseless := n.mode.caseless
  match t with
  | [] => .error .trailingBackslash
  | c :: r =>
    let anchor (a : Anchor) : Except BuildFault (Step Expr) := .ok (.anchor a, r, n)
    let boundary (a : Anchor) : Except BuildFault (Step Expr) :=
      if r.head? == some '\x7b' then .error (.unknownEscape c) else anchor a
    let set (s : CharSet) : Except BuildFault (Step Expr) := .ok (.atom (.set s caseless), r, n)
    let hex (digits : Nat) : Except BuildFault (Step Expr) := do
      let (a, rest) ← hexEscape digits r
      .ok (.atom (.char a caseless), rest, n)
    let property (negated : Bool) : Except BuildFault (Step Expr) := do
      let (inner, rest) ← propertyText r
      let (s, _) ← CharSet.readProperty negated inner
      .ok (.atom (.set s caseless), rest, n)
    if c.isDigit then do
      let (group, rest, n) ← numberedReference size t n
      .ok (.backreference group, rest, n)
    else
      match c with
      | 'k' => do
        let (group, rest, n) ← match r with
          | '\x27' :: s => namedReference ['\x27'] true s n
          | '<' :: s => namedReference ['>'] true s n
          | _ => .error .badGroupName
        .ok (.backreference group, rest, n)
      | 'A' => anchor .textStart
      | 'z' => anchor .textEnd
      | 'b' => boundary .wordBoundary
      | 'B' => boundary .notWordBoundary
      | '<' => anchor .wordStart
      | '>' => anchor .wordEnd
      | 'd' => set (.decimal false)
      | 'D' => set (.decimal true)
      | 's' => set (.blank false)
      | 'S' => set (.blank true)
      | 'w' => set (.word false)
      | 'W' => set (.word true)
      | 'h' => .ok (.atom (.set hexDigits false), r, n)
      | 'H' => .ok (.atom (.set (.bracket true hexDigits) false), r, n)
      | 'x' => hex 2
      | 'u' => hex 4
      | 'U' => hex 8
      | 'p' => property false
      | 'P' => property true
      | 'K' => .ok (.keepOut, r, n)
      | 'G' => .ok (.searchStart, r, n)
      | _ =>
        match controlEscape? c with
        | some a => .ok (.atom (.char a false), r, n)
        | none => if c.isAlpha then .error (.unknownEscape c) else .ok (.atom (.char c false), r, n)

def classMeta : Text :=
  ['\\', '.', '+', '*', '?', '(', ')', '|', '[', ']', '\x7b', '}', '^', '$', '#', '&', '-', '~']

def classChar (c : Char) : Text := if classMeta.contains c then ['\\', c] else [c]

/-- Letters that stand for themselves after a backslash in brackets, being anchors and the like
elsewhere. -/
def plainInClass : Text := ['k', 'A', 'z', 'B', 'K', 'G']

def classEscape (t : Text) : Except BuildFault (Text × Text) :=
  match t with
  | [] => .error .trailingBackslash
  | c :: r =>
    let hex (digits : Nat) : Except BuildFault (Text × Text) := do
      let (a, rest) ← hexEscape digits r
      .ok (classChar a, rest)
    if c.isDigit then .error .badClass
    else
      match c with
      | 'd' | 'D' | 's' | 'S' | 'w' | 'W' => .ok (['\\', c], r)
      | 'h' => .ok ("[0-9A-Fa-f]".toList, r)
      | 'H' => .ok ("[^0-9A-Fa-f]".toList, r)
      | 'x' => hex 2
      | 'u' => hex 4
      | 'U' => hex 8
      | 'p' | 'P' => do
        let (inner, rest) ← propertyText r
        .ok (['\\', c] ++ inner, rest)
      | 'b' => .ok (['\x08'], r)
      | _ =>
        match controlEscape? c with
        | some a => .ok (classChar a, r)
        | none =>
          if c.isAlpha && !plainInClass.contains c then .error (.unknownEscape c)
          else .ok (classChar c, r)

/-- The text of a class from the inside of its opening bracket to the bracket that closes it;
brackets nest. The text gathered so far is in `done`, last part first. -/
def classBody :
    Nat → (nesting : Nat) → (done : List Text) → Text → Except BuildFault (List Text × Text)
  | 0, _, _, _ => .error .unclosedClass
  | _, _, _, [] => .error .unclosedClass
  | fuel + 1, nesting, done, '\\' :: r => do
    let (piece, rest) ← classEscape r
    classBody fuel nesting (piece :: done) rest
  | fuel + 1, nesting, done, '[' :: r => classBody fuel (nesting + 1) (['['] :: done) r
  | _ + 1, 0, done, ']' :: r => .ok ([']'] :: done, r)
  | fuel + 1, nesting + 1, done, ']' :: r => classBody fuel nesting ([']'] :: done) r
  | fuel + 1, nesting, done, c :: r => classBody fuel nesting ([c] :: done) r

/-- A class, after its opening bracket. A closing bracket right at the start is a plain
character. -/
def readClass (t : Text) : Except BuildFault (CharSet × Text) := do
  let (head, t) := match t with
    | '^' :: r => (['[', '^'], r)
    | r => (['['], r)
  let (head, t) := match t with
    | ']' :: r => (head ++ [']'], r)
    | r => (head, r)
  let (pieces, rest) ← classBody (t.length + 1) 0 [head] t
  let s ← CharSet.read pieces.reverse.flatten
  .ok (s, rest)

def Mode.set? (m : Mode) (letter : Char) (on : Bool) : Option Mode :=
  match letter with
  | 'i' => some { m with caseless := on }
  | 'm' => some { m with multiline := on }
  | 's' => some { m with dotLineFeed := on }
  | 'U' => some { m with swapGreed := on }
  | 'x' => some { m with spacing := on }
  | 'u' => if on then some m else none
  | _ => none

/-- How the flags of a group end: at its parenthesis, or at the colon before its content. -/
inductive FlagsEnd
  | group
  | content
deriving DecidableEq

/-- The flags of a group, after its question mark: letters, with a hyphen before those that turn a
mode off. At least one character must be there, and more than a hyphen; `taken` counts those that
were read, and `off` says that a hyphen was among them. -/
def flags : Nat → (taken : Nat) → (off : Bool) → Text → Notes → Except BuildFault (Step FlagsEnd)
  | 0, _, _, _, _ => .error .unknownFlag
  | fuel + 1, taken, off, t, n => do
    let rest ← skipIn n t
    let taken := taken + (t.length - rest.length)
    let bare := off && taken == 1
    match rest with
    | [] => .error .unclosedGroup
    | '-' :: r => if off then .error .unknownFlag else flags fuel (taken + 1) true r n
    | ')' :: r => if taken == 0 || bare then .error .unknownFlag else .ok (.group, r, n)
    | ':' :: r => if bare then .error .unknownFlag else .ok (.content, r, n)
    | c :: r =>
      match Mode.set? n.mode c !off with
      | some mode => flags fuel (taken + 1) off r { n with mode := mode }
      | none => .error .unknownFlag

def firstAndOthers : Expr → Expr × Expr
  | .choice [a, b] => (a, b)
  | .choice (a :: rest) => (a, .choice rest)
  | e => (e, .empty)

def testOf : Expr → Expr
  | .backreference g => .groupSet g
  | e => e

/-- A conditional from its condition and the expression after it, whose first alternative is taken
when the condition holds and the others when it does not. -/
def conditionalOf (condition body : Expr) : Expr :=
  let (yes, no) := firstAndOthers body
  if yes.isEmpty && no.isEmpty then testOf condition else .conditional (testOf condition) yes no

inductive Opening
  | capture
  | look (kind : Look)
  | atomic
deriving DecidableEq

def Opening.wrap (o : Opening) (index : Nat) (body : Expr) : Expr :=
  match o with
  | capture => .group index body
  | look kind => .look kind body
  | atomic => .atomic body

def conditionOf (r : Except BuildFault (Step Nat)) : Except BuildFault (Step Expr) :=
  r.map fun x => (.backreference x.1, x.2.1, x.2.2)

def condition (size : Nat) (t : Text) (n : Notes)
    (expression : Unit → Except BuildFault (Step Expr)) :
    Except BuildFault (Step Expr) :=
  match t with
  | [] => .error .unclosedGroup
  | '\x27' :: r => conditionOf (namedReference ['\x27'] true r n)
  | '<' :: r => conditionOf (namedReference ['>'] true r n)
  | c :: _ => if c.isDigit then conditionOf (numberedReference size t n) else expression ()

mutual

def alternatives (size : Nat) : Nat → (depth : Nat) → Text → Notes → Except BuildFault (Step Expr)
  | 0, _, _, _ => .error .tooLarge
  | fuel + 1, depth, t, n => do
    let (first, t, n) ← branch size fuel depth t n []
    let (rest, t, n) ← moreBranches size fuel depth t n
    match rest with
    | [] => if n.numbered && !n.names.isEmpty then .error .namedAndNumbered else .ok (first, t, n)
    | _ => .ok (.choice (first :: rest), t, n)

def moreBranches (size : Nat) :
    Nat → (depth : Nat) → Text → Notes → Except BuildFault (Step (List Expr))
  | 0, _, _, _ => .error .tooLarge
  | fuel + 1, depth, t, n => do
    match ← skipIn n t with
    | '|' :: r =>
      let (first, t, n) ← branch size fuel depth r n []
      let (rest, t, n) ← moreBranches size fuel depth t n
      .ok (first :: rest, t, n)
    | t => .ok ([], t, n)

/-- Pieces in a row, those so far in `done`, last one first. -/
def branch (size : Nat) :
    Nat → (depth : Nat) → Text → Notes → (done : List Expr) → Except BuildFault (Step Expr)
  | 0, _, _, _, _ => .error .tooLarge
  | fuel + 1, depth, t, n, done =>
    if t.isEmpty then .ok (.ofParts done.reverse, t, n)
    else do
      let (e, rest, m) ← piece size fuel depth t n
      if rest.length == t.length then .ok (.ofParts done.reverse, t, m)
      else branch size fuel depth rest m (if e.isEmpty then done else e :: done)

def piece (size : Nat) : Nat → (depth : Nat) → Text → Notes → Except BuildFault (Step Expr)
  | 0, _, _, _ => .error .tooLarge
  | fuel + 1, depth, t, n => do
    let (e, t, n) ← unit size fuel depth t n
    let t ← skipIn n t
    match quantifier? n t with
    | none => .ok (e, t, n)
    | some (least, most, t) =>
      if !e.isRepeatable then .error .nothingToRepeat
      else
        let t ← skipIn n t
        let (lazy, t) := match t with
          | '?' :: r => (true, r)
          | r => (false, r)
        let e := .repeated e least most (lazy == n.mode.swapGreed)
        match t with
        | '+' :: r => .ok (.atomic e, r, n)
        | r => .ok (e, r, n)

/-- One unit: a character, a class, an escape, an anchor or a group. Where none starts it is
empty. -/
def unit (size : Nat) : Nat → (depth : Nat) → Text → Notes → Except BuildFault (Step Expr)
  | 0, _, _, _ => .error .tooLarge
  | fuel + 1, depth, t, n => do
    match ← skipIn n t with
    | [] => .ok (.empty, [], n)
    | '.' :: r => .ok (.atom (.any n.mode.dotLineFeed), r, n)
    | '^' :: r => .ok (.anchor (if n.mode.multiline then .lineStart else .textStart), r, n)
    | '$' :: r => .ok (.anchor (if n.mode.multiline then .lineEnd else .textEnd), r, n)
    | '(' :: r =>
      if depth < maxDepth then groupOpening size fuel (depth + 1) r n else .error .nestedTooDeep
    | '\\' :: r => escape size r n
    | '[' :: r =>
      let (s, rest) ← readClass r
      .ok (.atom (.set s n.mode.caseless), rest, n)
    | c :: r =>
      if c == '+' || c == '*' || c == '?' || c == '|' || c == ')' then .ok (.empty, c :: r, n)
      else .ok (.atom (.char c n.mode.caseless), r, n)

def groupOpening (size : Nat) : Nat → (depth : Nat) → Text → Notes → Except BuildFault (Step Expr)
  | 0, _, _, _ => .error .tooLarge
  | fuel + 1, depth, t, n => do
    let named (close r : Text) : Except BuildFault (Step Expr) :=
      match name? close r with
      | some (name, r) =>
        let index := n.groups + 1
        groupBody size fuel depth .capture r { n with groups := index, names :=
          (name, index) :: n.names }
      | none => .error .badGroupName
    match ← skipIn n t with
    | '?' :: '=' :: r => groupBody size fuel depth (.look .ahead) r n
    | '?' :: '!' :: r => groupBody size fuel depth (.look .notAhead) r n
    | '?' :: '<' :: '=' :: r => groupBody size fuel depth (.look .behind) r n
    | '?' :: '<' :: '!' :: r => groupBody size fuel depth (.look .notBehind) r n
    | '?' :: '<' :: r => named ['>'] r
    | '?' :: 'P' :: '<' :: r => named ['>'] r
    | '?' :: 'P' :: '=' :: r => do
      let (group, rest, n) ← namedReference [')'] false r n
      .ok (.backreference group, rest, n)
    | '?' :: '>' :: r => groupBody size fuel depth .atomic r n
    | '?' :: '(' :: r => conditional size fuel depth r n
    | '?' :: r => do
      let (ending, rest, m) ← flags (r.length + 1) 0 false r n
      match ending with
      | .group => .ok (.empty, rest, m)
      | .content =>
        let (e, rest, m) ← alternatives size fuel depth rest m
        let rest ← closing m rest
        .ok (e, rest, { m with mode := n.mode })
    | r => groupBody size fuel depth .capture r { n with groups := n.groups + 1 }

/-- The content of a group and its closing parenthesis. A capturing group has the number of the last
one opened. -/
def groupBody (size : Nat) :
    Nat → (depth : Nat) → Opening → Text → Notes → Except BuildFault (Step Expr)
  | 0, _, _, _, _ => .error .tooLarge
  | fuel + 1, depth, opening, t, n => do
    let (e, rest, m) ← alternatives size fuel depth t n
    let rest ← closing m rest
    .ok (opening.wrap n.groups e, rest, m)

def conditional (size : Nat) : Nat → (depth : Nat) → Text → Notes → Except BuildFault (Step Expr)
  | 0, _, _, _ => .error .tooLarge
  | fuel + 1, depth, t, n => do
    let (condition, t, n) ← condition size t n fun _ => alternatives size fuel depth t n
    let t ← closing n t
    let (body, rest, n) ← alternatives size fuel depth t n
    if rest.length == t.length then
      match condition with
      | .backreference group =>
        let rest ← closing n rest
        .ok (.groupSet group, rest, n)
      | _ => .error .emptyCondition
    else
      let rest ← closing n rest
      .ok (conditionalOf condition body, rest, n)

end

def read (t : Text) : Except BuildFault (Expr × Notes) := do
  let (e, rest, n) ← alternatives (Text.bytes t) (8 * t.length + 16) 0 t .start
  if rest.isEmpty then .ok (e, n) else .error .strayText

end Reader
end RegexDialect.Baseline
