import RegexDialect.Baseline.CharSet

/-! Expressions of the baseline engine, and what can be said of one without running it: the groups
in it, the least number of characters it takes, whether that number is fixed, and whether it needs
backtracking. -/
namespace RegexDialect.Baseline

inductive Anchor
  | textStart
  | textEnd
  | lineStart
  | lineEnd
  | wordBoundary
  | notWordBoundary
  | wordStart
  | wordEnd
deriving DecidableEq, Repr

namespace Anchor

def isHard : Anchor → Bool
  | textStart | textEnd | lineStart | lineEnd => false
  | wordBoundary | notWordBoundary | wordStart | wordEnd => true

def holds (a : Anchor) (before after : Option Char) : Bool :=
  let isWord (c : Option Char) : Bool := (c.map Unicode.isWord).getD false
  match a with
  | textStart => before.isNone
  | textEnd => after.isNone
  | lineStart => before.isNone || before == some '\n'
  | lineEnd => after.isNone || after == some '\n'
  | wordBoundary => isWord before != isWord after
  | notWordBoundary => isWord before == isWord after
  | wordStart => !isWord before && isWord after
  | wordEnd => isWord before && !isWord after

end Anchor

inductive Atom
  /-- Any character, a line feed among them or not. -/
  | any (lineFeed : Bool)
  | char (c : Char) (caseless : Bool)
  | set (s : CharSet) (caseless : Bool)
deriving DecidableEq, Repr

namespace Atom

def holds : Atom → Char → Bool
  | any lineFeed, c => lineFeed || c != '\n'
  | char a caseless, c => if caseless then (Unicode.caseVariants a).contains c else a == c
  | set s caseless, c => s.holds caseless c

end Atom

inductive Look
  | ahead
  | notAhead
  | behind
  | notBehind
deriving DecidableEq, Repr

inductive Expr
  | empty
  | atom (a : Atom)
  | anchor (a : Anchor)
  | sequence (parts : List Expr)
  | choice (parts : List Expr)
  | group (index : Nat) (body : Expr)
  | repeated (body : Expr) (least : Nat) (most : Option Nat) (greedy : Bool)
  | look (kind : Look) (body : Expr)
  | atomic (body : Expr)
  /-- The text of a group, once more. -/
  | backreference (index : Nat)
  /-- Whether a group was entered. -/
  | groupSet (index : Nat)
  | conditional (condition yes no : Expr)
  /-- Moves the start of the match here. -/
  | keepOut
  /-- The place where the search began. -/
  | searchStart

/-- What is known of an expression without running it. -/
structure Shape where
  /-- Least number of characters taken. -/
  least : Nat
  /-- Whether every match takes just that many. -/
  fixed : Bool
  /-- Whether it is left to the backtracking machine. -/
  hard : Bool
deriving DecidableEq, Repr

namespace Expr

def isEmpty : Expr → Bool
  | empty => true
  | _ => false

def ofParts : List Expr → Expr
  | [] => empty
  | [e] => e
  | parts => sequence parts

def isRepeatable : Expr → Bool
  | empty | anchor _ | look _ _ => false
  | _ => true

mutual

/-- The shape of an expression; groups that some reference names are hard. -/
def shape (referenced : List Nat) : Expr → Shape
  | empty => ⟨0, true, false⟩
  | atom _ => ⟨1, true, false⟩
  | anchor a => ⟨0, true, a.isHard⟩
  | sequence parts => shapeSequence referenced parts
  | choice [] => ⟨0, true, false⟩
  | choice (e :: es) => shapeChoice referenced es (shape referenced e)
  | group index body =>
    let s := shape referenced body
    { s with hard := s.hard || referenced.contains index }
  | repeated body least most _ =>
    let s := shape referenced body
    ⟨s.least * least, s.fixed && most == some least, s.hard⟩
  | look _ _ => ⟨0, true, true⟩
  | atomic body => { shape referenced body with hard := true }
  | backreference _ => ⟨0, false, true⟩
  | groupSet _ | keepOut | searchStart => ⟨0, true, true⟩
  | conditional condition yes no =>
    let c := shape referenced condition
    let y := shape referenced yes
    let n := shape referenced no
    ⟨c.least + min y.least n.least, c.fixed && y.fixed && n.fixed && c.least + y.least == n.least,
      true⟩

def shapeSequence (referenced : List Nat) : List Expr → Shape
  | [] => ⟨0, true, false⟩
  | e :: es =>
    let s := shape referenced e
    let r := shapeSequence referenced es
    ⟨s.least + r.least, s.fixed && r.fixed, s.hard || r.hard⟩

/-- The shape of alternatives, those before them gathered in `before`. -/
def shapeChoice (referenced : List Nat) : List Expr → (before : Shape) → Shape
  | [], before => before
  | e :: es, before =>
    let s := shape referenced e
    shapeChoice referenced es
      ⟨min before.least s.least, before.fixed && s.fixed && before.least == s.least,
        before.hard || s.hard⟩

end

mutual

def groups : Expr → List Nat
  | group index body => index :: groups body
  | sequence parts | choice parts => groupsOfList parts
  | repeated body _ _ _ | look _ body | atomic body => groups body
  | conditional condition yes no => groups condition ++ groups yes ++ groups no
  | _ => []

def groupsOfList : List Expr → List Nat
  | [] => []
  | e :: es => groups e ++ groupsOfList es

end

mutual

/-- Whether every reference is to a group that is opened before it, or to the whole match; `opened`
counts the groups so far. The answer is the count after the expression. -/
def checkReferences : Expr → (opened : Nat) → Except BuildFault Nat
  | group _ body, opened => checkReferences body (opened + 1)
  | sequence parts, opened | choice parts, opened => checkReferencesOfList parts opened
  | repeated body _ _ _, opened | look _ body, opened | atomic body, opened =>
    checkReferences body opened
  | backreference index, opened | groupSet index, opened =>
    if index ≤ opened then .ok opened else .error .badBackreference
  | conditional condition yes no, opened => do
    let opened ← checkReferences condition opened
    let opened ← checkReferences yes opened
    checkReferences no opened
  | _, opened => .ok opened

def checkReferencesOfList : List Expr → (opened : Nat) → Except BuildFault Nat
  | [], opened => .ok opened
  | e :: es, opened => do
    let opened ← checkReferences e opened
    checkReferencesOfList es opened

end

end Expr
end RegexDialect.Baseline
