import RegexDialect.Baseline.Expr

/-! The linear engine for expressions that need no backtracking machine. An expression becomes a
list of instructions; a search follows them in order of preference and never visits an instruction
twice at the same place, so it ends after at most as many visits as there are pairs of both. -/
namespace RegexDialect.Baseline.Automaton

inductive Insn
  | take (a : Atom)
  | anchor (a : Anchor)
  /-- Goes on at the first address or, should that fail, at the second. -/
  | split (first second : Nat)
  | jump (target : Nat)
  | save (slot : Nat)
  | accept
deriving DecidableEq, Repr

def maxSize : Nat := Nat.pow 2 18

def maxBound : Nat := Nat.pow 2 32 - 1

def repeatSize (n least : Nat) : Option Nat → Nat
  | some most => least * n + (most - least) * (n + 1)
  | none => if least == 0 then n + 2 else least * n + 1

mutual

def size : Expr → Nat
  | .atom _ | .anchor _ => 1
  | .sequence parts => sizeOfParts parts
  | .choice parts => sizeOfChoice parts
  | .group _ body => size body + 2
  | .repeated body least most _ => repeatSize (size body) least most
  | _ => 0

def sizeOfParts : List Expr → Nat
  | [] => 0
  | e :: es => size e + sizeOfParts es

def sizeOfChoice : List Expr → Nat
  | [] => 0
  | [e] => size e
  | e :: es => size e + 2 + sizeOfChoice es

end

/-- A split that prefers to go on inside a repetition, or to leave it. -/
def fork (greedy : Bool) (inside outside : Nat) : Insn :=
  if greedy then .split inside outside else .split outside inside

def copies (body : Nat → List Insn) (n : Nat) : Nat → (base : Nat) → List Insn
  | 0, _ => []
  | k + 1, base => body base ++ copies body n k (base + n)

def optionalCopies (body : Nat → List Insn) (n : Nat) (greedy : Bool) (stop : Nat) :
    Nat → (base : Nat) → List Insn
  | 0, _ => []
  | k + 1, base =>
    fork greedy (base + 1) stop :: body (base + 1) ++
      optionalCopies body n greedy stop k (base + 1 + n)

/-- A repetition of a body with `n` instructions. A body that can match nothing is left by the split
at its end, so an empty round is kept and ends the repetition. -/
def repetition (body : Nat → List Insn) (n : Nat) (nullable greedy : Bool) (least : Nat)
    (most : Option Nat) (base : Nat) : List Insn :=
  match most with
  | some most =>
    let start := base + least * n
    copies body n least base ++
      optionalCopies body n greedy (start + (most - least) * (n + 1)) (most - least) start
  | none =>
    if least == 0 then
      let stop := base + n + 2
      fork greedy (base + 1) stop :: body (base + 1) ++
        [if nullable then fork greedy (base + 1) stop else .jump base]
    else
      let last := base + (least - 1) * n
      copies body n least base ++ [fork greedy last (last + n + 1)]

mutual

/-- Instructions of an expression from address `base` on. -/
def code : (base : Nat) → Expr → List Insn
  | _, .atom a => [.take a]
  | _, .anchor a => [.anchor a]
  | base, .sequence parts => codeOfParts base parts
  | base, .choice parts => codeOfChoice base (base + sizeOfChoice parts) parts
  | base, .group index body => .save (2 * index) :: code (base + 1) body ++ [.save (2 * index + 1)]
  | base, .repeated body least most greedy =>
    repetition (fun b => code b body) (size body) ((body.shape []).least == 0) greedy
      least most base
  | _, _ => []

def codeOfParts : (base : Nat) → List Expr → List Insn
  | _, [] => []
  | base, e :: es => code base e ++ codeOfParts (base + size e) es

def codeOfChoice : (base stop : Nat) → List Expr → List Insn
  | _, _, [] => []
  | base, _, [e] => code base e
  | base, stop, e :: es =>
    let next := base + size e + 2
    .split (base + 1) next :: code (base + 1) e ++ [.jump stop] ++ codeOfChoice next stop es

end

mutual

def checkBounds : Expr → Except BuildFault Unit
  | .sequence parts | .choice parts => checkBoundsOfList parts
  | .group _ body => checkBounds body
  | .repeated body least most _ => do
    if maxBound < least || maxBound < most.getD 0 || (most.any (· < least)) then
      .error .badRepeatBounds
    else checkBounds body
  | _ => .ok ()

def checkBoundsOfList : List Expr → Except BuildFault Unit
  | [] => .ok ()
  | e :: es => do
    checkBounds e
    checkBoundsOfList es

end

def build (e : Expr) : Except BuildFault (Array Insn) := do
  checkBounds e
  if maxSize < size e then .error .tooLarge
  else .ok (Insn.save 0 :: code 1 e ++ [Insn.save 1, Insn.accept]).toArray

abbrev Slots := List (Nat × Nat)

def Slots.get? (s : Slots) (slot : Nat) : Option Nat := (s.find? fun e => e.1 == slot).map Prod.snd

structure Thread where
  address : Nat
  place : Nat
  slots : Slots

def anchorHolds (a : Anchor) (chars : Array Char) (place : Nat) : Bool :=
  a.holds (if place == 0 then none else chars[place - 1]?) chars[place]?

/-- The ways on from a thread, in order of preference. -/
def Thread.next (t : Thread) (chars : Array Char) : Insn → List Thread
  | .take a =>
    match chars[t.place]? with
    | some c => if a.holds c then [⟨t.address + 1, t.place + 1, t.slots⟩] else []
    | none => []
  | .anchor a => if anchorHolds a chars t.place then [⟨t.address + 1, t.place, t.slots⟩] else []
  | .split a b => [⟨a, t.place, t.slots⟩, ⟨b, t.place, t.slots⟩]
  | .jump a => [⟨a, t.place, t.slots⟩]
  | .save slot => [⟨t.address + 1, t.place, (slot, t.place) :: t.slots⟩]
  | .accept => []

/-- Which pairs of an address and a place were visited; places are counted from `origin`, and none
further than `width` from it is reached. -/
structure Visits where
  origin : Nat
  width : Nat
  marks : Array Bool

namespace Visits

def none (addresses origin width : Nat) : Visits :=
  ⟨origin, width, Array.replicate (addresses * (width + 1)) false⟩

def index (v : Visits) (t : Thread) : Nat := t.address * (v.width + 1) + (t.place - v.origin)

def seen (v : Visits) (t : Thread) : Bool := v.marks[v.index t]?.getD false

def mark (v : Visits) (t : Thread) : Visits :=
  let k := v.index t
  { v with marks := v.marks.setIfInBounds k true }

end Visits

def follow (program : Array Insn) (chars : Array Char) :
    Nat → List Thread → Visits → Option Slots × Visits
  | 0, _, visits => (none, visits)
  | _, [], visits => (none, visits)
  | fuel + 1, t :: ts, visits =>
    if visits.seen t then follow program chars fuel ts visits
    else
      match program[t.address]? with
      | none => follow program chars fuel ts (visits.mark t)
      | some .accept => (some t.slots, visits)
      | some insn => follow program chars fuel (t.next chars insn ++ ts) (visits.mark t)

def rounds (program : Array Insn) (width : Nat) : Nat := 3 * (program.size + 1) * (width + 1) + 3

/-- The preferred match that starts at a place; no match is longer than `width`. -/
def matchAt (program : Array Insn) (chars : Array Char) (place width : Nat) : Option Slots :=
  (follow program chars (rounds program width) [⟨0, place, []⟩] (.none program.size place width)).1

def searchFrom (program : Array Insn) (chars : Array Char) :
    (count place : Nat) → Visits → Option Slots
  | 0, _, _ => none
  | count + 1, place, visits =>
    match follow program chars (rounds program visits.width) [⟨0, place, []⟩] visits with
    | (some slots, _) => some slots
    | (none, visits) => searchFrom program chars count (place + 1) visits

def search (program : Array Insn) (chars : Array Char) (place : Nat) : Option Slots :=
  let width := chars.size - place
  searchFrom program chars (width + 1) place (.none program.size place width)

def groupCount (program : Array Insn) : Nat :=
  program.foldl (fun n i => match i with
    | .save slot => max n (slot / 2 + 1)
    | _ => n) 1

end RegexDialect.Baseline.Automaton
