import RegexDialect.Baseline.Automaton

/-! The backtracking machine. Parts of an expression that need no backtracking are handed to the
linear engine and matched as a whole; all else becomes instructions that keep a stack of
alternatives. -/
namespace RegexDialect.Baseline.Machine

inductive Insn
  | take (a : Atom)
  | anchor (a : Anchor)
  /-- Goes on at the first address and keeps the second as an alternative. -/
  | split (first second : Nat)
  | jump (target : Nat)
  | save (slot : Nat)
  | reset (slot : Nat)
  | restore (slot : Nat)
  /-- Starts a counted round, or leaves the repetition for `next`. -/
  | round (greedy : Bool) (least : Nat) (most : Option Nat) (next counter : Nat)
  /-- The same without an upper bound, for a body that can match nothing; an empty round past the
  least number fails. -/
  | roundNonEmpty (greedy : Bool) (least : Nat) (next counter start : Nat)
  | goBack (count : Nat)
  /-- Fails, and drops the alternatives down to the one that goes on after this instruction. -/
  | failOver
  | backreference (group : Nat)
  | groupSet (group : Nat)
  /-- A part matched as a whole by the linear engine; groups in it are set anew. -/
  | whole (program : Array Automaton.Insn) (groups : List Nat) (width : Option Nat)
  | beginAtomic
  | endAtomic
  | searchStart
  | finish

/-- Instructions, and the next free slot. -/
abbrev Emitted := List Insn × Nat

def single? : Expr → Option Insn
  | .atom a => some (.take a)
  | .anchor a => some (.anchor a)
  | _ => none

/-- Easy parts in a row, as tests one by one or as a whole. -/
def easyParts (parts : List Expr) : Except BuildFault (List Insn) :=
  match parts with
  | [] => .ok []
  | _ =>
    match parts.mapM single? with
    | some insns => .ok insns
    | none => do
      let e := Expr.ofParts parts
      let s := e.shape []
      let program ← Automaton.build e
      .ok [.whole program e.groups (if s.fixed then some s.least else none)]

def fork (greedy : Bool) (inside outside : Nat) : Insn :=
  if greedy then .split inside outside else .split outside inside

def isBlock (referenced : List Nat) (e : Expr) : Bool :=
  let s := e.shape referenced
  s.fixed && !s.hard

/-- How many parts of a sequence at its start, and of the others at its end, are matched as a whole.
After the last hard part of a sequence that nothing follows, the width does not matter. -/
def blocks (referenced : List Nat) (hard : Bool) (parts : List Expr) : Nat × Nat :=
  let before := (parts.takeWhile (isBlock referenced)).length
  let atEnd (e : Expr) : Bool := if hard then isBlock referenced e else !(e.shape referenced).hard
  (before, ((parts.drop before).reverse.takeWhile atEnd).length)

/-- A look-behind at an expression with the given shape and instructions. Its width must be
fixed. -/
def emitBehind (s : Shape) (body : (base slot : Nat) → Except BuildFault Emitted)
    (base slot : Nat) :
    Except BuildFault Emitted :=
  if s.fixed then do
    let (inner, after) ← body (base + 2) (slot + 1)
    .ok ([.save slot, .goBack s.least] ++ inner ++ [.restore slot], after)
  else .error .unevenLookBehind

def emitNotBehind (s : Shape) (body : (base slot : Nat) → Except BuildFault Emitted)
    (base slot : Nat) :
    Except BuildFault Emitted :=
  if s.fixed then do
    let (inner, slot) ← body (base + 2) slot
    .ok ([.split (base + 1) (base + inner.length + 3), .goBack s.least] ++ inner ++
      [.failOver], slot)
  else .error .unevenLookBehind

mutual

def emit (referenced : List Nat) :
    (hard : Bool) → Expr → (base slot : Nat) → Except BuildFault Emitted
  | hard, .sequence parts, base, slot =>
    let s := Expr.shapeSequence referenced parts
    if !hard && !s.hard then (easyParts parts).map (·, slot)
    else do
      let (before, after) := blocks referenced hard parts
      let head ← easyParts (parts.take before)
      let (middle, slot) ←
        emitParts referenced before (parts.length - before - after) parts (base + head.length) slot
      let tail ← easyParts (parts.drop (parts.length - after))
      .ok (head ++ middle ++ tail, slot)
  | hard, .choice parts, base, slot =>
    if !hard && !((Expr.choice parts).shape referenced).hard then
      (easyParts [.choice parts]).map (·, slot)
    else emitChoice referenced hard parts base slot
  | hard, .group index body, base, slot =>
    if !hard && !((Expr.group index body).shape referenced).hard then
      (easyParts [.group index body]).map (·, slot)
    else do
      let (inner, slot) ← emit referenced hard body (base + 1) slot
      .ok (.save (2 * index) :: inner ++ [.save (2 * index + 1)], slot)
  | hard, .repeated body least most greedy, base, slot =>
    let s := body.shape referenced
    if !hard && !s.hard then (easyParts [.repeated body least most greedy]).map (·, slot)
    else if least == 0 && most == some 1 then do
      let (inner, slot) ← emit referenced hard body (base + 1) slot
      .ok (fork greedy (base + 1) (base + 1 + inner.length) :: inner, slot)
    else if most.isNone && s.least == 0 then do
      let (inner, after) ← emit referenced true body (base + 2) (slot + 2)
      let next := base + 3 + inner.length
      .ok ([.reset slot, .roundNonEmpty greedy least next slot (slot + 1)] ++ inner ++
        [.jump (base + 1)], after)
    else if most.isNone && least == 0 then do
      let (inner, slot) ← emit referenced true body (base + 1) slot
      .ok (fork greedy (base + 1) (base + 2 + inner.length) :: inner ++ [.jump base], slot)
    else if most.isNone && least == 1 then do
      let (inner, slot) ← emit referenced true body base slot
      .ok (inner ++ [fork greedy base (base + inner.length + 1)], slot)
    else do
      let (inner, after) ← emit referenced true body (base + 2) (slot + 1)
      let next := base + 3 + inner.length
      .ok ([.reset slot, .round greedy least most next slot] ++ inner ++ [.jump (base + 1)], after)
  | _, .look .ahead body, base, slot => do
    let (inner, after) ← emit referenced false body (base + 1) (slot + 1)
    .ok (.save slot :: inner ++ [.restore slot], after)
  | _, .look .notAhead body, base, slot => do
    let (inner, slot) ← emit referenced false body (base + 1) slot
    .ok (.split (base + 1) (base + inner.length + 2) :: inner ++ [.failOver], slot)
  | _, .look .behind body, base, slot =>
    let s := body.shape referenced
    match s.fixed, body with
    | false, .choice parts => emitBehindChoice referenced parts base slot
    | _, body => emitBehind s (emit referenced false body) base slot
  | _, .look .notBehind body, base, slot =>
    let s := body.shape referenced
    match s.fixed, body with
    | false, .choice parts => emitNotBehindAll referenced parts base slot
    | _, body => emitNotBehind s (emit referenced false body) base slot
  | _, .atomic body, base, slot => do
    let (inner, slot) ← emit referenced false body (base + 1) slot
    .ok (.beginAtomic :: inner ++ [.endAtomic], slot)
  | hard, .conditional condition yes no, base, slot => do
    let (c, slot) ← emit referenced hard condition (base + 2) slot
    let (y, slot) ← emit referenced hard yes (base + 3 + c.length) slot
    let other := base + 4 + c.length + y.length
    let (n, slot) ← emit referenced hard no other slot
    .ok ([.beginAtomic, .split (base + 2) other] ++ c ++ [.endAtomic] ++ y ++
      [.jump (other + n.length)] ++ n, slot)
  | _, .atom a, _, slot => .ok ([.take a], slot)
  | _, .anchor a, _, slot => .ok ([.anchor a], slot)
  | _, .backreference group, _, slot => .ok ([.backreference group], slot)
  | _, .groupSet group, _, slot => .ok ([.groupSet group], slot)
  | _, .keepOut, _, slot => .ok ([.save 0], slot)
  | _, .searchStart, _, slot => .ok ([.searchStart], slot)
  | _, .empty, _, slot => .ok ([], slot)

/-- Parts of a sequence, `count` of them after the first `omitted`, all of which must keep their
alternatives. -/
def emitParts (referenced : List Nat) :
    (omitted count : Nat) → List Expr → (base slot : Nat) → Except BuildFault Emitted
  | _, _, [], _, slot => .ok ([], slot)
  | _, 0, _, _, slot => .ok ([], slot)
  | omitted + 1, count + 1, _ :: es, base, slot =>
    emitParts referenced omitted (count + 1) es base slot
  | 0, count + 1, e :: es, base, slot => do
    let (first, slot) ← emit referenced true e base slot
    let (rest, slot) ← emitParts referenced 0 count es (base + first.length) slot
    .ok (first ++ rest, slot)

def emitChoice (referenced : List Nat) (hard : Bool) :
    List Expr → (base slot : Nat) → Except BuildFault Emitted
  | [], _, slot => .ok ([], slot)
  | [e], base, slot => emit referenced hard e base slot
  | e :: es, base, slot => do
    let (first, slot) ← emit referenced hard e (base + 1) slot
    let next := base + 2 + first.length
    let (rest, slot) ← emitChoice referenced hard es next slot
    .ok (.split (base + 1) next :: first ++ [.jump (next + rest.length)] ++ rest, slot)

/-- A look-behind at alternatives, each of its own width. -/
def emitBehindChoice (referenced : List Nat) :
    List Expr → (base slot : Nat) → Except BuildFault Emitted
  | [], _, slot => .ok ([], slot)
  | [e], base, slot => emitBehind (e.shape referenced) (emit referenced false e) base slot
  | e :: es, base, slot => do
    let (first, slot) ← emitBehind (e.shape referenced) (emit referenced false e) (base + 1) slot
    let next := base + 2 + first.length
    let (rest, slot) ← emitBehindChoice referenced es next slot
    .ok (.split (base + 1) next :: first ++ [.jump (next + rest.length)] ++ rest, slot)

def emitNotBehindAll (referenced : List Nat) :
    List Expr → (base slot : Nat) → Except BuildFault Emitted
  | [], _, slot => .ok ([], slot)
  | e :: es, base, slot => do
    let (first, slot) ← emitNotBehind (e.shape referenced) (emit referenced false e) base slot
    let (rest, slot) ← emitNotBehindAll referenced es (base + first.length) slot
    .ok (first ++ rest, slot)

end

structure Program where
  insns : Array Insn
  slots : Nat
  groups : Nat

/-- The program of a whole expression with the given number of groups. It tries every place from the
start of the search on, and saves the start and end of the match. -/
def build (referenced : List Nat) (groups : Nat) (e : Expr) : Except BuildFault Program := do
  let (body, slots) ← emit referenced true e 4 (2 * (groups + 1))
  let start : List Insn := [.split 3 1, .take (.any true), .jump 0, .save 0]
  let stop : List Insn := [.save 1, .finish]
  .ok ⟨(start ++ body ++ stop).toArray, slots, groups + 1⟩

/-- Where the machine stands. `marks` holds the stack heights at which atomic parts began. -/
structure State where
  address : Nat
  place : Nat
  slots : Array (Option Nat)
  marks : List Nat

inductive Move
  | go (s : State)
  /-- Goes on with the first and keeps the second. -/
  | branch (s alternative : State)
  | fail
  /-- Goes on with the stack cut to a height. -/
  | cut (height : Nat) (s : State)
  /-- Fails after dropping alternatives down to the one at an address. -/
  | failTo (address : Nat)
  | finish (slots : Array (Option Nat))

namespace State

def slot (s : State) (k : Nat) : Option Nat := (s.slots[k]?).join

def set (s : State) (k : Nat) (v : Option Nat) : State :=
  { s with slots := s.slots.setIfInBounds k v }

def next (s : State) : State := { s with address := s.address + 1 }

def repeats (s : State) (chars : Array Char) (start stop : Nat) : Option Nat :=
  let n := stop - start
  if s.place + n ≤ chars.size && (List.range n).all fun i =>
    chars[start + i]? == chars[s.place + i]? then
    some (s.place + n)
  else none

/-- The state after a part matched by the linear engine: groups in it are set anew or emptied. -/
def afterWhole (s : State) (groups : List Nat) (found : Automaton.Slots) : State :=
  let s :=
    groups.foldl
      (fun s g => (s.set (2 * g) (found.get? (2 * g))).set (2 * g + 1) (found.get? (2 * g + 1))) s
  { s with address := s.address + 1, place := (found.get? 1).getD s.place }

/-- One instruction. `origin` is the place where the search began, `height` that of the stack. -/
def step (chars : Array Char) (origin height : Nat) (s : State) : Insn → Move
  | .take a =>
    match chars[s.place]? with
    | some c => if a.holds c then .go { s.next with place := s.place + 1 } else .fail
    | none => .fail
  | .anchor a => if Automaton.anchorHolds a chars s.place then .go s.next else .fail
  | .split a b => .branch { s with address := a } { s with address := b }
  | .jump a => .go { s with address := a }
  | .save k => .go (s.next.set k (some s.place))
  | .reset k => .go (s.next.set k (some 0))
  | .restore k => .go { s.next with place := (s.slot k).getD s.place }
  | .round greedy least most out counter =>
    let n := (s.slot counter).getD 0
    let leave := { s with address := out }
    if most == some n then .go leave
    else
      let s := s.set counter (some (n + 1))
      let leave := { s with address := out }
      if n < least then .go s.next else if greedy then .branch s.next leave
      else .branch leave s.next
  | .roundNonEmpty greedy least out counter start =>
    let n := (s.slot counter).getD 0
    if least < n && s.slot start == some s.place then .fail
    else
      let s := s.set counter (some (n + 1))
      if n < least then .go s.next
      else
        let s := s.set start (some s.place)
        let leave := { s with address := out }
        if greedy then .branch s.next leave else .branch leave s.next
  | .goBack n => if s.place < n then .fail else .go { s.next with place := s.place - n }
  | .failOver => .failTo (s.address + 1)
  | .backreference g =>
    match s.slot (2 * g), s.slot (2 * g + 1) with
    | some start, some stop =>
      match s.repeats chars start stop with
      | some place => .go { s.next with place := place }
      | none => .fail
    | _, _ => .fail
  | .groupSet g => if (s.slot (2 * g)).isSome then .go s.next else .fail
  | .whole program groups width =>
    match Automaton.matchAt program chars s.place
      (min (width.getD chars.size) (chars.size - s.place)) with
    | some found => .go (s.afterWhole groups found)
    | none => .fail
  | .beginAtomic => .go { s.next with marks := height :: s.marks }
  | .endAtomic =>
    match s.marks with
    | m :: ms => .cut m { s.next with marks := ms }
    | [] => .go s.next
  | .searchStart => if origin < s.place then .fail else .go s.next
  | .finish => .finish s.slots

end State

def maxHeight : Nat := 1000000

/-- Alternatives below the topmost one at an address. -/
def dropTo (address : Nat) : List State → Nat → List State × Nat
  | [], _ => ([], 0)
  | s :: ss, height =>
    if s.address == address then (ss, height - 1) else dropTo address ss (height - 1)

/-- Runs a program. `budget` is the number of times that it may still go back to an alternative. -/
def run (program : Program) (chars : Array Char) (origin : Nat) :
    Nat → State → (stack : List State) → (height budget : Nat) →
      Except SearchFault (Option (Array (Option Nat)))
  | 0, _, _, _, _ => .error .backtrackLimit
  | fuel + 1, s, stack, height, budget =>
    let resume (stack : List State) (height : Nat) :
      Except SearchFault (Option (Array (Option Nat))) :=
      match stack, budget with
      | [], _ => .ok none
      | _, 0 => .error .backtrackLimit
      | a :: rest, b + 1 => run program chars origin fuel a rest (height - 1) b
    match program.insns[s.address]? with
    | none => resume stack height
    | some insn =>
      match s.step chars origin height insn with
      | .go s => run program chars origin fuel s stack height budget
      | .branch s a =>
        if maxHeight ≤ height then .error .stackLimit
        else run program chars origin fuel s (a :: stack) (height + 1) budget
      | .fail => resume stack height
      | .cut h s => run program chars origin fuel s (stack.drop (height - h)) (min h height) budget
      | .failTo address =>
        let (stack, height) := dropTo address stack height
        resume stack height
      | .finish slots => .ok (some slots)

/-- Instructions that a search may carry out. Only going back is limited in the engine; no search
gets this far. -/
def rounds : Nat := Nat.pow 2 62

def search (program : Program) (chars : Array Char) (origin limit : Nat) :
    Except SearchFault (Option (Array (Option Nat))) :=
  run program chars origin rounds
    ⟨0, origin, Array.replicate program.slots none, []⟩ [] 0 limit

end RegexDialect.Baseline.Machine
