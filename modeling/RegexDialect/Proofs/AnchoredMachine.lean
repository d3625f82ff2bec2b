import RegexDialect.Proofs.AnchoredReading
import RegexDialect.Proofs.AnchoredAutomaton
import RegexDialect.Proofs.Relocation

/-! Tying an expression to the start of the text, in the backtracking machine. Behind the anchor the
machine does what it does for the expression by itself, with all addresses one further; and where it
goes on to later places it finds nothing, so that a match is one of the expression from the first
place. -/
namespace RegexDialect.Baseline
namespace Machine

/-- What comes of one instruction: another one to carry out, or the end of the search. -/
inductive Progress
  | on (s : State) (stack : List State) (height budget : Nat)
  | done (r : Except SearchFault (Option (Array (Option Nat))))

def resume (stack : List State) (height budget : Nat) : Progress :=
  match stack, budget with
  | [], _ => .done (.ok none)
  | _, 0 => .done (.error .backtrackLimit)
  | a :: rest, b + 1 => .on a rest (height - 1) b

def Move.progress (stack : List State) (height budget : Nat) : Move → Progress
  | .go s => .on s stack height budget
  | .branch s a =>
    if maxHeight ≤ height then .done (.error .stackLimit)
    else .on s (a :: stack) (height + 1) budget
  | .fail => resume stack height budget
  | .cut h s => .on s (stack.drop (height - h)) (min h height) budget
  | .failTo address => resume (dropTo address stack height).1 (dropTo address stack height).2 budget
  | .finish slots => .done (.ok (some slots))

def advance (insns : Array Insn) (chars : Array Char) (origin : Nat) (s : State)
    (stack : List State) (height budget : Nat) : Progress :=
  match insns[s.address]? with
  | none => resume stack height budget
  | some i => (s.step chars origin height i).progress stack height budget

def Progress.run (program : Program) (chars : Array Char) (origin fuel : Nat) :
    Progress → Except SearchFault (Option (Array (Option Nat)))
  | on s stack height budget => Machine.run program chars origin fuel s stack height budget
  | done r => r

section Run

variable {program : Program} {chars : Array Char} {origin fuel fuel' : Nat} {s : State}
  {stack : List State}
  {height budget : Nat} {r : Option (Array (Option Nat))}

end Run

def State.shift (k : Nat) (s : State) : State := { s with address := s.address + k }

def Move.shift (k : Nat) : Move → Move
  | .go s => .go (s.shift k)
  | .branch s a => .branch (s.shift k) (a.shift k)
  | .fail => .fail
  | .cut h s => .cut h (s.shift k)
  | .failTo address => .failTo (address + k)
  | .finish slots => .finish slots

section Shift

variable {chars : Array Char} {origin height k : Nat}

end Shift

section Placed

variable {head head' body : List Insn} {chars : Array Char} {origin k k' : Nat}

/-- The stack of a search in a placed body: alternatives of the body above the one that goes on to
later places, unless that one has been dropped. -/
def stackOver (first : State) (k : Nat) (alternatives : List State) (kept : Bool) : List State :=
  alternatives.map (State.shift k) ++ if kept then [first] else []

/-- What comes of one instruction in two programs with the same body: the same at other addresses,
or the end of the alternatives of the body. -/
inductive Progress.Alike (first : State) (k k' : Nat) : Progress → Progress → Prop
  | on (s : State) (alternatives : List State) (kept : Bool) (height budget : Nat) :
    Alike first k k' (.on (s.shift k) (stackOver first k alternatives kept) height budget)
      (.on (s.shift k') (stackOver first k' alternatives kept) height budget)
  | later (height budget : Nat) : Alike first k k' (.on first [] height budget)
    (.on first [] height budget)
  | done (r : Except SearchFault (Option (Array (Option Nat)))) :
    Alike first k k' (.done r) (.done r)

variable {first : State} {kept : Bool} {height budget : Nat}

end Placed

section Anchored

variable {referenced : List Nat} {groups : Nat} {e : Expr} {p p' : Program} {body : List Insn}
  {chars : Array Char}

/-- Where the machine stands when it looks for a match at a later place. -/
inductive Scans (chars : Array Char) : State → List State → Prop
  | skip (place : Nat) (slots : Array (Option Nat)) (marks : List Nat) :
    Scans chars ⟨1, place, slots, marks⟩ []
  | back {place : Nat} (slots : Array (Option Nat)) (marks : List Nat)
    (h : 0 < place ∧ place ≤ chars.size) :
    Scans chars ⟨2, place, slots, marks⟩ []
  | attempt {place : Nat} (slots : Array (Option Nat)) (marks : List Nat)
    (h : 0 < place ∧ place ≤ chars.size) :
    Scans chars ⟨0, place, slots, marks⟩ []
  | save {place : Nat} (slots : Array (Option Nat)) (marks : List Nat)
    (h : 0 < place ∧ place ≤ chars.size) :
    Scans chars ⟨3, place, slots, marks⟩ [⟨1, place, slots, marks⟩]
  | anchor {place : Nat} (later : Nat) (slots slots' : Array (Option Nat)) (marks marks' : List Nat)
    (h : 0 < place ∧ place ≤ chars.size) :
    Scans chars ⟨4, place, slots, marks⟩ [⟨1, later, slots', marks'⟩]

/-- The search goes on to later places, or it ends without a match. -/
inductive Progress.Scans (chars : Array Char) : Progress → Prop
  | on {s : State} {stack : List State} (h : Machine.Scans chars s stack) (height budget : Nat) :
    Scans chars (.on s stack height budget)
  | done {r : Except SearchFault (Option (Array (Option Nat)))} (h : ∀ x, r ≠ .ok (some x)) :
    Scans chars (.done r)

end Anchored

end Machine
end RegexDialect.Baseline
