import RegexDialect.Baseline.Interface
import RegexDialect.Baseline.Machine
import RegexDialect.Baseline.Reader

/-! The baseline engine: a pattern text is read, checked, and built for the linear automaton or,
where that is not enough, for the backtracking machine. -/
namespace RegexDialect.Baseline

inductive Program
  | linear (program : Array Automaton.Insn)
  | backtracking (program : Machine.Program) (limit : Nat)

namespace Program

def defaultLimit : Nat := 1000000

def build (text : Text) (limit : Option Nat) : Except BuildFault Program := do
  let (e, notes) ← Reader.read text
  let _ ← e.checkReferences 0
  if (e.shape notes.references).hard then
    let program ← Machine.build notes.references notes.groups e
    .ok (.backtracking program (limit.getD defaultLimit))
  else
    let program ← Automaton.build e
    .ok (.linear program)

def offsets : Text → (start : Nat) → List Nat
  | [], n => [n]
  | c :: r, n => n :: offsets r (n + c.utf8Size)

/-- The span between two saved places; the start is never after the end. -/
def spanOf (offsets : Array Nat) (start stop : Option Nat) : Option Span := do
  let i ← start
  let j ← stop
  let a ← offsets[i]?
  let b ← offsets[j]?
  some ⟨min a b, b⟩

def spans (offsets : Array Nat) (slot : Nat → Option Nat) (count : Nat) : Groups :=
  (List.range count).map fun g => spanOf offsets (slot (2 * g)) (slot (2 * g + 1))

def search (program : Program) (text : Text) (position : Nat) :
    Except SearchFault (Option Groups) :=
  let chars := text.toArray
  let offsets := (offsets text 0).toArray
  let place := (Text.upTo text position).length
  match program with
  | linear p =>
    .ok ((Automaton.search p chars place).map fun s =>
      spans offsets s.get? (Automaton.groupCount p))
  | backtracking p limit =>
    (Machine.search p chars place limit).map fun found =>
      found.map fun slots => spans offsets (fun k => (slots[k]?).join) p.groups

end Program

def engine : Engine where
  build text limit := (Program.build text limit).map fun p => ⟨p.search⟩

end RegexDialect.Baseline
