import RegexDialect.Proofs.Captures
import RegexDialect.Proofs.Declarations
import RegexDialect.Proofs.Patterns
import RegexDialect.Proofs.Reported

/-! The names that a pattern gathers against the groups that its matches report. The scan counts
openings of the source, the engine those of the rewritten text, and a match may report fewer than
the engine has read. -/
namespace RegexDialect

open Baseline

namespace Pattern

/-- Groups that the scan of a source declares although a question mark follows their parenthesis in
the end. -/
def exposed (source flags : Text) : Nat :=
  match Flags.parse flags with
  | .error _ => 0
  | .ok f =>
    match (scan Builtin.lookup source ⟨.start f, false⟩).1 with
    | .error _ => 0
    | .ok l => Segment.exposed l

section Made

variable {source flags text : Text} {position : Nat} {sticky : Bool} {p : Pattern} {m : Match}

end Made

end Pattern
end RegexDialect
