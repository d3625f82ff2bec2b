import RegexDialect.Proofs.AnchoredReading
import RegexDialect.Proofs.Relocation
import RegexDialect.Proofs.Reported
import RegexDialect.Proofs.RowSearch

/-! Tying an expression to the start of the text, in the linear automaton. The instructions are
those of the expression by itself, behind one more at their start, and a search that begins at the
start of the text follows the same threads. -/
namespace RegexDialect.Baseline
namespace Automaton

section Rounds

variable {program : Array Insn} {chars : Array Char} {fuel fuel' : Nat} {t : Thread}
  {ts : List Thread} {v : Visits}

structure Visits.Fits (v : Visits) (program : Array Insn) (chars : Array Char) : Prop where
  size : v.marks.size = program.size * (v.width + 1)
  reach : chars.size ≤ v.origin + v.width

theorem Visits.Fits.none (program : Array Insn) {place : Nat} (h : place ≤ chars.size) :
    (Visits.none program.size place (chars.size - place)).Fits program chars where
  size := by simp [Visits.none]
  reach := by simp only [Visits.none]; omega

theorem Visits.Fits.mark (h : v.Fits program chars) (t : Thread) :
    (v.mark t).Fits program chars where
  size := by simpa [Visits.mark] using h.size
  reach := h.reach

end Rounds

def Thread.shift (k : Nat) (t : Thread) : Thread := { t with address := t.address + k }

section Placed

variable {head head' body : List Insn} {chars : Array Char} {t : Thread} {ts : List Thread}
  {v v' : Visits} {k k' : Nat}

/-- The visits of two programs with the same body are alike there. -/
structure Visits.Alike (k k' : Nat) (v v' : Visits) : Prop where
  origin : v.origin = v'.origin
  width : v.width = v'.width
  marks : ∀ i, v.marks[i + k * (v.width + 1)]? = v'.marks[i + k' * (v'.width + 1)]?

theorem index_shift (v : Visits) (t : Thread) (k : Nat) :
    v.index (t.shift k) = v.index t + k * (v.width + 1) := by
  simp only [Visits.index, Thread.shift, Nat.add_mul]
  omega

theorem Visits.Alike.index (h : Visits.Alike k k' v v') (t : Thread) : v.index t = v'.index t := by
  simp only [Visits.index, h.origin, h.width]

theorem Visits.Alike.seen (h : Visits.Alike k k' v v') (t : Thread) :
    v.seen (t.shift k) = v'.seen (t.shift k') := by
  rw [Visits.seen, Visits.seen, index_shift, index_shift, h.marks, h.index]

theorem Visits.Alike.mark (h : Visits.Alike k k' v v') (t : Thread) :
    Visits.Alike k k' (v.mark (t.shift k)) (v'.mark (t.shift k')) where
  origin := h.origin
  width := h.width
  marks i := by
    have hsame := h.marks i
    simp only [Visits.mark, index_shift, Array.getElem?_setIfInBounds, Nat.add_right_cancel_iff]
    rw [h.index t]
    by_cases hi : v'.index t = i
    · rw [← hi] at hsame
      have hout : v.marks.size ≤ v'.index t + k * (v.width + 1) ↔
          v'.marks.size ≤ v'.index t + k' * (v'.width + 1) := by
        rw [← Array.getElem?_eq_none_iff, hsame, Array.getElem?_eq_none_iff]
      have hin : v'.index t + k * (v.width + 1) < v.marks.size ↔ v'.index t + k' * (v'.width + 1) <
          v'.marks.size := by
        omega
      rw [if_pos hi, if_pos hi]
      simp only [hin]
    · rw [if_neg hi, if_neg hi]
      exact hsame

end Placed

section Anchored

variable {e : Expr} {p p' : Array Insn} {body : List Insn} {chars : Array Char} {slots : Slots}

end Anchored

end Automaton
end RegexDialect.Baseline
