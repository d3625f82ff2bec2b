import RegexDialect.Baseline.Engine
import RegexDialect.Proofs.Brackets

/-! How many groups a match of the baseline engine reports. The backtracking machine reports all
that the pattern opens; the linear automaton reports them up to the last one that its instructions
save. -/
namespace RegexDialect.Baseline

namespace Expr

mutual

/-- Groups that the linear automaton has instructions for: none in a repetition of zero times. -/
def written : Expr → List Nat
  | group index body => index :: written body
  | sequence parts | choice parts => writtenOfList parts
  | repeated body _ most _ => if most = some 0 then [] else written body
  | _ => []

def writtenOfList : List Expr → List Nat
  | [] => []
  | e :: es => written e ++ writtenOfList es

end

mutual

theorem written_subset : ∀ e : Expr, e.written ⊆ e.groups
  | .group index body => by
    rw [written, groups]
    exact List.cons_subset_cons _ (written_subset body)
  | .sequence parts => by
    rw [written, groups]
    exact writtenOfList_subset parts
  | .choice parts => by
    rw [written, groups]
    exact writtenOfList_subset parts
  | .repeated body _ most _ => by
    rw [written, groups]
    split
    · simp
    · exact written_subset body
  | .empty | .atom _ | .anchor _ | .look _ _ | .atomic _ | .backreference _ | .groupSet _
    | .conditional _ _ _ | .keepOut | .searchStart => by simp [written]

theorem writtenOfList_subset : ∀ l : List Expr, writtenOfList l ⊆ groupsOfList l
  | [] => by simp [writtenOfList]
  | e :: es => by
    rw [writtenOfList, groupsOfList]
    exact List.append_subset.2 ⟨List.subset_append_of_subset_left _ (written_subset e),
      List.subset_append_of_subset_right _ (writtenOfList_subset es)⟩

end

end Expr

namespace Automaton

theorem save_ne_fork (slot inside outside : Nat) (greedy : Bool) :
    Insn.save slot ≠ fork greedy inside outside := by
  cases greedy <;> simp [fork]

section Copies

variable {body : Nat → List Insn} {slot n : Nat} {P : Prop}

theorem mem_copies (h : ∀ base, Insn.save slot ∈ body base ↔ P) (k base : Nat) :
    Insn.save slot ∈ copies body n k base ↔ k ≠ 0 ∧ P := by
  induction k generalizing base with
  | zero => simp [copies]
  | succ k ih => simp [copies, h, ih]

theorem mem_optionalCopies (h : ∀ base, Insn.save slot ∈ body base ↔ P) (greedy : Bool)
    (stop k base : Nat) :
    Insn.save slot ∈ optionalCopies body n greedy stop k base ↔ k ≠ 0 ∧ P := by
  induction k generalizing base with
  | zero => simp [optionalCopies]
  | succ k ih => simp [optionalCopies, h, ih, save_ne_fork]

theorem mem_repetition (h : ∀ base, Insn.save slot ∈ body base ↔ P) {nullable greedy : Bool}
    {least : Nat} {most : Option Nat} (hb : most.any (· < least) = false) (base : Nat) :
    Insn.save slot ∈ repetition body n nullable greedy least most base ↔ most ≠ some 0 ∧ P := by
  cases most with
  | some most =>
    have hle : least ≤ most := by simpa using hb
    simp only [repetition, List.mem_append, mem_copies h, mem_optionalCopies h, ne_eq,
      Option.some.injEq]
    rw [← or_and_right]
    exact and_congr_left fun _ => by omega
  | none =>
    rw [repetition]
    split
    · have hlast : ∀ b :
          Bool,
            Insn.save slot ∉ [if b then fork greedy (base + 1) (base + n + 2) else .jump base] := by
        intro b
        cases b
        · simp
        · simpa using save_ne_fork _ _ _ _
      simp [h, hlast, save_ne_fork]
    · next hl =>
      simp only [List.mem_append, mem_copies h, List.mem_singleton, save_ne_fork, or_false]
      have hne : least ≠ 0 := by simpa using hl
      simp [hne]

end Copies

mutual

/-- The slots that the code of an expression saves are those of the groups that are written. -/
theorem mem_code (slot : Nat) : ∀ (e : Expr) (base : Nat), checkBounds e = .ok () →
    (Insn.save slot ∈ code base e ↔ slot / 2 ∈ e.written)
  | .group index body, base, h => by
    have ih := mem_code slot body (base + 1) (by simpa [checkBounds] using h)
    simp only [code, Expr.written, List.mem_cons, List.cons_append, List.mem_append, ih,
      Insn.save.injEq, List.not_mem_nil, or_false]
    constructor
    · rintro (h | h | h)
      · exact .inl (by omega)
      · exact .inr h
      · exact .inl (by omega)
    · rintro (h | h)
      · omega
      · exact .inr (.inl h)
  | .sequence parts, base, h => by
    rw [code, Expr.written]
    exact mem_codeOfParts slot parts base (by simpa [checkBounds] using h)
  | .choice parts, base, h => by
    rw [code, Expr.written]
    exact mem_codeOfChoice slot parts base _ (by simpa [checkBounds] using h)
  | .repeated body least most greedy, base, h => by
    rw [checkBounds] at h
    split at h
    · exact absurd h (by simp)
    · next hb =>
      simp only [Bool.or_eq_true, not_or, Bool.not_eq_true] at hb
      have ih := fun base => mem_code slot body base h
      rw [code, mem_repetition ih hb.2, Expr.written]
      split
      · next hz => simp [hz]
      · next hz => simp [hz]
  | .atom _, _, _ | .anchor _, _, _ | .empty, _, _ | .look _ _, _, _ | .atomic _, _,
    _ | .backreference _, _, _ |
    .groupSet _, _, _ | .conditional _ _ _, _, _ | .keepOut, _, _ | .searchStart, _, _ => by
      simp [code, Expr.written]

theorem mem_codeOfParts (slot : Nat) :
    ∀ (l : List Expr) (base : Nat), checkBoundsOfList l = .ok () →
    (Insn.save slot ∈ codeOfParts base l ↔ slot / 2 ∈ Expr.writtenOfList l)
  | [], _, _ => by simp [codeOfParts, Expr.writtenOfList]
  | e :: es, base, h => by
    rw [checkBoundsOfList] at h
    obtain ⟨⟨⟩, he, h⟩ := exists_of_bind_eq_ok h
    rw [codeOfParts, Expr.writtenOfList, List.mem_append, List.mem_append, mem_code slot e base he,
      mem_codeOfParts slot es _ h]

theorem mem_codeOfChoice (slot : Nat) :
    ∀ (l : List Expr) (base stop : Nat), checkBoundsOfList l = .ok () →
    (Insn.save slot ∈ codeOfChoice base stop l ↔ slot / 2 ∈ Expr.writtenOfList l)
  | [], _, _, _ => by simp [codeOfChoice, Expr.writtenOfList]
  | [e], base, stop, h => by
    rw [checkBoundsOfList] at h
    obtain ⟨⟨⟩, he, -⟩ := exists_of_bind_eq_ok h
    simp [codeOfChoice, Expr.writtenOfList, mem_code slot e base he]
  | e :: e' :: es, base, stop, h => by
    rw [checkBoundsOfList] at h
    obtain ⟨⟨⟩, he, h⟩ := exists_of_bind_eq_ok h
    rw [codeOfChoice, Expr.writtenOfList, List.mem_append]
    · simp [mem_code slot e _ he, mem_codeOfChoice slot (e' :: es) _ _ h]
    · exact List.cons_ne_nil e' es

end

end Automaton

namespace Program

end Program
end RegexDialect.Baseline
