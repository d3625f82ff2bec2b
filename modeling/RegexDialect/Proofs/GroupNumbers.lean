import RegexDialect.Proofs.AnchoredReading
import RegexDialect.Proofs.Captures

/-! The numbers of groups. Zero stands for the whole match, and no group of an expression that is
read has it. -/
namespace RegexDialect.Baseline

def Results {ε α : Type} (P : α → Prop) (x : Except ε α) : Prop := ∀ a, x = .ok a → P a

namespace Results

variable {ε α β : Type} {P Q : α → Prop} {R : β → Prop} {x : Except ε α}

theorem ok {a : α} (h : P a) : Results P (.ok a : Except ε α) := by
  intro b hb
  obtain rfl := Except.ok.inj hb
  exact h

theorem error (e : ε) : Results P (.error e : Except ε α) := by
  intro a ha
  exact absurd ha (by simp)

theorem bind {f : α → Except ε β} (h : Results P x) (hf : ∀ a, P a → Results R (f a)) :
    Results R (x >>= f) := by
  intro b hb
  obtain ⟨a, ha, hb⟩ := exists_of_bind_eq_ok hb
  exact hf a (h a ha) b hb

theorem bind_any {f : α → Except ε β} (hf : ∀ a, Results R (f a)) : Results R (x >>= f) := by
  intro b hb
  obtain ⟨a, -, hb⟩ := exists_of_bind_eq_ok hb
  exact hf a b hb

end Results

namespace Reader

section Numbers

abbrev Numbers : Except BuildFault (Step Expr) → Prop := Results fun x => 0 ∉ x.1.groups

/-- What holds of all readers with the same fuel: groups are numbered from one on. -/
structure Numbering (fuel : Nat) : Prop where
  alternatives : ∀ {size depth : Nat} {t : Text} {n : Notes},
    Numbers (alternatives size fuel depth t n)
  moreBranches : ∀ {size depth : Nat} {t : Text} {n : Notes},
    Results (fun x => 0 ∉ Expr.groupsOfList x.1) (moreBranches size fuel depth t n)
  branch : ∀ {size depth : Nat} {t : Text} {n : Notes} {done : List Expr},
    0 ∉ Expr.groupsOfList done.reverse → Numbers (branch size fuel depth t n done)
  piece : ∀ {size depth : Nat} {t : Text} {n : Notes}, Numbers (piece size fuel depth t n)
  unit : ∀ {size depth : Nat} {t : Text} {n : Notes}, Numbers (unit size fuel depth t n)
  groupOpening : ∀ {size depth : Nat} {t : Text} {n : Notes},
    Numbers (groupOpening size fuel depth t n)
  groupBody : ∀ {size depth : Nat} {o : Opening} {t : Text} {n : Notes},
    (o = .capture → 0 < n.groups) → Numbers (groupBody size fuel depth o t n)
  conditional : ∀ {size depth : Nat} {t : Text} {n : Notes},
    Numbers (conditional size fuel depth t n)

theorem Numbering.zero : Numbering 0 := by
  constructor
  · intros
    rw [Reader.alternatives.eq_1]
    exact .error _
  · intros
    rw [Reader.moreBranches.eq_1]
    exact .error _
  · intros
    rw [Reader.branch.eq_1]
    exact .error _
  · intros
    rw [Reader.piece.eq_1]
    exact .error _
  · intros
    rw [Reader.unit.eq_1]
    exact .error _
  · intros
    rw [Reader.groupOpening.eq_1]
    exact .error _
  · intros
    rw [Reader.groupBody.eq_1]
    exact .error _
  · intros
    rw [Reader.conditional.eq_1]
    exact .error _

variable {size fuel depth : Nat} {t : Text} {n : Notes}

theorem Numbering.of_alternatives (ih : Numbering fuel) :
    Numbers (Reader.alternatives size (fuel + 1) depth t n) := by
  rw [Reader.alternatives]
  refine (ih.branch (by simp [Expr.groupsOfList])).bind ?_
  rintro ⟨first, t, n⟩ hfirst
  refine ih.moreBranches.bind ?_
  rintro ⟨rest, t, n⟩ hrest
  dsimp only
  split
  · split
    · exact .error _
    · exact .ok hfirst
  · refine .ok ?_
    simp only [Expr.groups, Expr.groupsOfList, List.mem_append, not_or]
    exact ⟨hfirst, hrest⟩

theorem Numbering.of_moreBranches (ih : Numbering fuel) :
    Results (fun x => 0 ∉ Expr.groupsOfList x.1)
      (Reader.moreBranches size (fuel + 1) depth t n) := by
  rw [Reader.moreBranches]
  refine .bind_any ?_
  intro u
  split
  · refine (ih.branch (by simp [Expr.groupsOfList])).bind ?_
    rintro ⟨first, t, n⟩ hfirst
    refine ih.moreBranches.bind ?_
    rintro ⟨rest, t, n⟩ hrest
    refine .ok ?_
    simp only [Expr.groupsOfList, List.mem_append, not_or]
    exact ⟨hfirst, hrest⟩
  · exact .ok (by simp [Expr.groupsOfList])

theorem Numbering.of_branch {done : List Expr} (ih : Numbering fuel)
    (hdone : 0 ∉ Expr.groupsOfList done.reverse) :
    Numbers (Reader.branch size (fuel + 1) depth t n done) := by
  have hparts : 0 ∉ (Expr.ofParts done.reverse).groups := by rwa [Expr.groups_ofParts]
  rw [Reader.branch]
  split
  · exact .ok hparts
  · refine ih.piece.bind ?_
    rintro ⟨e, rest, m⟩ he
    dsimp only
    split
    · exact .ok hparts
    · refine ih.branch ?_
      split
      · exact hdone
      · rw [List.reverse_cons, Expr.groupsOfList_append, List.mem_append, not_or]
        exact ⟨hdone, by simpa [Expr.groupsOfList] using he⟩

theorem numbers_quantified {e : Expr} (he : 0 ∉ e.groups) (least : Nat) (most : Option Nat)
    (n : Notes) (t : Text) :
    Numbers (quantified e least most n t) := by
  rw [quantified_eq]
  refine .ok ?_
  dsimp only
  split
  · simpa [Expr.groups] using he
  · simpa [Expr.groups] using he

theorem Numbering.of_piece (ih : Numbering fuel) :
    Numbers (Reader.piece size (fuel + 1) depth t n) := by
  rw [Reader.piece]
  refine ih.unit.bind ?_
  rintro ⟨e, t, n⟩ he
  refine .bind_any ?_
  intro u
  dsimp only
  split
  · exact .ok he
  · split
    · exact .error _
    · refine .bind_any ?_
      intro v
      exact numbers_quantified he _ _ n v

theorem Numbering.of_unit (ih : Numbering fuel) :
    Numbers (Reader.unit size (fuel + 1) depth t n) := by
  have hnone : ∀ {e : Expr} {r : Text}, e.groups = [] → Numbers (.ok (e, r, n)) := by
    intro e r he
    refine .ok ?_
    rw [he]
    simp
  rw [unit_succ]
  refine .bind_any ?_
  intro u
  fun_cases unitAt size fuel depth n u with
  | case1 => exact hnone rfl
  | case2 r => exact hnone rfl
  | case3 r => exact hnone rfl
  | case4 r => exact hnone rfl
  | case5 r => exact ih.groupOpening
  | case6 r => exact .error _
  | case7 r =>
    rintro ⟨e, rest, m⟩ h
    rw [(of_escape h).groups]
    simp
  | case8 r =>
    refine .bind_any ?_
    intro x
    exact hnone rfl
  | case9 c r => exact hnone rfl
  | case10 c r => exact hnone rfl

theorem Numbering.of_groupBody {o : Opening} (ih : Numbering fuel)
    (ho : o = .capture → 0 < n.groups) :
    Numbers (Reader.groupBody size (fuel + 1) depth o t n) := by
  rw [Reader.groupBody]
  refine ih.alternatives.bind ?_
  rintro ⟨e, rest, m⟩ he
  refine .bind_any ?_
  intro u
  refine .ok ?_
  cases o with
  | capture =>
    have hpos := ho rfl
    simp only [Opening.wrap, Expr.groups, List.mem_cons, not_or]
    exact ⟨by omega, he⟩
  | look kind => simpa [Opening.wrap, Expr.groups] using he
  | atomic => simpa [Opening.wrap, Expr.groups] using he

theorem numbers_condition {f : Unit → Except BuildFault (Reader.Step Expr)} (hf : Numbers (f ())) :
    Numbers (Reader.condition size t n f) := by
  have hreference : ∀ x, Numbers (conditionOf x) := by
    rintro x ⟨e, rest, m⟩ h
    obtain ⟨k, -, rfl⟩ := exists_of_conditionOf h
    simp [Expr.groups]
  fun_cases Reader.condition size t n f with
  | case1 => exact .error _
  | case2 r => exact hreference _
  | case3 r => exact hreference _
  | case4 c r => exact hreference _
  | case5 c r => exact hf

theorem Numbering.of_conditional (ih : Numbering fuel) :
    Numbers (Reader.conditional size (fuel + 1) depth t n) := by
  rw [conditional_succ]
  refine (numbers_condition ih.alternatives).bind ?_
  rintro ⟨condition, t, n⟩ hcondition
  refine .bind_any ?_
  intro u
  refine ih.alternatives.bind ?_
  rintro ⟨body, rest, m⟩ hbody
  unfold conditionalEnd
  split
  · split
    · refine .bind_any ?_
      intro v
      exact .ok (by simp [Expr.groups])
    · exact .error _
  · refine .bind_any ?_
    intro v
    refine .ok ?_
    rw [groups_conditionalOf, List.mem_append, not_or]
    exact ⟨hcondition, hbody⟩

theorem Numbering.of_groupOpening (ih : Numbering fuel) :
    Numbers (Reader.groupOpening size (fuel + 1) depth t n) := by
  have hnamed : ∀ r, Numbers (namedGroup size fuel depth r n) := by
    intro r
    unfold namedGroup
    split
    · exact ih.groupBody fun _ => Nat.succ_pos _
    · exact .error _
  rw [groupOpening_succ]
  refine .bind_any ?_
  intro u
  fun_cases openingAt size fuel depth n u with
  | case1 r => exact ih.groupBody (by simp)
  | case2 r => exact ih.groupBody (by simp)
  | case3 r => exact ih.groupBody (by simp)
  | case4 r => exact ih.groupBody (by simp)
  | case5 r => exact hnamed r
  | case6 r => exact hnamed r
  | case7 r =>
    refine .bind_any ?_
    intro x
    exact .ok (by simp [Expr.groups])
  | case8 r => exact ih.groupBody (by simp)
  | case9 r => exact ih.conditional
  | case10 r =>
    refine .bind_any ?_
    rintro ⟨ending, rest, m⟩
    cases ending with
    | group => exact .ok (by simp [Expr.groups])
    | content =>
      refine ih.alternatives.bind ?_
      rintro ⟨e, rest, m⟩ he
      refine .bind_any ?_
      intro v
      exact .ok he
  | case11 u => exact ih.groupBody fun _ => Nat.succ_pos _

theorem Numbering.all (fuel : Nat) : Numbering fuel := by
  induction fuel with
  | zero => exact .zero
  | succ fuel ih =>
    constructor
    · exact ih.of_alternatives
    · exact ih.of_moreBranches
    · exact ih.of_branch
    · exact ih.of_piece
    · exact ih.of_unit
    · exact ih.of_groupOpening
    · exact ih.of_groupBody
    · exact ih.of_conditional

end Numbers

end Reader

end RegexDialect.Baseline
