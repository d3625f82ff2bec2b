import RegexDialect.Proofs.Enclosed
import RegexDialect.Proofs.ReaderSteps
import RegexDialect.Rule.Registry

/-! Reading a text inside a group. The readers of the text by itself and of the text with the
closing parenthesis of the group behind it go through the same steps, so that where both texts are
accepted they are the same expression. -/
namespace RegexDialect.Baseline
namespace Reader

section Step

/-- What holds of all readers with the same fuel: whatever the fuel, the size and the depth of the
other reader, what both read is the same. -/
structure Tandem (fuel : Nat) : Prop where
  alternatives : ∀ {size size' fuel' depth depth' : Nat} {t s : Text} {n : Notes}, Enclosed t s →
    Parallel SameStep (alternatives size fuel depth t n) (alternatives size' fuel' depth' s n)
  moreBranches : ∀ {size size' fuel' depth depth' : Nat} {t s : Text} {n : Notes}, Enclosed t s →
    Parallel SameStep (moreBranches size fuel depth t n) (moreBranches size' fuel' depth' s n)
  branch : ∀ {size size' fuel' depth depth' : Nat} {t s : Text} {n : Notes} {done : List Expr},
    Enclosed t s →
    Parallel SameStep (branch size fuel depth t n done) (branch size' fuel' depth' s n done)
  piece : ∀ {size size' fuel' depth depth' : Nat} {t s : Text} {n : Notes}, Enclosed t s →
    Parallel SameStep (piece size fuel depth t n) (piece size' fuel' depth' s n)
  unit : ∀ {size size' fuel' depth depth' : Nat} {t s : Text} {n : Notes}, Enclosed t s →
    Parallel SameStep (unit size fuel depth t n) (unit size' fuel' depth' s n)
  groupOpening : ∀ {size size' fuel' depth depth' : Nat} {t s : Text} {n : Notes}, Enclosed t s →
    Parallel SameStep (groupOpening size fuel depth t n) (groupOpening size' fuel' depth' s n)
  groupBody : ∀ {size size' fuel' depth depth' : Nat} {o : Opening} {t s : Text} {n : Notes},
    Enclosed t s →
    Parallel SameStep (groupBody size fuel depth o t n) (groupBody size' fuel' depth' o s n)
  conditional : ∀ {size size' fuel' depth depth' : Nat} {t s : Text} {n : Notes}, Enclosed t s →
    Parallel SameStep (conditional size fuel depth t n) (conditional size' fuel' depth' s n)

theorem Tandem.zero : Tandem 0 := by
  constructor
  · intros
    rw [Reader.alternatives.eq_1]
    exact .error_left _ _
  · intros
    rw [Reader.moreBranches.eq_1]
    exact .error_left _ _
  · intros
    rw [Reader.branch.eq_1]
    exact .error_left _ _
  · intros
    rw [Reader.piece.eq_1]
    exact .error_left _ _
  · intros
    rw [Reader.unit.eq_1]
    exact .error_left _ _
  · intros
    rw [Reader.groupOpening.eq_1]
    exact .error_left _ _
  · intros
    rw [Reader.groupBody.eq_1]
    exact .error_left _ _
  · intros
    rw [Reader.conditional.eq_1]
    exact .error_left _ _

variable {size size' fuel fuel' depth depth' : Nat} {t s : Text} {n : Notes}

theorem Tandem.of_alternatives (ih : Tandem fuel) (h : Enclosed t s) :
    Parallel SameStep (Reader.alternatives size (fuel + 1) depth t n)
      (Reader.alternatives size' fuel' depth' s n) := by
  rcases fuel' with _ | fuel'
  · rw [Reader.alternatives.eq_1]
    exact .error_right _ _
  · rw [Reader.alternatives, Reader.alternatives]
    refine (ih.branch h).bind ?_
    rintro _ _ ⟨first, n, h⟩
    refine (ih.moreBranches h).bind ?_
    rintro _ _ ⟨rest, n, h⟩
    dsimp only
    split
    · split
      · exact .error_left _ _
      · exact .ok (.intro first n h)
    · exact .ok (.intro (Expr.choice (first :: rest)) n h)

theorem Tandem.of_moreBranches (ih : Tandem fuel) (h : Enclosed t s) :
    Parallel SameStep (Reader.moreBranches size (fuel + 1) depth t n)
      (Reader.moreBranches size' fuel' depth' s n) := by
  rcases fuel' with _ | fuel'
  · rw [Reader.moreBranches.eq_1]
    exact .error_right _ _
  · rw [Reader.moreBranches, Reader.moreBranches]
    refine (parallel_skipIn h).bind ?_
    intro u v huv
    rcases u with _ | ⟨c, u⟩
    · rcases huv.of_nil with rfl | rfl
      · exact .ok (.intro [] n huv)
      · exact .ok (.intro [] n huv)
    · obtain rfl := huv.of_cons
      by_cases hbar : c = '|'
      · subst hbar
        refine (ih.branch (.closed u)).bind ?_
        rintro _ _ ⟨first, n, h⟩
        refine (ih.moreBranches h).bind ?_
        rintro _ _ ⟨rest, n, h⟩
        exact .ok (.intro (first :: rest) n h)
      · split
        · next r hr => exact absurd (List.cons.inj hr).1 hbar
        · split
          · next r hr => exact absurd (List.cons.inj hr).1 hbar
          · exact .ok (.intro [] n huv)

theorem skipIn_closing (n : Notes) : skipIn n [')'] = .ok [')'] := by
  unfold skipIn
  cases n.mode.spacing <;> rfl

theorem piece_closing {x : Reader.Step Expr} (h : Reader.piece size fuel depth [')'] n = .ok x) :
    x = (.empty, [')'], n) := by
  rcases fuel with _ | _ | fuel
  · exact absurd h (by simp [Reader.piece])
  · exact absurd h (by simp [Reader.piece, Reader.unit, bind, Except.bind])
  · have hunit : Reader.unit size (fuel + 1) depth [')'] n = .ok (.empty, [')'], n) := by
      rw [Reader.unit, skipIn_closing]
      rfl
    rw [Reader.piece, hunit] at h
    dsimp only [bind, Except.bind] at h
    rw [skipIn_closing] at h
    exact (Except.ok.inj h).symm

theorem Tandem.of_branch {done : List Expr} (ih : Tandem fuel) (h : Enclosed t s) :
    Parallel SameStep (Reader.branch size (fuel + 1) depth t n done)
      (Reader.branch size' fuel' depth' s n done) := by
  rcases fuel' with _ | fuel'
  · rw [Reader.branch.eq_1]
    exact .error_right _ _
  · have hnil : ∀ size fuel depth, Reader.branch size (fuel + 1) depth [] n done =
        .ok (.ofParts done.reverse, [], n) := by
      intro size fuel depth
      rw [Reader.branch]
      rfl
    rcases t with _ | ⟨c, t⟩
    · rw [hnil]
      rcases h.of_nil with rfl | rfl
      · intro a b ha hb
        obtain rfl := Except.ok.inj ha
        rw [Reader.branch] at hb
        obtain ⟨x, hx, hb⟩ := exists_of_bind_eq_ok hb
        obtain rfl := piece_closing hx
        obtain rfl := Except.ok.inj hb
        exact .intro _ n h
      · rw [hnil]
        exact .ok (.intro _ n h)
    · obtain rfl := h.of_cons
      rw [Reader.branch, Reader.branch]
      refine (ih.piece h).bind ?_
      rintro _ _ ⟨e, m, hrest⟩
      dsimp only
      rw [hrest.beq_length]
      split
      · exact .ok (.intro _ m h)
      · exact ih.branch hrest

/-- A sign that is not a parenthesis is taken from both texts or from neither. -/
theorem enclosed_takeSign (sign : Char) (hsign : sign ≠ ')') (h : Enclosed t s) :
    (takeSign sign s).1 = (takeSign sign t).1 ∧
      Enclosed (takeSign sign t).2 (takeSign sign s).2 := by
  rcases t with _ | ⟨c, t⟩
  · rcases h.of_nil with rfl | rfl
    · have hclosing : takeSign sign [')'] = (false, [')']) := if_neg fun h => hsign h.symm
      rw [hclosing]
      exact ⟨rfl, h⟩
    · exact ⟨rfl, h⟩
  · obtain rfl := h.of_cons
    by_cases hc : c = sign
    · rw [takeSign, takeSign, if_pos hc, if_pos hc]
      exact ⟨rfl, .closed t⟩
    · rw [takeSign, takeSign, if_neg hc, if_neg hc]
      exact ⟨rfl, h⟩

theorem parallel_quantified (e : Expr) (least : Nat) (most : Option Nat) (n : Notes)
    (h : Enclosed t s) :
    Parallel SameStep (quantified e least most n t) (quantified e least most n s) := by
  obtain ⟨hlazy, h⟩ := enclosed_takeSign '?' (by decide) h
  obtain ⟨hpossessive, h⟩ := enclosed_takeSign '+' (by decide) h
  rw [quantified_eq, quantified_eq]
  dsimp only
  rw [hlazy, hpossessive]
  exact .ok (.intro _ n h)

theorem Tandem.of_piece (ih : Tandem fuel) (h : Enclosed t s) :
    Parallel SameStep (Reader.piece size (fuel + 1) depth t n)
      (Reader.piece size' fuel' depth' s n) := by
  rcases fuel' with _ | fuel'
  · rw [Reader.piece.eq_1]
    exact .error_right _ _
  · rw [Reader.piece, Reader.piece]
    refine (ih.unit h).bind ?_
    rintro _ _ ⟨e, n, h⟩
    refine (parallel_skipIn h).bind ?_
    intro u v huv
    have hquantifier := rel_quantifier? n huv
    revert hquantifier
    generalize quantifier? n u = q
    generalize quantifier? n v = q'
    intro hquantifier
    rcases hquantifier with ⟨⟨least, most, hrest⟩⟩ | _
    · dsimp only
      split
      · exact .error_left _ _
      · refine (parallel_skipIn hrest).bind ?_
        intro u v huv
        exact parallel_quantified e least most n huv
    · exact .ok (.intro e n huv)

theorem Tandem.of_unit (ih : Tandem fuel) (h : Enclosed t s) :
    Parallel SameStep (Reader.unit size (fuel + 1) depth t n)
      (Reader.unit size' fuel' depth' s n) := by
  rcases fuel' with _ | fuel'
  · rw [Reader.unit.eq_1]
    exact .error_right _ _
  · rw [unit_succ, unit_succ]
    refine (parallel_skipIn h).bind ?_
    intro u v huv
    fun_cases unitAt size fuel depth n u with
    | case1 =>
      rcases huv.of_nil with rfl | rfl
      · exact .ok (.intro Expr.empty n huv)
      · exact .ok (.intro Expr.empty n huv)
    | case2 r =>
      obtain rfl := huv.of_cons
      exact parallel_same _ _ _
    | case3 r =>
      obtain rfl := huv.of_cons
      exact parallel_same _ _ _
    | case4 r =>
      obtain rfl := huv.of_cons
      exact parallel_same _ _ _
    | case5 r hdepth =>
      obtain rfl := huv.of_cons
      rw [unitAt]
      split
      · exact ih.groupOpening (.closed _)
      · exact .error_right _ _
    | case6 r hdepth =>
      exact .error_left _ _
    | case7 r =>
      obtain rfl := huv.of_cons
      exact parallel_escape _ _ _ _
    | case8 r =>
      obtain rfl := huv.of_cons
      refine Parallel.bind (R := fun x y => y = (x.1, x.2 ++ [')'])) ?_ ?_
      · refine .of_ok ?_
        intro x hx
        exact ⟨_, readClass_append hx _, rfl⟩
      · rintro x _ rfl
        exact parallel_same _ _ _
    | case9 c r hdot hcaret hdollar hopen hslash hclass hsign =>
      obtain rfl := huv.of_cons
      rw [unitAt, if_pos hsign]
      · exact parallel_same _ (_ :: _) _
      · exact hdot
      · exact hcaret
      · exact hdollar
      · exact hopen
      · exact hslash
      · exact hclass
    | case10 c r hdot hcaret hdollar hopen hslash hclass hsign =>
      obtain rfl := huv.of_cons
      rw [unitAt, if_neg hsign]
      · exact parallel_same _ _ _
      · exact hdot
      · exact hcaret
      · exact hdollar
      · exact hopen
      · exact hslash
      · exact hclass

theorem Tandem.of_groupBody {o : Opening} (ih : Tandem fuel) (h : Enclosed t s) :
    Parallel SameStep (Reader.groupBody size (fuel + 1) depth o t n)
      (Reader.groupBody size' fuel' depth' o s n) := by
  rcases fuel' with _ | fuel'
  · rw [Reader.groupBody.eq_1]
    exact .error_right _ _
  · rw [Reader.groupBody, Reader.groupBody]
    refine (ih.alternatives h).bind ?_
    rintro _ _ ⟨e, m, h⟩
    refine (parallel_closing h).bind ?_
    intro u v huv
    exact .ok (.intro _ m huv)

theorem parallel_conditionOf {x y : Except BuildFault (Reader.Step Nat)}
    (h : Parallel SameStep x y) :
    Parallel SameStep (conditionOf x) (conditionOf y) := by
  have hbind : ∀ z : Except BuildFault (Reader.Step Nat),
      conditionOf z = z >>= fun x => .ok (.backreference x.1, x.2.1, x.2.2) := by
    intro z
    cases z <;> rfl
  rw [hbind, hbind]
  exact parallel_map _ h

theorem parallel_condition {f g : Unit → Except BuildFault (Reader.Step Expr)} (h : Enclosed t s)
    (hfg : Parallel SameStep (f ()) (g ())) :
    Parallel SameStep (Reader.condition size t n f) (Reader.condition size' s n g) := by
  fun_cases Reader.condition size t n f with
  | case1 => exact .error_left _ _
  | case2 r =>
    obtain rfl := h.of_cons
    exact parallel_conditionOf (parallel_reference (by simp) _ n)
  | case3 r =>
    obtain rfl := h.of_cons
    exact parallel_conditionOf (parallel_reference (by simp) _ n)
  | case4 c r hquote hangle hdigit =>
    obtain rfl := h.of_cons
    rw [Reader.condition, if_pos hdigit]
    · exact parallel_conditionOf (parallel_numberedReference size size' (c :: r) n)
    · exact hquote
    · exact hangle
  | case5 c r hquote hangle hdigit =>
    obtain rfl := h.of_cons
    rw [Reader.condition, if_neg hdigit]
    · exact hfg
    · exact hquote
    · exact hangle

theorem parallel_conditionalEnd {c : Char} {u v : Text} (condition body : Expr) (t : Text)
    (h : Enclosed u v) :
    Parallel SameStep (conditionalEnd condition body (c :: t) u n)
      (conditionalEnd condition body (c :: (t ++ [')'])) v n) := by
  unfold conditionalEnd
  rw [h.beq_length]
  split
  · split
    · refine (parallel_closing h).bind ?_
      intro u v huv
      exact .ok (.intro _ n huv)
    · exact .error_left _ _
  · refine (parallel_closing h).bind ?_
    intro u v huv
    exact .ok (.intro _ n huv)

theorem rest_of_alternatives_nil {x : Reader.Step Expr}
    (h : Reader.alternatives size fuel depth [] n = .ok x) :
    x.2.1 = [] := by
  rcases fuel with _ | _ | fuel
  · exact absurd h (by simp [Reader.alternatives])
  · exact absurd h (by simp [Reader.alternatives, Reader.branch, bind, Except.bind])
  · have hbranch : Reader.branch size (fuel + 1) depth [] n [] = .ok (.empty, [], n) := by
      rw [Reader.branch]
      rfl
    have hmore : Reader.moreBranches size (fuel + 1) depth [] n = .ok ([], [], n) := by
      rw [Reader.moreBranches, show skipIn n [] = .ok [] from rfl]
      rfl
    rw [Reader.alternatives, hbranch] at h
    dsimp only [bind, Except.bind] at h
    rw [hmore] at h
    dsimp only at h
    split at h
    · exact absurd h (by simp)
    · rw [← Except.ok.inj h]

theorem Tandem.of_conditional (ih : Tandem fuel) (h : Enclosed t s) :
    Parallel SameStep (Reader.conditional size (fuel + 1) depth t n)
      (Reader.conditional size' fuel' depth' s n) := by
  rcases fuel' with _ | fuel'
  · rw [Reader.conditional.eq_1]
    exact .error_right _ _
  · rw [conditional_succ, conditional_succ]
    refine (parallel_condition h (ih.alternatives h)).bind ?_
    rintro _ _ ⟨condition, n, h⟩
    refine (parallel_closing h).bind ?_
    intro u v huv
    rcases u with _ | ⟨c, u⟩
    · -- Nothing is left for the parenthesis that closes the conditional.
      intro a b ha
      obtain ⟨⟨body, rest, m⟩, hbody, ha⟩ := exists_of_bind_eq_ok ha
      obtain rfl : rest = [] := rest_of_alternatives_nil hbody
      refine absurd ha ?_
      dsimp only
      cases condition <;> simp [conditionalEnd, closing, skipIn, skip, bind, Except.bind]
    · obtain rfl := huv.of_cons
      refine (ih.alternatives huv).bind ?_
      rintro _ _ ⟨body, m, hrest⟩
      exact parallel_conditionalEnd condition body u hrest

theorem parallel_flagged (ih : Tandem fuel) (h : Enclosed t s) :
    Parallel SameStep (flagged size fuel depth t n) (flagged size' fuel' depth' s n) := by
  refine (parallel_flags h).bind ?_
  rintro _ _ ⟨ending, m, h⟩
  cases ending with
  | group => exact .ok (.intro Expr.empty m h)
  | content =>
    refine (ih.alternatives h).bind ?_
    rintro _ _ ⟨e, m, h⟩
    refine (parallel_closing h).bind ?_
    intro u v huv
    exact .ok (.intro e _ huv)

theorem parallel_namedGroup (ih : Tandem fuel) (t : Text) :
    Parallel SameStep (namedGroup size fuel depth t n)
      (namedGroup size' fuel' depth' (t ++ [')']) n) := by
  unfold namedGroup
  rcases hname : name? ['>'] t with _ | ⟨name, r⟩
  · exact .error_left _ _
  · rw [name?_append (by simp) hname]
    exact ih.groupBody (.closed r)

theorem not_cons_append {c : Char} {r : Text} (hc : c ≠ ')') (h : ∀ u, r = c :: u → False) :
    ∀ u, r ++ [')'] = c :: u → False := by
  intro u hu
  rcases r with _ | ⟨d, r⟩
  · exact hc (List.cons.inj hu).1.symm
  · exact h r (by rw [(List.cons.inj hu).1])

theorem not_cons_cons_append {c d : Char} {r : Text} (hc : c ≠ ')') (hd : d ≠ ')')
    (h : ∀ u, r = c :: d :: u → False) :
    ∀ u, r ++ [')'] = c :: d :: u → False := by
  intro u hu
  rcases r with _ | ⟨c', r⟩
  · exact hc (List.cons.inj hu).1.symm
  · refine not_cons_append hd ?_ u (List.cons.inj hu).2
    rintro v rfl
    exact h v (by rw [(List.cons.inj hu).1])

theorem Tandem.of_groupOpening (ih : Tandem fuel) (h : Enclosed t s) :
    Parallel SameStep (Reader.groupOpening size (fuel + 1) depth t n)
      (Reader.groupOpening size' fuel' depth' s n) := by
  rcases fuel' with _ | fuel'
  · rw [Reader.groupOpening.eq_1]
    exact .error_right _ _
  · rw [groupOpening_succ, groupOpening_succ]
    refine (parallel_skipIn h).bind ?_
    intro u v huv
    fun_cases openingAt size fuel depth n u with
    | case1 r =>
      obtain rfl := huv.of_cons
      exact ih.groupBody (.closed r)
    | case2 r =>
      obtain rfl := huv.of_cons
      exact ih.groupBody (.closed r)
    | case3 r =>
      obtain rfl := huv.of_cons
      exact ih.groupBody (.closed r)
    | case4 r =>
      obtain rfl := huv.of_cons
      exact ih.groupBody (.closed r)
    | case5 r hahead hnot =>
      obtain rfl := huv.of_cons
      rw [List.cons_append, openingAt]
      · exact parallel_namedGroup ih r
      · exact not_cons_append (by decide) hahead
      · exact not_cons_append (by decide) hnot
    | case6 r =>
      obtain rfl := huv.of_cons
      exact parallel_namedGroup ih r
    | case7 r =>
      obtain rfl := huv.of_cons
      exact parallel_map _ (parallel_reference (by simp) r n)
    | case8 r =>
      obtain rfl := huv.of_cons
      exact ih.groupBody (.closed r)
    | case9 r =>
      obtain rfl := huv.of_cons
      exact ih.conditional (.closed r)
    | case10 r hahead hnotAhead hbehind hnotBehind hangle hname hreference hatomic hconditional =>
      obtain rfl := huv.of_cons
      rw [openingAt]
      · exact parallel_flagged ih (.closed r)
      · exact not_cons_append (by decide) hahead
      · exact not_cons_append (by decide) hnotAhead
      · exact not_cons_cons_append (by decide) (by decide) hbehind
      · exact not_cons_cons_append (by decide) (by decide) hnotBehind
      · exact not_cons_append (by decide) hangle
      · exact not_cons_cons_append (by decide) (by decide) hname
      · exact not_cons_cons_append (by decide) (by decide) hreference
      · exact not_cons_append (by decide) hatomic
      · exact not_cons_append (by decide) hconditional
    | case11 u _ _ _ _ _ _ _ _ _ hbare =>
      have hv : ∀ r, v = '?' :: r → False := by
        cases huv with
        | closed => exact not_cons_append (by decide) hbare
        | taken => exact hbare
      rw [openingAt_of_not hv]
      exact ih.groupBody huv

theorem Tandem.all (fuel : Nat) : Tandem fuel := by
  induction fuel with
  | zero => exact .zero
  | succ fuel ih =>
    constructor
    · exact ih.of_alternatives
    · exact ih.of_moreBranches
    · exact ih.of_branch
    · exact ih.of_piece
    · exact ih.of_unit
    · exact ih.of_groupOpening
    · exact ih.of_groupBody
    · exact ih.of_conditional

end Step

end Reader

/-- An expression tied to the start of the text. -/
def Expr.anchored (e : Expr) : Expr :=
  .ofParts (.anchor .textStart :: if e.isEmpty then [] else [e])

namespace Reader

section Whole

variable {size fuel : Nat} {t r : Text} {e e' : Expr} {n n' m : Notes}

end Whole

end Reader
end RegexDialect.Baseline
