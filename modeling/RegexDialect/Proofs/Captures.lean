import RegexDialect.Proofs.ReaderSteps
import RegexDialect.Proofs.Reading

/-! The groups that the baseline opens while it reads a quiet text, by induction on the depth of the
calls. -/
namespace RegexDialect.Baseline

theorem Opening.of_isBare {after : Text} (h : isBare after = true) :
    isConditional after = false ∧ isNamed after = false := by
  cases after with
  | nil => exact ⟨rfl, rfl⟩
  | cons c r =>
    have hc : c ≠ '?' := by simpa [isBare] using h
    simp [isConditional, isNamed, hc]

section Question

variable {r : Text}

theorem Opening.isConditional_of_ne (h : ∀ u, r ≠ '(' :: u) : isConditional ('?' :: r) = false := by
  unfold isConditional
  split
  · next hu => exact absurd (List.cons.inj hu).2 (h _)
  · rfl

theorem Opening.isNamed_of_ne (hangle : ∀ u, r ≠ '<' :: u) (htagged : ∀ u, r ≠ 'P' :: '<' :: u) :
    isNamed ('?' :: r) = false := by
  unfold isNamed
  split
  · next hu => exact absurd (List.cons.inj hu).2 (hangle _)
  · next hu => exact absurd (List.cons.inj hu).2 (htagged _)
  · rfl

theorem Opening.of_isQuiet (h : isQuiet ('?' :: r) = true) :
    (r.dropWhile isModeLetter).head? ≠ some 'x' := by
  unfold isQuiet at h
  split at h
  · exact absurd h (by simp)
  · next hu =>
    obtain ⟨-, rfl⟩ := List.cons.inj hu
    simpa using h
  · next hu => exact absurd rfl (hu r)

end Question

/-- From a text with `g` groups opened before it to the rest with `g'`: the openings in between make
up for the difference, and `ids` are the new groups in order. -/
structure Passage (t : Text) (g : Nat) (ids : List Nat) (rest : Text) (g' : Nat) : Prop where
  suffix : rest <:+ t
  passed : ∃ l, openings .outside t = l ++ openings .outside rest ∧
    g' + l.countP Opening.isConditional = g + l.countP Opening.isBare + l.countP Opening.isNamed
  le : g ≤ g'
  ids : ids = List.range' (g + 1) (g' - g)

namespace Passage

variable {t rest u : Text} {g g₁ g₂ : Nat} {k l : List Nat}

theorem still (hs : rest <:+ t) (ho : openings .outside t = openings .outside rest) (g : Nat) :
    Passage t g [] rest g := ⟨hs, ⟨[], ho, rfl⟩, Nat.le_refl g, by simp⟩

theorem of_plainTo (h : Reader.PlainTo t rest) (g : Nat) :
    Passage t g [] rest g := .still h.suffix h.openings_eq g

theorem trans (h : Passage t g k rest g₁) (h' : Passage rest g₁ l u g₂) :
    Passage t g (k ++ l) u g₂ := by
  obtain ⟨a, ha, hca⟩ := h.passed
  obtain ⟨b, hb, hcb⟩ := h'.passed
  have hle := h.le
  have hle' := h'.le
  refine ⟨h'.suffix.trans h.suffix, ⟨a ++ b, by rw [ha, hb, List.append_assoc], ?_⟩,
    Nat.le_trans hle hle', ?_⟩
  · simp only [List.countP_append]
    omega
  · have happend := @List.range'_append (g + 1) (g₁ - g) (g₂ - g₁) 1
    rw [h.ids, h'.ids]
    rw [show g + 1 + 1 * (g₁ - g) = g₁ + 1 by omega, show g₁ - g + (g₂ - g₁) =
      g₂ - g by omega] at happend
    exact happend

theorem quiet (h : Passage t g k rest g₁) (hq : Quiet t) : Quiet rest := by
  obtain ⟨a, ha, -⟩ := h.passed
  intro after hmem
  exact hq after (by rw [ha]; exact List.mem_append_right a hmem)

theorem eq_of_length (h : Passage t g k rest g₁) (hl : rest.length = t.length) :
    rest = t ∧ k = [] ∧ g₁ = g := by
  obtain rfl := h.suffix.eq_of_length hl
  obtain ⟨a, ha, hc⟩ := h.passed
  obtain rfl : a = [] := by simpa using ha
  have hg : g₁ = g := by simpa using hc
  exact ⟨rfl, by rw [h.ids, hg]; simp, hg⟩

theorem of_silent {after : Text} (hb : Opening.isBare after = false)
    (hc : Opening.isConditional after = false)
    (hn : Opening.isNamed after = false) (h : Passage after g k rest g₁) :
      Passage ('(' :: after) g k rest g₁ := by
  obtain ⟨a, ha, hcount⟩ := h.passed
  refine ⟨h.suffix.trans (List.suffix_cons _ _),
    ⟨after :: a, by rw [openings_parenthesis, ha]; rfl, ?_⟩, h.le, h.ids⟩
  simpa [hb, hc, hn] using hcount

theorem of_capture {after : Text} (hc : Opening.isConditional after = false)
    (hn : Opening.isNamed after = !Opening.isBare after) (h : Passage after (g + 1) k rest g₁) :
    Passage ('(' :: after) g ((g + 1) :: k) rest g₁ := by
  obtain ⟨a, ha, hcount⟩ := h.passed
  have hle := h.le
  refine ⟨h.suffix.trans (List.suffix_cons _ _),
    ⟨after :: a, by rw [openings_parenthesis, ha]; rfl, ?_⟩, by omega, ?_⟩
  · cases hb : Opening.isBare after with
    | true => simp [hb, hc, hn]; omega
    | false => simp [hb, hc, hn]; omega
  · rw [h.ids, show g₁ - g = g₁ - (g + 1) + 1 by omega, List.range'_succ]

/-- The two openings of a conditional, of which the second is that of its condition. -/
theorem of_conditional (hb : Opening.isBare t = true) (h : Passage t g k rest g₁) :
    Passage ('(' :: '?' :: '(' :: t) g k rest g₁ := by
  have ho : openings .outside ('(' :: '?' :: '(' :: t) =
      ('?' :: '(' :: t) :: t :: openings .outside t := rfl
  have ht := Opening.of_isBare hb
  obtain ⟨a, ha, hcount⟩ := h.passed
  refine ⟨h.suffix.trans ⟨['(', '?', '('], rfl⟩,
    ⟨('?' :: '(' :: t) :: t :: a, by rw [ho, ha]; rfl, ?_⟩, h.le, h.ids⟩
  have hfirst : Opening.isConditional ('?' :: '(' :: t) = true ∧
      Opening.isBare ('?' :: '(' :: t) = false ∧
      Opening.isNamed ('?' :: '(' :: t) = false := ⟨rfl, rfl, rfl⟩
  simp [hb, ht, hfirst]
  omega

end Passage

namespace Expr

theorem groupsOfList_append (k l : List Expr) :
    groupsOfList (k ++ l) = groupsOfList k ++ groupsOfList l := by
  induction k with
  | nil => rfl
  | cons e k ih => rw [List.cons_append, groupsOfList, groupsOfList, ih, List.append_assoc]

theorem groups_ofParts (l : List Expr) : (ofParts l).groups = groupsOfList l := by
  cases l with
  | nil => rfl
  | cons e l =>
    cases l with
    | nil => simp [ofParts, groupsOfList]
    | cons _ _ => simp [ofParts, groups]

theorem groups_of_isEmpty {e : Expr} (h : e.isEmpty = true) : e.groups = [] := by
  cases e with
  | empty => rfl
  | _ => exact absurd h (by simp [isEmpty])

end Expr

namespace Reader

theorem groups_firstAndOthers (e : Expr) :
    (firstAndOthers e).1.groups ++ (firstAndOthers e).2.groups = e.groups := by
  unfold firstAndOthers
  split
  · simp [Expr.groups, Expr.groupsOfList]
  · simp [Expr.groups, Expr.groupsOfList]
  · simp [Expr.groups]

theorem groups_testOf (e : Expr) : (testOf e).groups = e.groups := by
  unfold testOf
  split
  · rfl
  · rfl

/-- A conditional has the groups of its parts. -/
theorem groups_conditionalOf (condition body : Expr) :
    (conditionalOf condition body).groups = condition.groups ++ body.groups := by
  have hbody := groups_firstAndOthers body
  have htest := groups_testOf condition
  unfold conditionalOf
  dsimp only
  split
  · next he =>
    simp only [Bool.and_eq_true] at he
    rw [Expr.groups_of_isEmpty he.1, Expr.groups_of_isEmpty he.2] at hbody
    rw [htest, ← hbody]
    simp
  · rw [Expr.groups, List.append_assoc, hbody, htest]

theorem exists_of_conditionOf {r : Except BuildFault (Reader.Step Nat)} {e : Expr}
    {rest : Text} {m : Notes}
    (h : conditionOf r = .ok (e, rest, m)) : ∃ k, r = .ok (k, rest, m) ∧ e = .backreference k := by
  obtain ⟨x, hx, h⟩ := exists_of_map_eq_ok h
  simp only [Prod.mk.injEq] at h
  obtain ⟨rfl, rfl, rfl⟩ := h
  exact ⟨x.1, hx, rfl⟩

section Step

/-- What holds of all readers with the same fuel: the groups of what is read are those that the
openings of the text taken make up for, and free spacing stays off. -/
structure Accounts (size fuel : Nat) : Prop where
  alternatives : ∀ {depth : Nat} {t rest : Text} {n m : Notes} {e : Expr}, Quiet t →
    n.mode.spacing = false → alternatives size fuel depth t n = .ok (e, rest, m) →
    Passage t n.groups e.groups rest m.groups ∧ m.mode.spacing = false
  moreBranches : ∀ {depth : Nat} {t rest : Text} {n m : Notes} {l : List Expr}, Quiet t →
    n.mode.spacing = false → moreBranches size fuel depth t n = .ok (l, rest, m) →
    Passage t n.groups (Expr.groupsOfList l) rest m.groups ∧ m.mode.spacing = false
  branch : ∀ {depth : Nat} {t rest : Text} {n m : Notes} {done : List Expr} {e : Expr}, Quiet t →
    n.mode.spacing = false → branch size fuel depth t n done = .ok (e, rest, m) →
    ∃ k, e.groups = Expr.groupsOfList done.reverse ++ k ∧ Passage t n.groups k rest m.groups ∧
      m.mode.spacing = false
  piece : ∀ {depth : Nat} {t rest : Text} {n m : Notes} {e : Expr}, Quiet t →
    n.mode.spacing = false → piece size fuel depth t n = .ok (e, rest, m) →
    Passage t n.groups e.groups rest m.groups ∧ m.mode.spacing = false
  unit : ∀ {depth : Nat} {t rest : Text} {n m : Notes} {e : Expr}, Quiet t →
    n.mode.spacing = false → unit size fuel depth t n = .ok (e, rest, m) →
    Passage t n.groups e.groups rest m.groups ∧ m.mode.spacing = false
  groupOpening : ∀ {depth : Nat} {t rest : Text} {n m : Notes} {e : Expr}, Quiet ('(' :: t) →
    n.mode.spacing = false → groupOpening size fuel depth t n = .ok (e, rest, m) →
    Passage ('(' :: t) n.groups e.groups rest m.groups ∧ m.mode.spacing = false
  groupBody : ∀ {depth : Nat} {o : Opening} {t rest : Text} {n m : Notes} {e : Expr}, Quiet t →
    n.mode.spacing = false → groupBody size fuel depth o t n = .ok (e, rest, m) →
    ∃ k, e.groups = (if o = .capture then n.groups :: k else k) ∧
      Passage t n.groups k rest m.groups ∧ m.mode.spacing = false
  conditional : ∀ {depth : Nat} {t rest : Text} {n m : Notes} {e : Expr},
    Quiet ('(' :: '?' :: '(' :: t) →
    n.mode.spacing = false → conditional size fuel depth t n = .ok (e, rest, m) →
    Passage ('(' :: '?' :: '(' :: t) n.groups e.groups rest m.groups ∧ m.mode.spacing = false

theorem Accounts.zero (size : Nat) : Accounts size 0 := by
  constructor
  · exact fun _ _ h => absurd h (by simp [Reader.alternatives])
  · exact fun _ _ h => absurd h (by simp [Reader.moreBranches])
  · exact fun _ _ h => absurd h (by simp [Reader.branch])
  · exact fun _ _ h => absurd h (by simp [Reader.piece])
  · exact fun _ _ h => absurd h (by simp [Reader.unit])
  · exact fun _ _ h => absurd h (by simp [Reader.groupOpening])
  · exact fun _ _ h => absurd h (by simp [Reader.groupBody])
  · exact fun _ _ h => absurd h (by simp [Reader.conditional])

variable {size fuel depth : Nat} {t rest : Text} {n m : Notes} {e : Expr}

theorem Accounts.of_alternatives (ih : Accounts size fuel) (hq : Quiet t)
    (hn : n.mode.spacing = false)
    (h : Reader.alternatives size (fuel + 1) depth t n = .ok (e, rest, m)) :
    Passage t n.groups e.groups rest m.groups ∧ m.mode.spacing = false := by
  rw [Reader.alternatives] at h
  obtain ⟨⟨first, t₁, n₁⟩, hfirst, h⟩ := exists_of_bind_eq_ok h
  obtain ⟨⟨more, t₂, n₂⟩, hmore, h⟩ := exists_of_bind_eq_ok h
  obtain ⟨k, hk, hp₁, hs₁⟩ := ih.branch hq hn hfirst
  obtain ⟨hp₂, hs₂⟩ := ih.moreBranches (hp₁.quiet hq) hs₁ hmore
  have hpass := hp₁.trans hp₂
  rw [List.reverse_nil, Expr.groupsOfList, List.nil_append] at hk
  simp only at h
  split at h
  · split at h
    · exact absurd h (by simp)
    · simp only [Except.ok.injEq, Prod.mk.injEq] at h
      obtain ⟨rfl, rfl, rfl⟩ := h
      rw [Expr.groupsOfList, List.append_nil, ← hk] at hpass
      exact ⟨hpass, hs₂⟩
  · simp only [Except.ok.injEq, Prod.mk.injEq] at h
    obtain ⟨rfl, rfl, rfl⟩ := h
    rw [Expr.groups, Expr.groupsOfList, hk]
    exact ⟨hpass, hs₂⟩

theorem Accounts.of_moreBranches {l : List Expr} (ih : Accounts size fuel) (hq : Quiet t)
    (hn : n.mode.spacing = false)
    (h : Reader.moreBranches size (fuel + 1) depth t n = .ok (l, rest, m)) :
    Passage t n.groups (Expr.groupsOfList l) rest m.groups ∧ m.mode.spacing = false := by
  rw [Reader.moreBranches] at h
  obtain ⟨u, hu, h⟩ := exists_of_bind_eq_ok h
  rw [skipIn_eq hn hq] at hu
  obtain rfl := Except.ok.inj hu
  split at h
  · next r _ =>
    have hbar : Passage ('|' :: r) n.groups [] r n.groups := .of_plainTo (.cons (by decide) r) _
    obtain ⟨⟨first, t₁, n₁⟩, hfirst, h⟩ := exists_of_bind_eq_ok h
    obtain ⟨⟨more, t₂, n₂⟩, hmore, h⟩ := exists_of_bind_eq_ok h
    obtain ⟨k, hk, hp₁, hs₁⟩ := ih.branch (hbar.quiet hq) hn hfirst
    obtain ⟨hp₂, hs₂⟩ := ih.moreBranches (hp₁.quiet (hbar.quiet hq)) hs₁ hmore
    simp only [Except.ok.injEq, Prod.mk.injEq] at h
    obtain ⟨rfl, rfl, rfl⟩ := h
    rw [List.reverse_nil, Expr.groupsOfList, List.nil_append] at hk
    rw [Expr.groupsOfList, hk]
    exact ⟨hbar.trans (hp₁.trans hp₂), hs₂⟩
  · simp only [Except.ok.injEq, Prod.mk.injEq] at h
    obtain ⟨rfl, rfl, rfl⟩ := h
    exact ⟨.of_plainTo (.refl _) _, hn⟩

theorem Accounts.of_branch {done : List Expr} (ih : Accounts size fuel) (hq : Quiet t)
    (hn : n.mode.spacing = false)
    (h : Reader.branch size (fuel + 1) depth t n done = .ok (e, rest, m)) :
    ∃ k, e.groups = Expr.groupsOfList done.reverse ++ k ∧ Passage t n.groups k rest m.groups ∧
      m.mode.spacing = false := by
  rw [Reader.branch] at h
  split at h
  · simp only [Except.ok.injEq, Prod.mk.injEq] at h
    obtain ⟨rfl, rfl, rfl⟩ := h
    exact ⟨[], by simp [Expr.groups_ofParts], .of_plainTo (.refl _) _, hn⟩
  · obtain ⟨⟨first, t₁, n₁⟩, hfirst, h⟩ := exists_of_bind_eq_ok h
    obtain ⟨hp₁, hs₁⟩ := ih.piece hq hn hfirst
    simp only at h
    split at h
    · next hl =>
      obtain ⟨-, -, hg⟩ := hp₁.eq_of_length (by simpa using hl)
      simp only [Except.ok.injEq, Prod.mk.injEq] at h
      obtain ⟨rfl, rfl, rfl⟩ := h
      refine ⟨[], by simp [Expr.groups_ofParts], ?_, hs₁⟩
      rw [hg]
      exact .of_plainTo (.refl _) _
    · obtain ⟨k, hk, hp₂, hs₂⟩ := ih.branch (hp₁.quiet hq) hs₁ h
      refine ⟨first.groups ++ k, ?_, hp₁.trans hp₂, hs₂⟩
      rw [hk]
      split
      · next he => simp [Expr.groups_of_isEmpty he]
      · simp [Expr.groupsOfList_append, Expr.groupsOfList]

theorem plainTo_takeSign {sign : Char} (hsign : isPlain sign = true) (t : Text) :
    PlainTo t (takeSign sign t).2 := by
  rcases t with _ | ⟨c, r⟩
  · exact .refl _
  · by_cases hc : c = sign
    · rw [takeSign, if_pos hc]
      exact .cons (hc ▸ hsign) r
    · rw [takeSign, if_neg hc]
      exact .refl _

theorem of_quantified {a : Expr} {least : Nat} {most : Option Nat}
    (h : quantified a least most n t = .ok (e, rest, m)) :
    PlainTo t rest ∧ e.groups = a.groups ∧ m = n := by
  rw [quantified_eq] at h
  simp only [Except.ok.injEq, Prod.mk.injEq] at h
  obtain ⟨rfl, rfl, rfl⟩ := h
  refine ⟨(plainTo_takeSign (by decide) t).trans (plainTo_takeSign (by decide) _), ?_, rfl⟩
  split
  · simp [Expr.groups]
  · simp [Expr.groups]

theorem Accounts.of_piece (ih : Accounts size fuel) (hq : Quiet t) (hn : n.mode.spacing = false)
    (h : Reader.piece size (fuel + 1) depth t n = .ok (e, rest, m)) :
    Passage t n.groups e.groups rest m.groups ∧ m.mode.spacing = false := by
  rw [Reader.piece] at h
  obtain ⟨⟨first, t₁, n₁⟩, hfirst, h⟩ := exists_of_bind_eq_ok h
  obtain ⟨u, hu, h⟩ := exists_of_bind_eq_ok h
  obtain ⟨hp₁, hs₁⟩ := ih.unit hq hn hfirst
  have hq₁ := hp₁.quiet hq
  rw [skipIn_eq hs₁ hq₁] at hu
  obtain rfl := Except.ok.inj hu
  split at h
  · simp only [Except.ok.injEq, Prod.mk.injEq] at h
    obtain ⟨rfl, rfl, rfl⟩ := h
    exact ⟨hp₁, hs₁⟩
  · next least most t₂ hquantifier =>
    have hplain := plainTo_of_quantifier? hs₁ hq₁ hquantifier
    split at h
    · exact absurd h (by simp)
    · obtain ⟨v, hv, h⟩ := exists_of_bind_eq_ok h
      rw [skipIn_eq hs₁ (hplain.quiet hq₁)] at hv
      obtain rfl := Except.ok.inj hv
      obtain ⟨hsigns, he, rfl⟩ := of_quantified h
      have hpass := hp₁.trans (.of_plainTo (hplain.trans hsigns) _)
      rw [List.append_nil, ← he] at hpass
      exact ⟨hpass, hs₁⟩

theorem Accounts.of_unit (ih : Accounts size fuel) (hq : Quiet t) (hn : n.mode.spacing = false)
    (h : Reader.unit size (fuel + 1) depth t n = .ok (e, rest, m)) :
    Passage t n.groups e.groups rest m.groups ∧ m.mode.spacing = false := by
  have single : ∀ {c : Char} {r : Text} {a : Expr}, isPlain c = true → a.groups = [] →
      (Except.ok (a, r, n) : Except BuildFault _) = .ok (e, rest, m) →
      Passage (c :: r) n.groups e.groups rest m.groups ∧ m.mode.spacing = false := by
    intro c r a hc ha h
    simp only [Except.ok.injEq, Prod.mk.injEq] at h
    obtain ⟨rfl, rfl, rfl⟩ := h
    rw [ha]
    exact ⟨.of_plainTo (.cons hc _) _, hn⟩
  rw [unit_succ, skipIn_eq hn hq] at h
  change unitAt size fuel depth n t = .ok (e, rest, m) at h
  revert h
  fun_cases unitAt size fuel depth n t with
  | case1 =>
    intro h
    simp only [Except.ok.injEq, Prod.mk.injEq] at h
    obtain ⟨rfl, rfl, rfl⟩ := h
    exact ⟨.of_plainTo (.refl _) _, hn⟩
  | case2 r => exact single (by decide) rfl
  | case3 r => exact single (by decide) rfl
  | case4 r => exact single (by decide) rfl
  | case5 r => exact ih.groupOpening hq hn
  | case6 r =>
    intro h
    exact absurd h (by simp)
  | case7 r =>
    intro h
    obtain ⟨ho, hs, hg, hm, he⟩ := of_escape h
    rw [he, hg]
    exact ⟨.still (hs.trans (List.suffix_cons _ _)) ((openings_outside_backslash _).trans ho) _,
      by rw [hm, hn]⟩
  | case8 r =>
    intro h
    obtain ⟨⟨s, after⟩, hclass, h⟩ := exists_of_bind_eq_ok h
    obtain ⟨ho, hs⟩ := of_readClass hclass
    simp only [Except.ok.injEq, Prod.mk.injEq] at h
    obtain ⟨rfl, rfl, rfl⟩ := h
    exact ⟨.still (hs.trans (List.suffix_cons _ _)) ((openings_outside_bracket _).trans ho) _, hn⟩
  | case9 c r =>
    intro h
    simp only [Except.ok.injEq, Prod.mk.injEq] at h
    obtain ⟨rfl, rfl, rfl⟩ := h
    exact ⟨.of_plainTo (.refl _) _, hn⟩
  | case10 c r hdot hcaret hdollar hparenthesis hbackslash hbracket =>
    refine single ?_ rfl
    simp [isPlain, show c ≠ '\\' from hbackslash, show c ≠ '(' from hparenthesis, show c ≠
      '[' from hbracket]

theorem Accounts.of_groupBody {o : Opening} (ih : Accounts size fuel) (hq : Quiet t)
    (hn : n.mode.spacing = false)
    (h : Reader.groupBody size (fuel + 1) depth o t n = .ok (e, rest, m)) :
    ∃ k, e.groups = (if o = .capture then n.groups :: k else k) ∧
      Passage t n.groups k rest m.groups ∧ m.mode.spacing = false := by
  rw [Reader.groupBody] at h
  obtain ⟨⟨body, t₁, n₁⟩, hbody, h⟩ := exists_of_bind_eq_ok h
  obtain ⟨t₂, hclose, hout⟩ := exists_of_bind_eq_ok h
  obtain ⟨hp₁, hs₁⟩ := ih.alternatives hq hn hbody
  obtain rfl := eq_of_closing hs₁ (hp₁.quiet hq) hclose
  simp only [Except.ok.injEq, Prod.mk.injEq] at hout
  obtain ⟨rfl, rfl, rfl⟩ := hout
  have hlast : Passage (')' :: t₂) n₁.groups [] t₂ n₁.groups := .of_plainTo (.cons (by decide) t₂) _
  have hpass := hp₁.trans hlast
  rw [List.append_nil] at hpass
  refine ⟨body.groups, ?_, hpass, hs₁⟩
  cases o <;> simp [Opening.wrap, Expr.groups]

/-- A condition that begins with a question mark has nothing to repeat. -/
theorem alternatives_question (hn : n.mode.spacing = false) (r : Text) {x : Step Expr} :
    Reader.alternatives size fuel depth ('?' :: r) n ≠ .ok x := by
  have hskip : skipIn n ('?' :: r) = .ok ('?' :: r) := by
    rw [skipIn, hn]
    exact skip_between (by simp)
  have hunit : ∀ k, Reader.unit size (k + 1) depth ('?' :: r) n = .ok (.empty, '?' :: r, n) := by
    intro k
    rw [Reader.unit, hskip]
    rfl
  have hpiece : ∀ k (y : Step Expr), Reader.piece size k depth ('?' :: r) n ≠ .ok y := by
    intro k y
    cases k with
    | zero => simp [Reader.piece]
    | succ k =>
      cases k with
      | zero => simp [Reader.piece, Reader.unit, bind, Except.bind]
      | succ k =>
        simp [Reader.piece, hunit, hskip, quantifier?, Expr.isRepeatable, bind, Except.bind]
  have hbranch : ∀ k (y : Step Expr), Reader.branch size k depth ('?' :: r) n [] ≠ .ok y := by
    intro k y hy
    cases k with
    | zero => exact absurd hy (by simp [Reader.branch])
    | succ k =>
      rw [Reader.branch, if_neg (by simp)] at hy
      obtain ⟨z, hz, -⟩ := exists_of_bind_eq_ok hy
      exact hpiece k z hz
  intro h
  cases fuel with
  | zero => exact absurd h (by simp [Reader.alternatives])
  | succ k =>
    rw [Reader.alternatives] at h
    obtain ⟨y, hy, -⟩ := exists_of_bind_eq_ok h
    exact hbranch k y hy

/-- The condition of a conditional begins with anything but a question mark. -/
theorem Accounts.of_condition (ih : Accounts size fuel) (hq : Quiet t) (hn : n.mode.spacing = false)
    (h : Reader.condition size t n (fun _ => Reader.alternatives size fuel depth t n) =
      .ok (e, rest, m)) :
    Opening.isBare t = true ∧ Passage t n.groups e.groups rest m.groups ∧
      m.mode.spacing = false := by
  have named : ∀ {r close : Text} {relative : Bool}, (∀ d ∈ close, isPlain d = true) → PlainTo t r →
      conditionOf (namedReference close relative r n) = .ok (e, rest, m) →
      Passage t n.groups e.groups rest m.groups ∧ m.mode.spacing = false := by
    intro r close relative hclose hr h
    obtain ⟨k, href, rfl⟩ := exists_of_conditionOf h
    obtain ⟨hrest, hg, hm⟩ := of_namedReference hclose href
    rw [hg, hm]
    exact ⟨.of_plainTo (hr.trans hrest) _, hn⟩
  unfold Reader.condition at h
  split at h
  · exact absurd h (by simp)
  · next r => exact ⟨rfl, named (List.all_eq_true.1 (by decide)) (.cons (by decide) r) h⟩
  · next r => exact ⟨rfl, named (List.all_eq_true.1 (by decide)) (.cons (by decide) r) h⟩
  · next c r _ _ =>
    split at h
    · next hd =>
      obtain ⟨k, href, rfl⟩ := exists_of_conditionOf h
      obtain ⟨hrest, hg, hm⟩ := of_numberedReference href
      have hc : c ≠ '?' := Text.ne_of_test hd (by decide)
      refine ⟨by simpa [Opening.isBare] using hc, ?_, by rw [hm, hn]⟩
      rw [hg]
      exact .of_plainTo hrest _
    · have hc : c ≠ '?' := by
        rintro rfl
        exact alternatives_question hn r h
      exact ⟨by simpa [Opening.isBare] using hc, ih.alternatives hq hn h⟩

theorem passage_closing {g : Nat} {k : List Nat} {u : Text} (hp : Passage t g k u n.groups)
    (hq : Quiet t)
    (hn : n.mode.spacing = false) (h : closing n u = .ok rest) : Passage t g k rest n.groups := by
  obtain rfl := eq_of_closing hn (hp.quiet hq) h
  have hlast := hp.trans (.of_plainTo (.cons (by decide) rest) n.groups)
  rwa [List.append_nil] at hlast

/-- What is made of a condition and a body has the groups of both; a body that is not there has
none. -/
theorem of_conditionalEnd {condition body : Expr} {u : Text} {g : Nat}
    (hp : Passage t g body.groups u n.groups) (hq : Quiet t) (hn : n.mode.spacing = false)
    (h : conditionalEnd condition body t u n = .ok (e, rest, m)) :
    e.groups = condition.groups ++ body.groups ∧ Passage t g body.groups rest m.groups ∧
      m.mode.spacing = false := by
  unfold conditionalEnd at h
  split at h
  · next hl =>
    obtain ⟨-, hnone, -⟩ := hp.eq_of_length (by simpa using hl)
    split at h
    · obtain ⟨v, hclose, h⟩ := exists_of_bind_eq_ok h
      simp only [Except.ok.injEq, Prod.mk.injEq] at h
      obtain ⟨rfl, rfl, rfl⟩ := h
      exact ⟨by simp [Expr.groups, hnone], passage_closing hp hq hn hclose, hn⟩
    · exact absurd h (by simp)
  · obtain ⟨v, hclose, h⟩ := exists_of_bind_eq_ok h
    simp only [Except.ok.injEq, Prod.mk.injEq] at h
    obtain ⟨rfl, rfl, rfl⟩ := h
    exact ⟨groups_conditionalOf condition body, passage_closing hp hq hn hclose, hn⟩

theorem Accounts.of_conditional (ih : Accounts size fuel) (hq : Quiet ('(' :: '?' :: '(' :: t))
    (hn : n.mode.spacing = false)
    (h : Reader.conditional size (fuel + 1) depth t n = .ok (e, rest, m)) :
    Passage ('(' :: '?' :: '(' :: t) n.groups e.groups rest m.groups ∧ m.mode.spacing = false := by
  have hqt : Quiet t :=
    fun after ha => hq after (List.mem_cons_of_mem _ (List.mem_cons_of_mem _ ha))
  rw [conditional_succ] at h
  obtain ⟨⟨condition, t₁, n₁⟩, hcondition, h⟩ := exists_of_bind_eq_ok h
  obtain ⟨t₂, hclose, h⟩ := exists_of_bind_eq_ok h
  obtain ⟨⟨body, t₃, n₃⟩, hbody, h⟩ := exists_of_bind_eq_ok h
  obtain ⟨hbare, hp₁, hs₁⟩ := ih.of_condition hqt hn hcondition
  have hp₂ := passage_closing hp₁ hqt hs₁ hclose
  obtain ⟨hp₃, hs₃⟩ := ih.alternatives (hp₂.quiet hqt) hs₁ hbody
  obtain ⟨he, hp₄, hs₄⟩ := of_conditionalEnd hp₃ (hp₂.quiet hqt) hs₃ h
  rw [he]
  exact ⟨.of_conditional hbare (hp₂.trans hp₄), hs₄⟩

theorem Accounts.of_silent (ih : Accounts size fuel) {u : Text} {o : Opening}
    (hb : Opening.isBare u = false)
    (hc : Opening.isConditional u = false) (hnamed : Opening.isNamed u = false) (ho : o ≠ .capture)
    (hq : Quiet u) (hn : n.mode.spacing = false) (hr : PlainTo u t)
    (h : Reader.groupBody size fuel depth o t n = .ok (e, rest, m)) :
    Passage ('(' :: u) n.groups e.groups rest m.groups ∧ m.mode.spacing = false := by
  obtain ⟨k, hk, hp, hs⟩ := ih.groupBody (hr.quiet hq) hn h
  rw [if_neg ho] at hk
  rw [hk]
  exact ⟨.of_silent hb hc hnamed ((Passage.of_plainTo hr _).trans hp), hs⟩

/-- The name of a group is plain text, and the group captures. -/
theorem Accounts.of_namedGroup (ih : Accounts size fuel) (head : Text)
    (hhead : head.all isPlain = true)
    (hb : Opening.isBare (head ++ t) = false) (hc : Opening.isConditional (head ++ t) = false)
    (hnamed : t ≠ [] → Opening.isNamed (head ++ t) = true) (hq : Quiet (head ++ t))
    (hn : n.mode.spacing = false) (h : namedGroup size fuel depth t n = .ok (e, rest, m)) :
    Passage ('(' :: (head ++ t)) n.groups e.groups rest m.groups ∧ m.mode.spacing = false := by
  unfold namedGroup at h
  split at h
  · next name v hname =>
    have ht : t ≠ [] := by
      rintro rfl
      exact absurd hname (by simp [name?])
    have hv : PlainTo (head ++ t) v :=
      PlainTo.trans (.of_all head hhead t) (plainTo_of_name? (List.all_eq_true.1 (by decide)) hname)
    obtain ⟨k, hk, hp, hs⟩ := ih.groupBody
      (n := { n with groups := n.groups + 1, names := (name, n.groups + 1) :: n.names })
      (hv.quiet hq) hn h
    rw [hk, if_pos rfl]
    exact ⟨.of_capture hc (by rw [hb, hnamed ht]; rfl) ((Passage.of_plainTo hv _).trans hp), hs⟩
  · exact absurd h (by simp)

/-- Flags that do not turn free spacing on, and the content that they hold for. -/
theorem Accounts.of_flagged (ih : Accounts size fuel) (hq : Quiet t)
    (hx : (t.dropWhile Opening.isModeLetter).head? ≠ some 'x') (hn : n.mode.spacing = false)
    (h : flagged size fuel depth t n = .ok (e, rest, m)) :
    Passage t n.groups e.groups rest m.groups ∧ m.mode.spacing = false := by
  obtain ⟨⟨ending, v, n₁⟩, hflags, h⟩ := exists_of_bind_eq_ok h
  obtain ⟨hv, hg, hs⟩ := of_flags hn hq (fun _ => hx) hflags
  have hp : Passage t n.groups [] v n₁.groups := by
    rw [hg]
    exact .of_plainTo hv _
  cases ending with
  | group =>
    simp only [Except.ok.injEq, Prod.mk.injEq] at h
    obtain ⟨rfl, rfl, rfl⟩ := h
    exact ⟨hp, hs⟩
  | content =>
    obtain ⟨⟨body, v₁, n₂⟩, hbody, h⟩ := exists_of_bind_eq_ok h
    obtain ⟨v₂, hclose, h⟩ := exists_of_bind_eq_ok h
    simp only [Except.ok.injEq, Prod.mk.injEq] at h
    obtain ⟨rfl, rfl, rfl⟩ := h
    obtain ⟨hp₁, hs₁⟩ := ih.alternatives (hp.quiet hq) hs hbody
    exact ⟨passage_closing (n := n₂) (hp.trans hp₁) hq hs₁ hclose, hn⟩

theorem Accounts.of_groupOpening (ih : Accounts size fuel) (hq : Quiet ('(' :: t))
    (hn : n.mode.spacing = false)
    (h : Reader.groupOpening size (fuel + 1) depth t n = .ok (e, rest, m)) :
    Passage ('(' :: t) n.groups e.groups rest m.groups ∧ m.mode.spacing = false := by
  have hqt : Quiet t := fun after ha => hq after (List.mem_cons_of_mem _ ha)
  rw [groupOpening_succ, skipIn_eq hn hqt] at h
  change openingAt size fuel depth n t = .ok (e, rest, m) at h
  revert h
  fun_cases openingAt size fuel depth n t with
  | case1 r => exact ih.of_silent rfl rfl rfl (by simp) hqt hn (.of_all ['?', '='] (by decide) r)
  | case2 r => exact ih.of_silent rfl rfl rfl (by simp) hqt hn (.of_all ['?', '!'] (by decide) r)
  | case3 r =>
    exact ih.of_silent rfl rfl rfl (by simp) hqt hn (.of_all ['?', '<', '='] (by decide) r)
  | case4 r =>
    exact ih.of_silent rfl rfl rfl (by simp) hqt hn (.of_all ['?', '<', '!'] (by decide) r)
  | case5 r hbehind hnotBehind =>
    refine ih.of_namedGroup ['?', '<'] (by decide) rfl rfl (fun hr => ?_) hqt hn
    obtain ⟨c, r, rfl⟩ := List.exists_cons_of_ne_nil hr
    have hc : c ≠ '=' ∧ c ≠ '!' :=
      ⟨fun hc => hbehind r (by rw [hc]), fun hc => hnotBehind r (by rw [hc])⟩
    simp [Opening.isNamed, hc]
  | case6 r => exact ih.of_namedGroup ['?', 'P', '<'] (by decide) rfl rfl (fun _ => rfl) hqt hn
  | case7 r =>
    intro h
    obtain ⟨⟨k, v, n₁⟩, href, h⟩ := exists_of_bind_eq_ok h
    simp only [Except.ok.injEq, Prod.mk.injEq] at h
    obtain ⟨rfl, rfl, rfl⟩ := h
    obtain ⟨hv, hg, hm⟩ := of_namedReference (List.all_eq_true.1 (by decide)) href
    have hplain := PlainTo.trans (.of_all ['?', 'P', '='] (by decide) r) hv
    rw [hg, hm]
    exact ⟨.of_silent rfl rfl rfl (.of_plainTo hplain _), hn⟩
  | case8 r => exact ih.of_silent rfl rfl rfl (by simp) hqt hn (.of_all ['?', '>'] (by decide) r)
  | case9 r => exact ih.conditional hq hn
  | case10 r _ _ _ _ hangle htagged _ _ hcondition =>
    intro h
    have hopen : PlainTo ('?' :: r) r := .cons (by decide) r
    have hx := Opening.of_isQuiet (hq ('?' :: r) (by simp))
    obtain ⟨hp, hs⟩ := ih.of_flagged (hopen.quiet hqt) hx hn h
    exact ⟨.of_silent rfl (Opening.isConditional_of_ne hcondition)
      (Opening.isNamed_of_ne hangle htagged) ((Passage.of_plainTo hopen _).trans hp), hs⟩
  | case11 _ _ _ _ _ _ _ _ _ _ hquestion =>
    intro h
    have hbare : Opening.isBare t = true := by
      cases t with
      | nil => rfl
      | cons c r =>
        have hc : c ≠ '?' := fun hc => hquestion r (by rw [hc])
        simpa [Opening.isBare] using hc
    obtain ⟨hconditional, hnamed⟩ := Opening.of_isBare hbare
    obtain ⟨k, hk, hp, hs⟩ := ih.groupBody (n := { n with groups := n.groups + 1 }) hqt hn h
    rw [hk, if_pos rfl]
    exact ⟨.of_capture hconditional (by rw [hnamed, hbare]; rfl) hp, hs⟩

end Step

end Reader
end RegexDialect.Baseline
