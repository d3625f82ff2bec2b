import RegexDialect.Replace

/-! Occurrences of a literal text, and what it means to replace them from left to right. -/
namespace RegexDialect

namespace Text

/-- A text cut at the first place where the needle stands: what is before the needle and what is
after it. -/
def cutAtFirst? (needle : Text) : Text → Option (Text × Text)
  | [] => (dropHead? needle []).map fun after => ([], after)
  | c :: t =>
    match dropHead? needle (c :: t) with
    | some after => some ([], after)
    | none => (cutAtFirst? needle t).map fun cut => (c :: cut.1, cut.2)

variable {needle t gap after : Text}

theorem cutAtFirst?_of_dropHead? (h : dropHead? needle t = some after) :
    cutAtFirst? needle t = some ([], after) := by
  cases t <;> simp [cutAtFirst?, h]

@[simp] theorem cutAtFirst?_nil (t : Text) :
    cutAtFirst? [] t = some ([], t) := cutAtFirst?_of_dropHead? rfl

theorem append_of_cutAtFirst? (h : cutAtFirst? needle t = some (gap, after)) :
    t = gap ++ needle ++ after := by
  induction t generalizing gap with
  | nil =>
    obtain ⟨r, hr, he⟩ := Option.map_eq_some_iff.1 h
    obtain ⟨rfl, rfl⟩ := Prod.mk.inj he
    exact eq_append_of_dropHead? hr
  | cons c t ih =>
    rw [cutAtFirst?] at h
    split at h
    · next r hr =>
      obtain ⟨rfl, rfl⟩ := Prod.mk.inj (Option.some.inj h)
      exact eq_append_of_dropHead? hr
    · obtain ⟨cut, hcut, he⟩ := Option.map_eq_some_iff.1 h
      obtain ⟨rfl, rfl⟩ := Prod.mk.inj he
      rw [ih hcut]
      rfl

theorem exists_cutAtFirst? (needle gap after : Text) :
    ∃ cut, cutAtFirst? needle (gap ++ needle ++ after) = some cut ∧ cut.1.length ≤ gap.length := by
  induction gap with
  | nil => exact ⟨_, cutAtFirst?_of_dropHead? (dropHead?_append needle after), Nat.le_refl _⟩
  | cons c gap ih =>
    obtain ⟨cut, hcut, hle⟩ := ih
    rw [List.cons_append, List.cons_append, cutAtFirst?]
    split
    · exact ⟨_, rfl, Nat.zero_le _⟩
    · refine ⟨_, by rw [hcut]; rfl, ?_⟩
      exact Nat.succ_le_succ hle

/-- The cut is at the leftmost occurrence of the needle. -/
theorem cutAtFirst?_eq_some_iff : cutAtFirst? needle t = some (gap, after) ↔
    t = gap ++ needle ++ after ∧ ∀ gap' after', t = gap' ++ needle ++ after' →
      gap.length ≤ gap'.length := by
  constructor
  · intro h
    refine ⟨append_of_cutAtFirst? h, ?_⟩
    rintro gap' after' rfl
    obtain ⟨cut, hcut, hle⟩ := exists_cutAtFirst? needle gap' after'
    obtain rfl := Option.some.inj (h.symm.trans hcut)
    exact hle
  · rintro ⟨rfl, hleast⟩
    obtain ⟨⟨gap', after'⟩, hcut, hle⟩ := exists_cutAtFirst? needle gap after
    have heq := append_of_cutAtFirst? hcut
    have hlength := Nat.le_antisymm (hleast gap' after' heq) hle
    simp only [List.append_assoc] at heq
    obtain ⟨rfl, htail⟩ := List.append_inj heq hlength
    rw [hcut, List.append_cancel_left htail]

theorem cutAtFirst?_eq_none_iff : cutAtFirst? needle t = none ↔ ¬needle <:+: t := by
  rw [Option.eq_none_iff_forall_ne_some]
  constructor
  · rintro h ⟨gap, after, rfl⟩
    obtain ⟨cut, hcut, -⟩ := exists_cutAtFirst? needle gap after
    exact h cut hcut
  · rintro h ⟨gap, after⟩ hcut
    exact h ⟨gap, after, (append_of_cutAtFirst? hcut).symm⟩

end Text

def Match.ofLiteral (before gap needle after : Text) : Match :=
  ⟨before ++ gap ++ needle ++ after,
    ⟨Text.bytes (before ++ gap), Text.bytes (before ++ gap ++ needle)⟩, [], []⟩

namespace Replacement

variable {σ : Type}

/-- The text behind the cursor with the first occurrence of the needle replaced; `before` is the
text up to the cursor. -/
def once (r : Replacement σ) (needle before rest : Text) (ordinal : Nat) (s : σ) : Text × σ :=
  match Text.cutAtFirst? needle rest with
  | none => (rest, s)
  | some (gap, after) =>
    match r.render s (.ofLiteral before gap needle after) ordinal with
    | (piece, s) => (gap ++ piece ++ after, s)

/-- The text behind the cursor with every occurrence of the needle replaced, from left to right. The
cursor goes on from the end of an occurrence or, as an empty needle would be found there again, one
character further. -/
def everywhere (r : Replacement σ) (needle before rest : Text) (ordinal : Nat) (s : σ) : Text × σ :=
  match _h : Text.cutAtFirst? needle rest with
  | none => (rest, s)
  | some (gap, after) =>
    match r.render s (.ofLiteral before gap needle after) ordinal with
    | (piece, s) =>
      if _hn : needle = [] then
        match after with
        | [] => (gap ++ piece, s)
        | c :: after =>
          match everywhere r needle (before ++ gap ++ [c]) after (ordinal + 1) s with
          | (tail, s) => (gap ++ piece ++ c :: tail, s)
      else
        match everywhere r needle (before ++ gap ++ needle) after (ordinal + 1) s with
        | (tail, s) => (gap ++ piece ++ tail, s)
termination_by rest.length
decreasing_by
  · have := congrArg List.length (Text.append_of_cutAtFirst? _h)
    simp only [List.length_append, List.length_cons] at this
    omega
  · have := congrArg List.length (Text.append_of_cutAtFirst? _h)
    have := List.length_pos_iff.2 _hn
    simp only [List.length_append] at *
    omega

/-- A text with a literal text in it replaced: everywhere when that is asked for, else in the first
place. -/
def literally (r : Replacement σ) (needle text : Text) (all : Option Bool) (s : σ) : Text × σ :=
  match all with
  | some true => r.everywhere needle [] text 0 s
  | none | some false => r.once needle [] text 0 s

variable {r : Replacement σ} {needle before rest gap after piece : Text} {ordinal : Nat} {s t : σ}

theorem everywhere_of_none (h : Text.cutAtFirst? needle rest = none) :
    r.everywhere needle before rest ordinal s = (rest, s) := by
  rw [everywhere]
  split
  · rfl
  · next hsome => exact absurd (h.symm.trans hsome) (by simp)

theorem everywhere_of_some (hn : needle ≠ []) (h : Text.cutAtFirst? needle rest = some (gap, after))
    (hr : r.render s (.ofLiteral before gap needle after) ordinal = (piece, t)) :
    r.everywhere needle before rest ordinal s =
      (gap ++ piece ++ (r.everywhere needle (before ++ gap ++ needle) after (ordinal + 1) t).1,
        (r.everywhere needle (before ++ gap ++ needle) after (ordinal + 1) t).2) := by
  rw [everywhere]
  split
  · next hnone => exact absurd (h.symm.trans hnone) (by simp)
  · next hsome =>
    obtain ⟨rfl, rfl⟩ := Prod.mk.inj (Option.some.inj (h.symm.trans hsome))
    rw [hr]
    simp only [dif_neg hn]

theorem everywhere_nil_end (hr : r.render s (.ofLiteral before [] [] []) ordinal = (piece, t)) :
    r.everywhere [] before [] ordinal s = (piece, t) := by
  rw [everywhere]
  split
  · next hnone => exact absurd hnone (by simp)
  · next hsome =>
    obtain ⟨rfl, rfl⟩ := Prod.mk.inj (Option.some.inj ((Text.cutAtFirst?_nil []).symm.trans hsome))
    rw [hr]
    rfl

theorem everywhere_nil_cons {c : Char}
    (hr : r.render s (.ofLiteral before [] [] (c :: rest)) ordinal = (piece, t)) :
    r.everywhere [] before (c :: rest) ordinal s =
      (piece ++ c :: (r.everywhere [] (before ++ [c]) rest (ordinal + 1) t).1,
        (r.everywhere [] (before ++ [c]) rest (ordinal + 1) t).2) := by
  rw [everywhere]
  split
  · next hnone => exact absurd hnone (by simp)
  · next hsome =>
    obtain ⟨rfl, rfl⟩ := Prod.mk.inj (Option.some.inj ((Text.cutAtFirst?_nil _).symm.trans hsome))
    rw [hr]
    simp

end Replacement
end RegexDialect
