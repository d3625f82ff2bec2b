import Mathlib.Data.List.Sort
import RegexDialect.Flags

/-! Flags as sets of letters. The increasing list that is kept is the only one for its set, and
reading it gives the set back. -/
namespace RegexDialect.Flags

variable {f g : Flags} {letters s t : Text}

theorem eq_of_has (h : ∀ c, f.has c = g.has c) : f = g := by
  have hirrefl : Std.Irrefl fun c d : Char => c < d := ⟨Char.lt_irrefl⟩
  have hantisymm : Std.Antisymm fun c d : Char => c < d :=
    ⟨fun _ _ hcd hdc => absurd hdc (Char.lt_asymm hcd)⟩
  have hmem : ∀ c, c ∈ f.letters ↔ c ∈ g.letters := fun c => by rw [← has_iff, ← has_iff, h c]
  obtain ⟨letters, hf⟩ := f
  obtain ⟨others, hg⟩ := g
  obtain rfl : letters = others := hf.eq_of_mem_iff hg hmem
  rfl

theorem has_toggle (f : Flags) (c d : Char) (on : Bool) :
    (f.toggle c on).has d = if d = c then on else f.has d := by
  by_cases hd : d = c <;> cases on <;> simp [toggle, hd]

theorem has_foldl_add (f : Flags) (letters : Text) (c : Char) :
    (letters.foldl add f).has c = (letters.contains c || f.has c) := by
  induction letters generalizing f with
  | nil => simp
  | cons d letters ih =>
    rw [List.foldl_cons, ih, has_add, List.contains_cons, Bool.or_left_comm, Bool.or_assoc]

theorem foldl_add_eq_self (h : ∀ c ∈ letters, f.has c = true) : letters.foldl add f = f := by
  refine eq_of_has fun c => ?_
  rw [has_foldl_add]
  cases hc : letters.contains c with
  | true => exact (h c (List.contains_iff_mem.1 hc)).symm
  | false => rfl

theorem insertAll_of_isAlpha (h : ∀ c ∈ letters, c.isAlpha = true) :
    f.insertAll letters = (.ok (), letters.foldl add f) := by
  induction letters generalizing f with
  | nil => rfl
  | cons c r ih =>
    have hc := h c (by simp)
    simp only [insertAll, insert, hc, if_true, List.foldl_cons]
    exact ih fun d hd => h d (by simp [hd])

/-- Letters are set from left to right; a bad one stops all that follow. -/
theorem insertAll_append (f : Flags) (s t : Text) : f.insertAll (s ++ t) =
    match f.insertAll s with
    | (.ok _, g) => g.insertAll t
    | (.error e, g) => (.error e, g) := by
  induction s generalizing f with
  | nil => rfl
  | cons c s ih =>
    rw [List.cons_append, insertAll, insertAll]
    rcases f.insert c with ⟨e | _, g⟩
    · rfl
    · exact ih g

theorem isAlpha_of_insertAll (h : f.insertAll letters = (.ok (), g)) :
    (∀ c ∈ letters, c.isAlpha = true) ∧ g = letters.foldl add f := by
  induction letters generalizing f with
  | nil => exact ⟨by simp, (Prod.mk.inj h).2.symm⟩
  | cons c r ih =>
    cases hc : c.isAlpha with
    | false => simp [insertAll, insert, hc] at h
    | true =>
      simp only [insertAll, insert, hc, if_true] at h
      obtain ⟨hr, hg⟩ := ih h
      exact ⟨List.forall_mem_cons.2 ⟨hc, hr⟩, hg⟩

theorem parse_append (s t : Text) : parse (s ++ t) =
    match parse s with
    | .ok f =>
      match f.insertAll t with
      | (.ok _, g) => .ok g
      | (.error e, _) => .error e
    | .error e => .error e := by
  simp only [parse, insertAll_append]
  rcases insertAll empty s with ⟨e | _, g⟩ <;> rfl

theorem isAlpha_of_parse (h : parse t = .ok f) : ∀ c, f.has c = true → c.isAlpha = true := by
  intro c hc
  rw [parse] at h
  rcases hi : insertAll empty t with ⟨e | _, g⟩
  · simp [hi] at h
  · simp only [hi, Except.ok.injEq] at h
    obtain ⟨halpha, hg⟩ := isAlpha_of_insertAll hi
    rw [← h, hg, has_foldl_add, has_empty, Bool.or_false, List.contains_iff_mem] at hc
    exact halpha c hc

theorem parse_letters (h : ∀ c, f.has c = true → c.isAlpha = true) : parse f.letters = .ok f := by
  have hread : f.letters.foldl add empty = f := eq_of_has fun c => by
    rw [has_foldl_add, has_empty, Bool.or_false]
    rfl
  rw [parse, insertAll_of_isAlpha fun c hc => h c (has_iff.2 hc), hread]

end RegexDialect.Flags
