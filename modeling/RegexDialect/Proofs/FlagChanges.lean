import Mathlib.Data.Set.Insert
import RegexDialect.Proofs.FlagSets

/-! Changes of flags against sets of letters. A change does to the set what it says, also when it
fails half-way; and flags that come from a text by changes have one written form, which is read back
as the same flags. -/
namespace RegexDialect.Flags

def toSet (f : Flags) : Set Char := {c | f.has c = true}

section View

variable {f g : Flags} {s t letters : Text}

@[simp] theorem mem_toSet {c : Char} : c ∈ f.toSet ↔ f.has c = true := Iff.rfl

theorem toSet_eq_iff : f.toSet = g.toSet ↔ f = g := by
  constructor
  · intro h
    apply eq_of_has
    intro c
    rw [Bool.eq_iff_iff, ← mem_toSet, ← mem_toSet, h]
  · intro h
    rw [h]

theorem toSet_foldl_add (f : Flags) (letters : Text) :
    (letters.foldl add f).toSet = f.toSet ∪ {c | c ∈ letters} := by
  ext c
  rw [mem_toSet, has_foldl_add, Bool.or_eq_true, List.contains_iff_mem, or_comm]
  exact Iff.rfl

theorem toSet_foldl_add_empty (letters : Text) :
    (letters.foldl add empty).toSet = {c | c ∈ letters} := by
  rw [toSet_foldl_add]
  ext c
  simp

/-- The written form is the one increasing text of the characters that are set. -/
theorem eq_letters_iff : t = f.letters ↔ t.Pairwise (· < ·) ∧ {c | c ∈ t} = f.toSet := by
  constructor
  · intro h
    subst h
    refine ⟨f.increasing, ?_⟩
    ext c
    exact has_iff.symm
  · intro h
    obtain ⟨hincreasing, hset⟩ := h
    have hsame : (⟨t, hincreasing⟩ : Flags) = f := by
      rw [← toSet_eq_iff, ← hset]
      ext c
      exact has_iff
    exact congrArg Flags.letters hsame

/-- A text is read if it consists of letters, and these are then set. -/
theorem parse_eq_ok_iff :
    parse t = .ok f ↔ (∀ c ∈ t, c.isAlpha = true) ∧ f.toSet = {c | c ∈ t} := by
  constructor
  · intro h
    rw [parse] at h
    rcases hread : insertAll empty t with ⟨e | _, g⟩
    · simp [hread] at h
    · obtain ⟨hletters, hg⟩ := isAlpha_of_insertAll hread
      simp only [hread, Except.ok.injEq] at h
      refine ⟨hletters, ?_⟩
      rw [← h, hg, toSet_foldl_add_empty]
  · intro h
    obtain ⟨hletters, hf⟩ := h
    rw [parse, insertAll_of_isAlpha hletters]
    have hsame : t.foldl add empty = f := by rw [← toSet_eq_iff, toSet_foldl_add_empty, hf]
    rw [hsame]

/-- Texts are read as the same flags when they consist of the same letters, in whatever order and
however often. -/
theorem exists_parse_iff : (∃ h, parse s = .ok h ∧ parse t = .ok h) ↔
    (∀ c ∈ s, c.isAlpha = true) ∧ (∀ c ∈ t, c.isAlpha = true) ∧ {c | c ∈ s} = {c | c ∈ t} := by
  constructor
  · intro hread
    obtain ⟨h, hs, ht⟩ := hread
    rw [parse_eq_ok_iff] at hs ht
    exact ⟨hs.1, ht.1, hs.2.symm.trans ht.2⟩
  · intro hsame
    obtain ⟨hs, ht, heq⟩ := hsame
    refine ⟨s.foldl add empty, ?_, ?_⟩
    · exact parse_eq_ok_iff.2 ⟨hs, toSet_foldl_add_empty s⟩
    · exact parse_eq_ok_iff.2 ⟨ht, (toSet_foldl_add_empty s).trans heq⟩

theorem insertAll_eq (f : Flags) (letters : Text) : f.insertAll letters =
    (match letters.find? fun c => !c.isAlpha with
      | some c => .error (.invalidFlag c)
      | none => .ok (), (letters.takeWhile Char.isAlpha).foldl add f) := by
  induction letters generalizing f with
  | nil => rfl
  | cons c letters ih =>
    cases hc : c.isAlpha with
    | true =>
      rw [List.find?_cons_of_neg (by simp [hc]), List.takeWhile_cons_of_pos hc,
        List.foldl_cons, ← ih]
      simp only [insertAll, insert, hc, if_true]
    | false =>
      rw [List.find?_cons_of_pos (by simp [hc]), List.takeWhile_cons_of_neg (by simp [hc])]
      simp [insertAll, insert, hc]

end View

inductive Change
  | insert (flag : Char)
  | insertAll (letters : Text)
  | remove (flag : Char)

namespace Change

def run : Change → Flags → Except Error Unit × Flags
  | insert flag, f => f.insert flag
  | insertAll letters, f => f.insertAll letters
  | remove flag, f => (.ok (), f.remove flag)

/-- Changes one after the other, whether they fail or not: their answers and the flags after the
last. -/
def runAll : List Change → Flags → List (Except Error Unit) × Flags
  | [], f => ([], f)
  | change :: changes, f =>
    let rest := runAll changes (change.run f).2
    ((change.run f).1 :: rest.1, rest.2)

/-- What a change does to a set of letters. A character that is no letter is not added, nor what
follows it. -/
def onSet : Change → Set Char → Set Char
  | insert flag, s => s ∪ {c | c = flag ∧ c.isAlpha = true}
  | insertAll letters, s => s ∪ {c | c ∈ letters.takeWhile Char.isAlpha}
  | remove flag, s => s \ {flag}

/-- The first character of a change that is not a letter, when it adds any. -/
def fault? : Change → Option Char
  | insert flag => [flag].find? fun c => !c.isAlpha
  | insertAll letters => letters.find? fun c => !c.isAlpha
  | remove _ => none

def answer (change : Change) : Except Error Unit :=
  match change.fault? with
  | some c => .error (.invalidFlag c)
  | none => .ok ()

variable {t : Text} {f : Flags}

theorem answer_run (change : Change) (f : Flags) : (change.run f).1 = change.answer := by
  cases change with
  | insert flag => cases h : flag.isAlpha <;> simp [run, Flags.insert, answer, fault?, h]
  | insertAll letters => rw [run, insertAll_eq, answer, fault?]
  | remove flag => rfl

theorem toSet_run (change : Change) (f : Flags) :
    (change.run f).2.toSet = change.onSet f.toSet := by
  cases change with
  | insert flag =>
    ext c
    cases h : flag.isAlpha with
    | true =>
      have hflag : c = flag → c.isAlpha = true := fun hc => hc ▸ h
      simp only [run, Flags.insert, h, if_true, mem_toSet, has_add, onSet, Set.mem_union,
        Bool.or_eq_true, beq_iff_eq]
      rw [or_comm]
      exact or_congr_right (and_iff_left_of_imp hflag).symm
    | false =>
      have hflag : ¬(c = flag ∧ c.isAlpha = true) := by
        rintro ⟨rfl, hc⟩
        simp [h] at hc
      simp [run, Flags.insert, h, onSet, hflag]
  | insertAll letters => rw [run, insertAll_eq, toSet_foldl_add, onSet]
  | remove flag =>
    ext c
    simp [run, onSet]

theorem answers_runAll (changes : List Change) (f : Flags) :
    (runAll changes f).1 = changes.map answer := by
  induction changes generalizing f with
  | nil => rfl
  | cons change changes ih => rw [runAll, List.map_cons, ← answer_run change f, ih]

theorem toSet_runAll (changes : List Change) (f : Flags) :
    (runAll changes f).2.toSet = changes.foldl (fun s change => change.onSet s) f.toSet := by
  induction changes generalizing f with
  | nil => rfl
  | cons change changes ih => rw [runAll, List.foldl_cons, ← toSet_run, ih]

theorem isAlpha_of_mem_onSet (change : Change) {s : Set Char} (hs : ∀ c ∈ s, c.isAlpha = true) :
    ∀ c ∈ change.onSet s, c.isAlpha = true := by
  intro c hc
  cases change with
  | insert flag => exact hc.elim (hs c) fun h => h.2
  | insertAll letters => exact hc.elim (hs c) fun h => List.all_eq_true.1 List.all_takeWhile c h
  | remove flag => exact hs c hc.1

theorem isAlpha_of_mem_foldl (changes : List Change) {s : Set Char}
    (hs : ∀ c ∈ s, c.isAlpha = true) :
    ∀ c ∈ changes.foldl (fun s change => change.onSet s) s, c.isAlpha = true := by
  induction changes generalizing s with
  | nil => exact hs
  | cons change changes ih => exact ih (change.isAlpha_of_mem_onSet hs)

/-- Flags are a set of letters with one written form. From flags that were read, every change gives
the answer that depends on it alone and adds or removes its letters, of a text with a bad character
those in front of it; so the flags are in the end the set that the changes make of the letters read.
Their written form is the one increasing text of that set and is read back as the same flags, and
any two texts are read as the same flags when they consist of the same letters. -/
theorem canonical_runAll (h : parse t = .ok f) (changes : List Change) :
    (runAll changes f).1 = changes.map answer ∧
    (runAll changes f).2.toSet = changes.foldl (fun s change => change.onSet s) {c | c ∈ t} ∧
    (∀ c ∈ (runAll changes f).2.toSet, c.isAlpha = true) ∧
    (∀ u, u = (runAll changes f).2.letters ↔
      u.Pairwise (· < ·) ∧
        {c | c ∈ u} = changes.foldl (fun s change => change.onSet s) {c | c ∈ t}) ∧
    parse (runAll changes f).2.letters = .ok (runAll changes f).2 ∧
    ∀ u v, (∃ g, parse u = .ok g ∧ parse v = .ok g) ↔
      (∀ c ∈ u, c.isAlpha = true) ∧ (∀ c ∈ v, c.isAlpha = true) ∧ {c | c ∈ u} = {c | c ∈ v} := by
  obtain ⟨hletters, hread⟩ := parse_eq_ok_iff.1 h
  have hset : (runAll changes f).2.toSet = changes.foldl (fun s change => change.onSet s)
      {c | c ∈ t} := by
    rw [toSet_runAll, hread]
  have halpha : ∀ c ∈ (runAll changes f).2.toSet, c.isAlpha = true := by
    rw [hset]
    exact isAlpha_of_mem_foldl changes hletters
  refine ⟨answers_runAll changes f, hset, halpha, ?_, parse_letters halpha, fun u v =>
    exists_parse_iff⟩
  intro u
  rw [eq_letters_iff, hset]

/-- A text with a hyphen in it fails half-way: the letter in front of the hyphen is set, the one
behind it is not. -/
theorem canonical_runAll_hyphen :
    parse ['x', 'g', 'i', 'x'] = .ok ⟨['g', 'i', 'x'], by decide⟩ ∧
    (runAll [.insertAll ['m', '-', 's'], .remove 'x', .insert '1'] ⟨['g', 'i', 'x'], by decide⟩).1 =
      [.error (.invalidFlag '-'), .ok (), .error (.invalidFlag '1')] ∧
    parse ['g', 'i', 'm'] =
      .ok (runAll [.insertAll ['m', '-', 's'], .remove 'x', .insert '1']
        ⟨['g', 'i', 'x'], by decide⟩).2 := by
  have hread : parse ['x', 'g', 'i', 'x'] = .ok ⟨['g', 'i', 'x'], by decide⟩ := by decide
  obtain ⟨hanswers, -, -, -, hback, -⟩ :=
    canonical_runAll hread [.insertAll ['m', '-', 's'], .remove 'x', .insert '1']
  exact ⟨hread, hanswers, hback⟩

end Change
end RegexDialect.Flags
