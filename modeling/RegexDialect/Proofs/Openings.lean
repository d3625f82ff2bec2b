import RegexDialect.Scan.BaselineToken

/-! The opening parentheses of a text in baseline syntax, found by going through the text once:
those behind a backslash, in brackets and in the name of a property are plain characters. -/
namespace RegexDialect.Baseline

/-- Where a place of a text is: outside brackets, right after the bracket that opens a class, after
its complement sign, in a class some brackets deep, behind a backslash, or in the braces of a
property. The last two go back to where the backslash was. -/
inductive Place
  | outside
  | bracket
  | caret
  | inside (nesting : Nat)
  | escaped (within : Option Nat)
  | name (within : Option Nat)
deriving DecidableEq

namespace Place

def back : Option Nat → Place
  | none => outside
  | some n => inside n

def item (nesting : Nat) (c : Char) : Place :=
  if c == '\\' then escaped (some nesting) else if c == '[' then inside (nesting + 1)
  else inside nesting

/-- Whether an escape is a property with its name in braces. -/
def opensName (c : Char) (after : Text) : Bool :=
  (c == 'p' || c == 'P') && BaselineToken.braced (· != '}') after != 0

/-- The place after a character that has `after` behind it. -/
def next (p : Place) (c : Char) (after : Text) : Place :=
  match p with
  | outside => if c == '\\' then escaped none else if c == '[' then bracket else outside
  | bracket => if c == '^' then caret else item 0 c
  | caret => item 0 c
  | inside 0 => if c == ']' then outside else item 0 c
  | inside (n + 1) => if c == ']' then inside n else item (n + 1) c
  | escaped k => if opensName c after then name k else back k
  | name k => if c == '}' then back k else name k

end Place

/-- The opening parentheses from a place on, each by the text after it. -/
def openings : Place → Text → List Text
  | _, [] => []
  | p, c :: r =>
    if p = .outside ∧ c = '(' then r :: openings (p.next c r) r else openings (p.next c r) r

namespace Opening

def isBare (after : Text) : Bool := after.head? != some '?'

/-- Opens a conditional, whose condition has a parenthesis of its own. -/
def isConditional : Text → Bool
  | '?' :: '(' :: _ => true
  | _ => false

/-- Opens a group that has a name. -/
def isNamed : Text → Bool
  | '?' :: '<' :: c :: _ => c != '=' && c != '!'
  | '?' :: 'P' :: '<' :: _ => true
  | _ => false

def isModeLetter (c : Char) : Bool := c == 'i' || c == 'm' || c == 's' || c == 'U' || c == 'u'

/-- Neither a comment nor the start of free spacing, so that what follows is read as it stands. -/
def isQuiet : Text → Bool
  | '?' :: '#' :: _ => false
  | '?' :: r => (r.dropWhile isModeLetter).head? != some 'x'
  | _ => true

end Opening

section Openings

variable {c : Char} {p : Place} {a r : Text}

theorem openings_cons (hp : p ≠ .outside ∨ c ≠ '(') :
    openings p (c :: r) = openings (p.next c r) r := by
  rw [openings, if_neg fun h => hp.elim (fun hp => hp h.1) fun hc => hc h.2]

@[simp] theorem openings_parenthesis (r : Text) :
    openings .outside ('(' :: r) = r :: openings .outside r := rfl

def isPlain (c : Char) : Bool := c != '\\' && c != '(' && c != '['

theorem openings_plain_cons (h : isPlain c = true) (r : Text) :
    openings .outside (c :: r) = openings .outside r := by
  simp only [isPlain, Bool.and_eq_true, bne_iff_ne, ne_eq] at h
  rw [openings_cons (.inr h.1.2)]
  simp [Place.next, h]

theorem openings_plain (h : ∀ c ∈ a, isPlain c = true) (r : Text) :
    openings .outside (a ++ r) = openings .outside r := by
  induction a with
  | nil => rfl
  | cons c a ih =>
    rw [List.cons_append, openings_plain_cons (h c (by simp))]
    exact ih fun d hd => h d (by simp [hd])

@[simp] theorem openings_outside_backslash (r : Text) :
    openings .outside ('\\' :: r) = openings (.escaped none) r := rfl

@[simp] theorem openings_outside_bracket (r : Text) :
    openings .outside ('[' :: r) = openings .bracket r := rfl

def isInert (c : Char) : Bool := isPlain c && c != ']'

theorem isPlain_of_isInert (h : isInert c = true) : isPlain c = true := by
  simp only [isInert, Bool.and_eq_true] at h
  exact h.1

theorem isInert_of_test {p : Char → Bool} (hp : (['\\', '(', '[', ']'].all fun d => !p d) = true)
    (h : p c = true) :
    isInert c = true := by
  simp only [List.all_cons, List.all_nil, Bool.and_true, Bool.and_eq_true, Bool.not_eq_true'] at hp
  simp only [isInert, isPlain, Bool.and_eq_true, bne_iff_ne, ne_eq]
  refine ⟨⟨⟨?_, ?_⟩, ?_⟩, ?_⟩ <;> rintro rfl <;> simp [h] at hp

theorem isPlain_of_test {p : Char → Bool} (hp : (['\\', '(', '['].all fun d => !p d) = true)
    (h : p c = true) :
    isPlain c = true := by
  simp only [List.all_cons, List.all_nil, Bool.and_true, Bool.and_eq_true, Bool.not_eq_true'] at hp
  simp only [isPlain, Bool.and_eq_true, bne_iff_ne, ne_eq]
  refine ⟨⟨?_, ?_⟩, ?_⟩ <;> rintro rfl <;> simp [h] at hp

theorem openings_back (k : Option Nat) (h : ∀ c ∈ a, isInert c = true) (r : Text) :
    openings (Place.back k) (a ++ r) = openings (Place.back k) r := by
  induction a with
  | nil => rfl
  | cons c a ih =>
    have hc := h c (by simp)
    simp only [isInert, isPlain, Bool.and_eq_true, bne_iff_ne, ne_eq] at hc
    rw [List.cons_append, openings_cons (.inr hc.1.1.2)]
    have hnext : (Place.back k).next c (a ++ r) = Place.back k := by
      match k with
      | none | some 0 | some (n + 1) => simp [Place.back, Place.next, Place.item, hc]
    rw [hnext]
    exact ih fun d hd => h d (by simp [hd])

theorem openings_escaped (k : Option Nat) (c : Char) (r : Text) :
    openings (.escaped k) (c :: r) =
      if Place.opensName c r then openings (.name k) r else openings (Place.back k) r := by
  rw [openings_cons (.inl (by simp)), Place.next]
  split <;> rfl

theorem openings_escaped_of_not_opensName {k : Option Nat} (h : Place.opensName c r = false) :
    openings (.escaped k) (c :: r) = openings (Place.back k) r := by
  rw [openings_escaped, h]
  rfl

theorem openings_name (k : Option Nat) (h : ∀ c ∈ a, c ≠ '}') (r : Text) :
    openings (.name k) (a ++ '}' :: r) = openings (Place.back k) r := by
  induction a with
  | nil => exact openings_cons (.inl (by simp))
  | cons c a ih =>
    rw [List.cons_append, openings_cons (.inl (by simp)), Place.next,
      if_neg (by simpa using h c (by simp))]
    exact ih fun d hd => h d (by simp [hd])

/-- A name in braces is passed over as a whole. -/
theorem openings_braces (k : Option Nat) (h : ∀ c ∈ a, c ≠ '}') (r : Text) :
    openings (.name k) ('\x7b' :: (a ++ '}' :: r)) = openings (Place.back k) r :=
  @openings_name ('\x7b' :: a) k (by simpa using h) r

theorem opensName_of_ne (h₁ : c ≠ 'p') (h₂ : c ≠ 'P') (r : Text) : Place.opensName c r = false := by
  simp [Place.opensName, h₁, h₂]

theorem braced_of_closed {p : Char → Bool} (ha : ∀ c ∈ a, p c = true)
    (hp : p '}' = false) (r : Text) :
    BaselineToken.braced p ('\x7b' :: (a ++ '}' :: r)) = a.length + 2 := by
  have hrun : BaselineToken.run p (a ++ '}' :: r) = a.length := by
    rw [BaselineToken.run, Text.takeWhile_run ha (by simpa using hp)]
  simp [BaselineToken.braced, hrun]

theorem exists_of_braced {p : Char → Bool} {t : Text} (h : BaselineToken.braced p t ≠ 0) :
    ∃ a r, t = '\x7b' :: (a ++ '}' :: r) ∧ (∀ c ∈ a, p c = true) ∧ BaselineToken.braced p t =
      a.length + 2 := by
  unfold BaselineToken.braced at h ⊢
  split at h
  · next u =>
    obtain ⟨a, b, rfl, ha, hb⟩ := Text.exists_run p u
    have hrun : BaselineToken.run p (a ++ b) = a.length := by
      rw [BaselineToken.run, Text.takeWhile_run ha hb]
    simp only [hrun, List.drop_left] at h ⊢
    split at h
    · next r => exact ⟨a, r, rfl, ha, rfl⟩
    · exact absurd rfl h
  · exact absurd rfl h

end Openings

end RegexDialect.Baseline
