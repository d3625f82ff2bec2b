import RegexDialect.Error

/-! Flags are a set of characters, kept as its strictly increasing list, which is also its written
form. The letters `g` and `y` steer matching, `i` and `m` the baseline engine, `n`, `s` and `x` the
compiler; every other letter is free for user rules. -/
namespace RegexDialect

/-- A set of flag characters in code point order. -/
structure Flags where
  letters : Text
  increasing : letters.Pairwise (· < ·) := by decide
deriving DecidableEq

namespace Flags

/-- A character put in its place in an increasing list, unless it is there. -/
def place (c : Char) : Text → Text
  | [] => [c]
  | d :: r => if c < d then c :: d :: r else if c = d then d :: r else d :: place c r

@[simp] theorem mem_place {a c : Char} {t : Text} : a ∈ place c t ↔ a = c ∨ a ∈ t := by
  induction t with
  | nil => simp [place]
  | cons d r ih =>
    simp only [place]
    split
    · simp
    · split
      · next h => subst h; simp
      · simp only [List.mem_cons, ih]
        exact or_left_comm

theorem lt_of_not_lt_of_ne {c d : Char} (h : ¬ c < d) (hne : c ≠ d) : d < c := by
  have hv : c.val ≠ d.val := fun e => hne (Char.ext e)
  have hn : c.val.toNat ≠ d.val.toNat := fun e => hv (UInt32.toNat_inj.1 e)
  simp only [Char.lt_def, UInt32.lt_iff_toNat_lt] at h ⊢
  omega

theorem increasing_place {c : Char} {t : Text} (h : t.Pairwise (· < ·)) :
    (place c t).Pairwise (· < ·) := by
  induction t with
  | nil => simp [place]
  | cons d r ih =>
    have hd := List.pairwise_cons.1 h
    simp only [place]
    split
    · next hcd =>
      refine List.pairwise_cons.2 ⟨fun a ha => ?_, h⟩
      rcases List.mem_cons.1 ha with rfl | hr
      · exact hcd
      · exact Char.lt_trans hcd (hd.1 a hr)
    · next hcd =>
      split
      · exact h
      · next hne =>
        refine List.pairwise_cons.2 ⟨fun a ha => ?_, ih hd.2⟩
        rcases mem_place.1 ha with rfl | hr
        · exact lt_of_not_lt_of_ne hcd hne
        · exact hd.1 a hr

def empty : Flags := ⟨[], .nil⟩

def has (f : Flags) (c : Char) : Bool := f.letters.contains c

def isEmpty (f : Flags) : Bool := f.letters.isEmpty

def add (f : Flags) (c : Char) : Flags := ⟨place c f.letters, increasing_place f.increasing⟩

def remove (f : Flags) (c : Char) : Flags := ⟨f.letters.filter (· != c), f.increasing.filter _⟩

/-- A copy with `c` set or cleared; `c` need not be a letter. -/
def toggle (f : Flags) (c : Char) (on : Bool) : Flags := if on then f.add c else f.remove c

/-- Sets one flag; only ASCII letters are flags. -/
def insert (f : Flags) (c : Char) : Except Error Unit × Flags :=
  if c.isAlpha then (.ok (), f.add c) else (.error (.invalidFlag c), f)

/-- Sets flags from left to right and stops at the first that is no letter; those before it stay
set. -/
def insertAll : Flags → Text → Except Error Unit × Flags
  | f, [] => (.ok (), f)
  | f, c :: r =>
    match f.insert c with
    | (.ok _, g) => insertAll g r
    | (.error e, g) => (.error e, g)

/-- The set written by a text; order and repetition do not matter. -/
def parse (t : Text) : Except Error Flags :=
  match insertAll empty t with
  | (.ok _, f) => .ok f
  | (.error e, _) => .error e

@[simp] theorem has_empty (c : Char) : empty.has c = false := rfl

theorem has_iff {f : Flags} {c : Char} : f.has c = true ↔ c ∈ f.letters := by simp [has]

@[simp] theorem has_add (f : Flags) (c d : Char) : (f.add c).has d = (d == c || f.has d) := by
  rw [Bool.eq_iff_iff]
  simp [has, add]

@[simp] theorem has_remove (f : Flags) (c d : Char) : (f.remove c).has d = (f.has d && d != c) := by
  rw [Bool.eq_iff_iff]
  simp [has, remove]

/-- Inline group that hands `i` and `m` to the baseline engine; nothing when neither is set. -/
def baselinePrefix (f : Flags) : Text :=
  match ['i', 'm'].filter f.has with
  | [] => []
  | known => ['(', '?'] ++ known ++ [')']

end Flags
end RegexDialect
