import RegexDialect.Context

/-! Pieces of baseline syntax that the scan copies as a unit: escapes, group openers, quantifiers. A
reader gives the length of the piece in characters, zero when there is none. -/
namespace RegexDialect.BaselineToken

def isOctal (c : Char) : Bool := '0' ≤ c && c ≤ '7'

/-- Length of the longest run of characters that pass a test. -/
def run (p : Char → Bool) (t : Text) : Nat := (t.takeWhile p).length

/-- Length of such a run among the first `n` characters. -/
def runUpTo (n : Nat) (p : Char → Bool) (t : Text) : Nat := run p (t.take n)

/-- An octal number of up to three digits and at most 377; the first digit is given. -/
def octalAfter (first : Char) (t : Text) : Nat :=
  if '0' ≤ first && first ≤ '3' then 1 + runUpTo 2 isOctal t else 1 + runUpTo 1 isOctal t

/-- Characters in braces, with both braces. -/
def braced (p : Char → Bool) : Text → Nat
  | '\x7b' :: r =>
    let n := run p r
    match r.drop n with
    | '}' :: _ => n + 2
    | _ => 0
  | _ => 0

/-- Escapes that are read alike inside and outside classes, after the backslash: `p{..}`, `x{..}`,
`xHH`, `uHHHH`, `cA`, else one character of any kind. -/
def commonEscape : Text → Nat
  | [] => 0
  | c :: r =>
    if (c == 'p' || c == 'P') && braced (· != '}') r != 0 then 1 + braced (· != '}') r
    else if c == 'x' && 2 < braced Text.isHexDigit r then 1 + braced Text.isHexDigit r
    else if c == 'x' && runUpTo 2 Text.isHexDigit r == 2 then 3
    else if c == 'u' && runUpTo 4 Text.isHexDigit r == 4 then 5
    else if c == 'c' && runUpTo 1 Char.isAlpha r == 1 then 2
    else 1

/-- An escape inside a class; digits are octal. -/
def classEscape : Text → Nat
  | [] => 0
  | c :: r => if isOctal c then octalAfter c r else commonEscape (c :: r)

/-- An escape outside classes; a zero opens an octal number, another digit a group number. -/
def outerEscape : Text → Nat
  | [] => 0
  | '0' :: c :: r => if isOctal c then 1 + octalAfter c r else 1
  | c :: r => if c.isDigit && c != '0' then 1 + run Char.isDigit r else commonEscape (c :: r)

/-- A counted quantifier `{n}`, `{n,}` or `{n,m}`. -/
def counted : Text → Nat
  | '\x7b' :: r =>
    let n := run Char.isDigit r
    if n == 0 then 0
    else
      match r.drop n with
      | '}' :: _ => n + 2
      | ',' :: s =>
        let m := run Char.isDigit s
        match s.drop m with
        | '}' :: _ => n + m + 3
        | _ => 0
      | _ => 0
  | _ => 0

def isRepeatSign (c : Char) : Bool := c == '?' || c == '*' || c == '+'

def startsWithQuantifier : Text → Bool
  | [] => false
  | c :: r => isRepeatSign c || counted (c :: r) != 0

/-- A piece of the given length, with the question mark that may follow it. -/
def withLazyMark (t : Text) (n : Nat) : Nat :=
  match t.drop n with
  | '?' :: _ => n + 1
  | _ => n

/-- A unit inside a class: an escape. -/
def inClass : Text → Nat
  | '\\' :: r => if classEscape r == 0 then 0 else 1 + classEscape r
  | _ => 0

/-- A unit outside classes: an escape, an opener `(?:`, `(?=`, `(?!`, or a quantifier. -/
def outside : Text → Nat
  | '\\' :: r => if outerEscape r == 0 then 0 else 1 + outerEscape r
  | '(' :: '?' :: c :: _ => if c == ':' || c == '=' || c == '!' then 3 else 0
  | c :: r =>
    if isRepeatSign c then withLazyMark (c :: r) 1
    else if counted (c :: r) != 0 then withLazyMark (c :: r) (counted (c :: r))
    else 0
  | [] => 0

/-- Length of the unit at the start of a text, read in the given scope. -/
def length (scope : Scope) (t : Text) : Nat :=
  if scope = Scope.insideClass then inClass t else outside t

@[simp] theorem length_outsideClass (t : Text) :
    length .outsideClass t = outside t := if_neg (by decide)

@[simp] theorem length_insideClass (t : Text) : length .insideClass t = inClass t := if_pos rfl

theorem run_le (p : Char → Bool) (t : Text) :
    run p t ≤ t.length := List.takeWhile_prefix p |>.length_le

theorem runUpTo_le (n : Nat) (p : Char → Bool) (t : Text) : runUpTo n p t ≤ t.length := by
  have h := run_le p (t.take n)
  simp only [List.length_take] at h
  exact Nat.le_trans h (Nat.min_le_right _ _)

theorem octalAfter_le (c : Char) (t : Text) : octalAfter c t ≤ t.length + 1 := by
  have h₁ := runUpTo_le 2 isOctal t
  have h₂ := runUpTo_le 1 isOctal t
  simp only [octalAfter]
  split <;> omega

theorem braced_le (p : Char → Bool) (t : Text) : braced p t ≤ t.length := by
  unfold braced
  split
  · next r =>
    have h := run_le p r
    simp only
    split
    · next hr =>
      have := congrArg List.length hr
      simp only [List.length_drop, List.length_cons] at this ⊢
      omega
    · omega
  · omega

theorem commonEscape_le (t : Text) : commonEscape t ≤ t.length := by
  unfold commonEscape
  split
  · simp
  · next c r =>
    have h₁ := braced_le (· != '}') r
    have h₂ := braced_le Text.isHexDigit r
    have h₃ := runUpTo_le 2 Text.isHexDigit r
    have h₄ := runUpTo_le 4 Text.isHexDigit r
    have h₅ := runUpTo_le 1 Char.isAlpha r
    simp only [List.length_cons, beq_iff_eq, Bool.and_eq_true]
    repeat' split
    all_goals omega

theorem classEscape_le (t : Text) : classEscape t ≤ t.length := by
  unfold classEscape
  split
  · simp
  · next c r =>
    have h₁ := octalAfter_le c r
    have h₂ := commonEscape_le (c :: r)
    simp only [List.length_cons] at h₂ ⊢
    split <;> omega

theorem outerEscape_le (t : Text) : outerEscape t ≤ t.length := by
  unfold outerEscape
  split
  · simp
  · next c r =>
    have h := octalAfter_le c r
    simp only [List.length_cons]
    split <;> omega
  · next c r _ =>
    have h₁ := run_le Char.isDigit r
    have h₂ := commonEscape_le (c :: r)
    simp only [List.length_cons] at h₂ ⊢
    split <;> omega

theorem counted_le (t : Text) : counted t ≤ t.length := by
  unfold counted
  split
  · next r =>
    have h := run_le Char.isDigit r
    simp only
    split
    · omega
    · split
      · next hr =>
        have := congrArg List.length hr
        simp only [List.length_drop, List.length_cons] at this ⊢
        omega
      · next s hr =>
        have h' := run_le Char.isDigit s
        have := congrArg List.length hr
        simp only [List.length_drop, List.length_cons] at this
        split
        · next hs =>
          have := congrArg List.length hs
          simp only [List.length_drop, List.length_cons] at this ⊢
          omega
        · omega
      · omega
  · omega

theorem withLazyMark_le {t : Text} {n : Nat} (h : n ≤ t.length) : withLazyMark t n ≤ t.length := by
  unfold withLazyMark
  split
  · next ht =>
    have := congrArg List.length ht
    simp only [List.length_drop, List.length_cons] at this
    omega
  · exact h

theorem inClass_le (t : Text) : inClass t ≤ t.length := by
  unfold inClass
  split
  · next r =>
    have h := classEscape_le r
    simp only [List.length_cons]
    split <;> omega
  · omega

theorem outside_le (t : Text) : outside t ≤ t.length := by
  unfold outside
  split
  · next r =>
    have h := outerEscape_le r
    simp only [List.length_cons]
    split <;> omega
  · simp only [List.length_cons]
    split <;> omega
  · next c r _ _ =>
    have h₁ : withLazyMark (c :: r) 1 ≤ (c :: r).length := withLazyMark_le (by simp)
    have h₂ : withLazyMark (c :: r) (counted (c :: r)) ≤ (c :: r).length :=
      withLazyMark_le (counted_le _)
    repeat' split
    all_goals omega
  · omega

theorem length_le (scope : Scope) (t : Text) : length scope t ≤ t.length := by
  unfold length
  split
  · exact inClass_le t
  · exact outside_le t

theorem outside_of_other {c : Char} {t : Text} (h : c ∉ ['\\', '(', '?', '*', '+', '\x7b']) :
    outside (c :: t) = 0 := by
  simp only [List.mem_cons, List.not_mem_nil, or_false, not_or] at h
  obtain ⟨h₁, h₂, h₃, h₄, h₅, h₆⟩ := h
  have hr : isRepeatSign c = false := by simp [isRepeatSign, *]
  have hq : counted (c :: t) = 0 := by simp [counted, *]
  simp [outside, *]

end RegexDialect.BaselineToken
