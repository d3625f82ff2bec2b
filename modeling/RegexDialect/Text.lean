/-! Texts are lists of characters. Places in a text are byte offsets of its UTF-8 form, so an offset
is usable only on a boundary between two characters; cutting at any other offset fails. -/
namespace RegexDialect

abbrev Text := List Char

/-- A half-open range of byte offsets. -/
structure Span where
  start : Nat
  stop : Nat
deriving DecidableEq, Repr

namespace Span

def length (s : Span) : Nat := s.stop - s.start

def isEmpty (s : Span) : Bool := s.start == s.stop

end Span

namespace Text

theorem forall_mem_of_all {p : Char → Prop} [DecidablePred p] {t : Text}
    (h : (t.all fun c => decide (p c)) = true) :
    ∀ c ∈ t, p c := by
  simpa using h

theorem ne_of_test {p : Char → Bool} {c d : Char} (hc : p c = true) (hd : p d = false) : c ≠ d := by
  rintro rfl
  exact absurd (hc.symm.trans hd) (by decide)

def bytes : Text → Nat
  | [] => 0
  | c :: r => c.utf8Size + bytes r

@[simp] theorem bytes_nil : bytes [] = 0 := rfl

@[simp] theorem bytes_cons (c : Char) (r : Text) : bytes (c :: r) = c.utf8Size + bytes r := rfl

@[simp] theorem bytes_append (s t : Text) : bytes (s ++ t) = bytes s + bytes t := by
  induction s with
  | nil => simp
  | cons c r ih => simp [ih, Nat.add_assoc]

theorem bytes_pos_of_ne_nil {t : Text} (h : t ≠ []) : 0 < bytes t := by
  cases t with
  | nil => exact absurd rfl h
  | cons c r =>
    have := c.utf8Size_pos
    simp only [bytes_cons]
    omega

def cutAt? : Text → Nat → Option (Text × Text)
  | t, 0 => some ([], t)
  | [], _ + 1 => none
  | c :: r, n + 1 =>
    if c.utf8Size ≤ n + 1 then (cutAt? r (n + 1 - c.utf8Size)).map fun p =>
      (c :: p.1, p.2) else none

@[simp] theorem cutAt?_zero (t : Text) : cutAt? t 0 = some ([], t) := by cases t <;> rfl

/-- A cut loses nothing and its first part has the stated size. -/
theorem append_of_cutAt? {t a b : Text} {n : Nat} (h : cutAt? t n = some (a, b)) :
    a ++ b = t ∧ bytes a = n := by
  induction t generalizing n a with
  | nil =>
    cases n with
    | zero => simp_all
    | succ n => simp [cutAt?] at h
  | cons c r ih =>
    cases n with
    | zero =>
      simp at h
      obtain ⟨rfl, rfl⟩ := h
      simp
    | succ n =>
      simp only [cutAt?] at h
      split at h
      · obtain ⟨⟨x, y⟩, hx, he⟩ := Option.map_eq_some_iff.1 h
        obtain ⟨rfl, rfl⟩ := Prod.mk.inj he
        obtain ⟨h₁, h₂⟩ := ih hx
        simp only [List.cons_append, h₁, bytes_cons, h₂, true_and]
        omega
      · exact absurd h (by simp)

/-- Every split of a text into two parts is a cut. -/
@[simp] theorem cutAt?_append (a b : Text) : cutAt? (a ++ b) (bytes a) = some (a, b) := by
  induction a with
  | nil => simp
  | cons c r ih =>
    obtain ⟨k, hk⟩ : ∃ k, bytes (c :: r) = k + 1 := ⟨bytes (c :: r) - 1, by
      have := bytes_pos_of_ne_nil (List.cons_ne_nil c r)
      omega⟩
    rw [hk, List.cons_append, cutAt?]
    simp only [bytes_cons] at hk
    rw [if_pos (by omega), show k + 1 - c.utf8Size = bytes r by omega, ih]
    rfl

def isBoundary (t : Text) (n : Nat) : Bool := (cutAt? t n).isSome

theorem isBoundary_iff {t : Text} {n : Nat} :
    isBoundary t n = true ↔ ∃ a b, t = a ++ b ∧ bytes a = n := by
  constructor
  · intro h
    obtain ⟨⟨a, b⟩, hc⟩ := Option.isSome_iff_exists.1 h
    exact ⟨a, b, (append_of_cutAt? hc).1.symm, (append_of_cutAt? hc).2⟩
  · rintro ⟨a, b, rfl, rfl⟩
    simp [isBoundary]

/-- The part of the text inside a span, when both ends are boundaries in order. -/
def slice? (t : Text) (s : Span) : Option Text :=
  if s.start ≤ s.stop then do
    let (_, rest) ← cutAt? t s.start
    let (inside, _) ← cutAt? rest (s.stop - s.start)
    some inside
  else none

def slice (t : Text) (s : Span) : Text := (slice? t s).getD []

def upTo (t : Text) (n : Nat) : Text := slice t ⟨0, n⟩

def dropTo (t : Text) (n : Nat) : Text := ((cutAt? t n).map Prod.snd).getD []

theorem slice?_append (a b c : Text) :
    slice? (a ++ b ++ c) ⟨bytes a, bytes a + bytes b⟩ = some b := by
  simp [slice?, List.append_assoc]

/-- Offset just past the character that starts at `n`, or one further at the end of the text. -/
def stepFrom (t : Text) (n : Nat) : Nat :=
  match dropTo t n with
  | c :: _ => n + c.utf8Size
  | [] => n + 1

def ofNat (n : Nat) : Text := Nat.toDigits 10 n

/-- Value of a non-empty run of ASCII digits. -/
def toNat? (t : Text) : Option Nat :=
  if t.isEmpty || !t.all Char.isDigit then none
  else some (t.foldl (fun n c => 10 * n + (c.toNat - 48)) 0)

def isHexDigit (c : Char) : Bool := c.isDigit || ('a' ≤ c && c ≤ 'f') || ('A' ≤ c && c ≤ 'F')

def hexDigitValue (c : Char) : Nat :=
  if c.isDigit then c.toNat - 48 else if 'a' ≤ c && c ≤ 'f' then c.toNat - 87 else c.toNat - 55

def hexValue (t : Text) : Nat := t.foldl (fun n c => 16 * n + hexDigitValue c) 0

/-- Hexadecimal digits of a number, in lower case. -/
def ofNatHex (n : Nat) : Text := Nat.toDigits 16 n

/-- What follows `head`, when the text starts with it. -/
def dropHead? : (head : Text) → Text → Option Text
  | [], t => some t
  | _ :: _, [] => none
  | h :: hs, c :: r => if h = c then dropHead? hs r else none

@[simp] theorem dropHead?_append (h t : Text) : dropHead? h (h ++ t) = some t := by
  induction h with
  | nil => simp [dropHead?]
  | cons c r ih => simp [dropHead?, ih]

theorem eq_append_of_dropHead? {h t r : Text} (e : dropHead? h t = some r) : t = h ++ r := by
  induction h generalizing t with
  | nil => simpa [dropHead?] using e
  | cons c hs ih =>
    cases t with
    | nil => simp [dropHead?] at e
    | cons d t =>
      simp only [dropHead?] at e
      split at e
      · next hc => subst hc; simp [ih e]
      · exact absurd e (by simp)

def startsWith (t head : Text) : Bool := (dropHead? head t).isSome

theorem exists_run (p : Char → Bool) (t : Text) :
    ∃ a b, t = a ++ b ∧ (∀ c ∈ a, p c = true) ∧ ∀ c ∈ b.head?, p c = false := by
  refine ⟨t.takeWhile p, t.dropWhile p, List.takeWhile_append_dropWhile.symm, ?_, ?_⟩
  · intro c hc
    exact List.all_eq_true.1 List.all_takeWhile c hc
  · intro c hc
    have h := List.head?_dropWhile_not p t
    rw [Option.mem_def.1 hc] at h
    simpa using h

theorem takeWhile_run {p : Char → Bool} {a b : Text} (ha : ∀ c ∈ a, p c = true)
    (hb : ∀ c ∈ b.head?, p c = false) : (a ++ b).takeWhile p = a := by
  rw [List.takeWhile_append_of_pos ha]
  cases b with
  | nil => simp
  | cons c b => simp [hb c rfl]

end Text
end RegexDialect
