import Mathlib.Data.List.Infix
import RegexDialect.Text

/-! The places of a text, which are its boundaries and the offset past its end, and the longest
beginning of a text that has a property. -/
namespace RegexDialect

namespace Text

theorem exists_append_of_bytes_le {a b c d : Text} (h : a ++ b = c ++ d) (hle : bytes a ≤ bytes c) :
    ∃ m, c = a ++ m ∧ b = m ++ d := by
  rcases List.append_eq_append_iff.1 h with ⟨m, hc, hb⟩ | ⟨m, ha, hd⟩
  · exact ⟨m, hc, hb⟩
  · cases m with
    | nil => exact ⟨[], by simpa using ha.symm, by simpa using hd.symm⟩
    | cons x m =>
      have hx := bytes_pos_of_ne_nil (List.cons_ne_nil x m)
      rw [ha, bytes_append] at hle
      omega

@[simp] theorem dropTo_append (a b : Text) : dropTo (a ++ b) (bytes a) = b := by simp [dropTo]

theorem stepFrom_append_cons (a r : Text) (c : Char) :
    stepFrom (a ++ c :: r) (bytes a) = bytes (a ++ [c]) := by simp [stepFrom]

theorem stepFrom_bytes (t : Text) : stepFrom t (bytes t) = bytes t + 1 := by
  have h := dropTo_append t []
  rw [List.append_nil] at h
  simp [stepFrom, h]

theorem lt_stepFrom (t : Text) (n : Nat) : n < stepFrom t n := by
  simp only [stepFrom]
  split
  · next c _ _ =>
    have := c.utf8Size_pos
    omega
  · omega

/-- A place where a search may start: a boundary, or past the end of the text. -/
def IsPlace (t : Text) (n : Nat) : Prop := isBoundary t n = true ∨ bytes t < n

theorem isPlace_stepFrom {t : Text} {n : Nat} (h : isBoundary t n = true) :
    IsPlace t (stepFrom t n) := by
  obtain ⟨a, b, rfl, rfl⟩ := isBoundary_iff.1 h
  cases b with
  | nil =>
    right
    rw [List.append_nil, stepFrom_bytes]
    omega
  | cons c r =>
    left
    rw [stepFrom_append_cons]
    exact isBoundary_iff.2 ⟨a ++ [c], r, by simp, rfl⟩

def placesFrom (t : Text) (n : Nat) : Nat := if bytes t < n then 0 else (dropTo t n).length + 1

theorem placesFrom_zero (t : Text) : placesFrom t 0 = t.length + 1 := by simp [placesFrom, dropTo]

theorem placesFrom_append (a b : Text) : placesFrom (a ++ b) (bytes a) = b.length + 1 := by
  simp [placesFrom]

/-- A step forward uses up a place. -/
theorem placesFrom_stepFrom {t : Text} {n : Nat} (h : isBoundary t n = true) :
    placesFrom t (stepFrom t n) < placesFrom t n := by
  obtain ⟨a, b, rfl, rfl⟩ := isBoundary_iff.1 h
  rw [placesFrom_append]
  cases b with
  | nil =>
    rw [List.append_nil, stepFrom_bytes, placesFrom, if_pos (by omega)]
    omega
  | cons c r =>
    have := placesFrom_append (a ++ [c]) r
    rw [stepFrom_append_cons, show a ++ c :: r = a ++ [c] ++ r by simp, this]
    simp

theorem placesFrom_le {t : Text} {m n : Nat} (hm : isBoundary t m = true)
    (hn : isBoundary t n = true) (h : m ≤ n) :
    placesFrom t n ≤ placesFrom t m := by
  obtain ⟨a, b, rfl, rfl⟩ := isBoundary_iff.1 hm
  obtain ⟨c, d, he, rfl⟩ := isBoundary_iff.1 hn
  obtain ⟨k, -, rfl⟩ := exists_append_of_bytes_le he h
  rw [placesFrom_append, he, placesFrom_append]
  simp

theorem placesFrom_lt {t : Text} {m n : Nat} (hm : isBoundary t m = true)
    (hn : isBoundary t n = true) (h : m < n) :
    placesFrom t n < placesFrom t m := by
  obtain ⟨a, b, rfl, rfl⟩ := isBoundary_iff.1 hm
  obtain ⟨c, d, he, rfl⟩ := isBoundary_iff.1 hn
  obtain ⟨k, rfl, rfl⟩ := exists_append_of_bytes_le he (Nat.le_of_lt h)
  rw [placesFrom_append, he, placesFrom_append]
  have hk : k ≠ [] := by
    rintro rfl
    simp at h
  have := List.length_pos_iff.2 hk
  simp only [List.length_append]
  omega

end Text

/-- The longest of the lists that a list begins with and that have a property. -/
structure LongestBeginning {α : Type} (holds : List α → Prop) (whole part : List α) : Prop where
  begins : part <+: whole
  valid : holds part
  longest : ∀ other, other <+: whole → holds other → other.length ≤ part.length

namespace LongestBeginning

variable {α : Type} {holds : List α → Prop} {whole part : List α}

theorem refl (h : holds whole) : LongestBeginning holds whole whole :=
  ⟨List.prefix_refl whole, h, fun _ ho _ => ho.length_le⟩

/-- Nothing is taken from a list whose first entry already breaks a property. -/
theorem nil (h : holds []) {a : α} (hfirst : ∀ other, ¬holds (a :: other)) :
    LongestBeginning holds (a :: whole) [] := by
  refine ⟨List.nil_prefix, h, fun other ho hother => ?_⟩
  cases other with
  | nil => exact Nat.le_refl 0
  | cons b other =>
    obtain ⟨rfl, -⟩ := List.cons_prefix_cons.1 ho
    exact absurd hother (hfirst other)

/-- A first entry is taken where the property then asks something of the entries behind it. -/
theorem cons {behind : List α → Prop} {a : α} (hcons : ∀ l, holds (a :: l) ↔ behind l)
    (h : LongestBeginning behind whole part) : LongestBeginning holds (a :: whole) (a :: part) := by
  refine ⟨List.cons_prefix_cons.2 ⟨rfl, h.begins⟩, (hcons part).2 h.valid,
    fun other ho hother => ?_⟩
  cases other with
  | nil => exact Nat.zero_le _
  | cons b other =>
    obtain ⟨rfl, hle⟩ := List.cons_prefix_cons.1 ho
    exact Nat.succ_le_succ (h.longest other hle ((hcons other).1 hother))

theorem unique (h : LongestBeginning holds whole part) {other : List α}
    (ho : LongestBeginning holds whole other) :
    other = part :=
  (List.prefix_of_prefix_length_le ho.begins h.begins
    (h.longest other ho.begins ho.valid)).eq_of_length_le (ho.longest part h.begins h.valid)

end LongestBeginning

end RegexDialect
