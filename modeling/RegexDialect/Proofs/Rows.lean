import RegexDialect.Proofs.Occurrences

/-! Rows of characters and of signs for an end, and the first place of a text where a row stands.
Without signs a row is a literal text; with a sign in front of a character it stands nowhere, or
only where a line feed follows. -/
namespace RegexDialect

/-- Characters in a row; `none` is the sign for the end of the text or, in multiline mode, of a
line. -/
abbrev Row := List (Option Char)

namespace Row

def endHolds (multiline : Bool) (t : Text) : Bool := t.head?.all fun c => multiline && c == '\n'

/-- The text behind a row that stands at the start of a text; a sign takes no character. -/
def drop? (multiline : Bool) : Row → Text → Option Text
  | [], t => some t
  | none :: row, t => if endHolds multiline t then drop? multiline row t else none
  | some c :: row, d :: t => if c = d then drop? multiline row t else none
  | some _ :: _, [] => none

def chars (row : Row) : Text := row.filterMap id

def cutAtFirst? (multiline : Bool) (row : Row) : Text → Option (Text × Text)
  | [] => (drop? multiline row []).map fun after => ([], after)
  | c :: t =>
    match drop? multiline row (c :: t) with
    | some after => some ([], after)
    | none => (cutAtFirst? multiline row t).map fun cut => (c :: cut.1, cut.2)

variable {multiline : Bool} {row a b : Row} {t needle gap after : Text}

@[simp] theorem chars_nil : chars [] = [] := rfl

@[simp] theorem chars_some (c : Char) (row : Row) : chars (some c :: row) = c :: chars row := rfl

@[simp] theorem chars_none (row : Row) : chars (none :: row) = chars row := rfl

@[simp] theorem chars_append (a b : Row) :
    chars (a ++ b) = chars a ++ chars b := List.filterMap_append

@[simp] theorem chars_map_some (t : Text) : chars (t.map some) = t := by
  induction t with
  | nil => rfl
  | cons c t ih => rw [List.map_cons, chars_some, ih]

theorem eq_append_of_drop? (h : drop? multiline row t = some after) : t = chars row ++ after := by
  induction row generalizing t with
  | nil => exact Option.some.inj h
  | cons e row ih =>
    cases e with
    | none =>
      rw [drop?] at h
      split at h
      · exact ih h
      · exact absurd h (by simp)
    | some c =>
      cases t with
      | nil => exact absurd h (by simp [drop?])
      | cons d t =>
        rw [drop?] at h
        split at h
        · next hcd => rw [hcd, chars_some, List.cons_append, ← ih h]
        · exact absurd h (by simp)

theorem append_of_cutAtFirst? (h : cutAtFirst? multiline row t = some (gap, after)) :
    t = gap ++ chars row ++ after := by
  induction t generalizing gap with
  | nil =>
    obtain ⟨r, hr, he⟩ := Option.map_eq_some_iff.1 h
    obtain ⟨rfl, rfl⟩ := Prod.mk.inj he
    exact eq_append_of_drop? hr
  | cons c t ih =>
    rw [cutAtFirst?] at h
    split at h
    · next r hr =>
      obtain ⟨rfl, rfl⟩ := Prod.mk.inj (Option.some.inj h)
      exact eq_append_of_drop? hr
    · obtain ⟨cut, hcut, he⟩ := Option.map_eq_some_iff.1 h
      obtain ⟨rfl, rfl⟩ := Prod.mk.inj he
      rw [ih hcut]
      rfl

theorem drop?_map_some (needle t : Text) :
    drop? multiline (needle.map some) t = Text.dropHead? needle t := by
  induction needle generalizing t with
  | nil => rfl
  | cons c needle ih =>
    cases t with
    | nil => rfl
    | cons d t => by_cases h : c = d <;> simp [drop?, Text.dropHead?, h, ih]

theorem cutAtFirst?_map_some (needle t : Text) :
    cutAtFirst? multiline (needle.map some) t = Text.cutAtFirst? needle t := by
  induction t with
  | nil => rw [cutAtFirst?, Text.cutAtFirst?, drop?_map_some]
  | cons c t ih =>
    cases hd :
      Text.dropHead? needle (c :: t) <;>
        simp [cutAtFirst?, Text.cutAtFirst?, drop?_map_some, hd, ih]

/-- A sign for an end never holds in front of a row that takes a character, unless it takes a line
feed. -/
theorem drop?_of_sign (hb : chars b ≠ []) (hl : '\n' ∉ chars b) (t : Text) :
    drop? multiline (a ++ none :: b) t = none := by
  induction a generalizing t with
  | nil =>
    rw [List.nil_append, drop?]
    split
    · next hend =>
      refine Option.eq_none_iff_forall_ne_some.2 fun after h => ?_
      obtain ⟨c, cs, hc⟩ := List.exists_cons_of_ne_nil hb
      rw [eq_append_of_drop? h, hc] at hend
      have hc' : c = '\n' := by
        simp only [endHolds, List.cons_append, List.head?_cons, Option.all_some, Bool.and_eq_true,
          beq_iff_eq] at hend
        exact hend.2
      exact hl (by simp [hc, hc'])
    · rfl
  | cons e a ih =>
    cases e with
    | none => simp [drop?, ih]
    | some c => cases t <;> simp [drop?, ih]

theorem cutAtFirst?_of_sign (hb : chars b ≠ []) (hl : '\n' ∉ chars b) (t : Text) :
    cutAtFirst? multiline (a ++ none :: b) t = none := by
  induction t with
  | nil => simp [cutAtFirst?, drop?_of_sign hb hl]
  | cons c t ih => simp [cutAtFirst?, drop?_of_sign hb hl, ih]

end Row

end RegexDialect
