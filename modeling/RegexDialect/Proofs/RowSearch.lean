import RegexDialect.Baseline.Engine
import RegexDialect.Proofs.Rows

/-! The linear automaton on the instructions for a row. They run straight ahead, so a search that
starts at a place visits every address at one place only, and what earlier searches visited is never
in its way. -/
namespace RegexDialect.Baseline.Automaton

def endAnchor (multiline : Bool) : Anchor := if multiline then .lineEnd else .textEnd

def insnOf (multiline : Bool) : Option Char → Insn
  | some c => .take (.char c false)
  | none => .anchor (endAnchor multiline)

def ofRow (multiline : Bool) (row : Row) : Array Insn :=
  (Insn.save 0 :: row.map (insnOf multiline) ++ [Insn.save 1, Insn.accept]).toArray

section Follow

variable {program : Array Insn} {chars : Array Char} {fuel : Nat} {t : Thread} {v : Visits}
  {insn : Insn}

theorem follow_nil (fuel : Nat) (v : Visits) : follow program chars fuel [] v = (none, v) := by
  cases fuel <;> rfl

theorem follow_step (hs : v.seen t = false) (hi : program[t.address]? = some insn)
    (hn : insn ≠ .accept) :
    follow program chars (fuel + 1) [t] v =
      follow program chars fuel (t.next chars insn) (v.mark t) := by
  rw [follow, hs, hi]
  cases insn <;> simp at hn ⊢

theorem follow_accept (hs : v.seen t = false) (hi : program[t.address]? = some .accept) :
    follow program chars (fuel + 1) [t] v = (some t.slots, v) := by
  rw [follow, hs, hi]
  rfl

end Follow

namespace Visits

variable {v : Visits} {t u : Thread}

theorem seen_mark_of_ne (h : v.index t ≠ v.index u) : (v.mark t).seen u = v.seen u := by
  rw [seen, mark, seen]
  exact congrArg (·.getD false) (Array.getElem?_setIfInBounds_ne h)

theorem index_ne (ht : t.place ≤ v.origin + v.width) (hu : v.origin ≤ u.place)
    (hu' : u.place ≤ v.origin + v.width)
    (ht' : v.origin ≤ t.place) (h : t.address = u.address → t.place ≠ u.place) :
      v.index t ≠ v.index u := by
  intro he
  simp only [index] at he
  have hquotient : ∀ k d, d ≤ v.width → (k * (v.width + 1) + d) / (v.width + 1) = k := by
    intro k d hd
    rw [Nat.mul_comm, Nat.mul_add_div (by omega), Nat.div_eq_of_lt (by omega), Nat.add_zero]
  have haddress : t.address = u.address := by
    have h₁ := hquotient t.address (t.place - v.origin) (by omega)
    have h₂ := hquotient u.address (u.place - v.origin) (by omega)
    rw [← h₁, ← h₂, he]
  rw [haddress] at he
  exact h haddress (by omega)

end Visits

/-- How far behind its start a search for a row is at an address. -/
def lag (row : Row) (address : Nat) : Nat := (Row.chars (row.take (address - 1))).length

/-- The visits when a search for a row that began at `start` comes to an address: nothing has been
visited there or further, nor by a search that begins later; no place is behind `last`. -/
structure Visits.Ready (v : Visits) (row : Row) (last start address : Nat) : Prop where
  origin_le : v.origin ≤ start
  reach : last ≤ v.origin + v.width
  unseen : ∀ t : Thread, start + lag row t.address ≤ t.place → t.place ≤ last →
    (t.place = start + lag row t.address → address ≤ t.address) → v.seen t = false

namespace Visits.Ready

variable {v : Visits} {row : Row} {last start address : Nat}

theorem unseen_at (h : v.Ready row last start address) {t : Thread} (ha : t.address = address)
    (hp : t.place = start + lag row address) (hl : t.place ≤ last) : v.seen t = false :=
  h.unseen t (by rw [ha]; omega) hl fun _ => Nat.le_of_eq ha.symm

theorem mark (h : v.Ready row last start address) {t : Thread} (ha : t.address = address)
    (hp : t.place = start + lag row address) (hl : t.place ≤ last) :
    (v.mark t).Ready row last start (address + 1) where
  origin_le := h.origin_le
  reach := h.reach
  unseen u hu hlast hnext := by
    have ho := h.origin_le
    have hr := h.reach
    have hne : t.address = u.address → t.place ≠ u.place := by
      intro he hplace
      have := hnext (by rw [← hplace, hp, ← he, ha])
      omega
    rw [Visits.seen_mark_of_ne (Visits.index_ne (by omega) (by omega) (by omega) (by omega) hne)]
    exact h.unseen u hu hlast fun hplace => Nat.le_of_succ_le (hnext hplace)

theorem later (h : v.Ready row last start address) : v.Ready row last (start + 1) 0 where
  origin_le := Nat.le_succ_of_le h.origin_le
  reach := h.reach
  unseen u hu hlast _ := h.unseen u (by omega) hlast (by omega)

theorem none (program : Array Insn) {place last : Nat} (h : place ≤ last) :
    (Visits.none program.size place (last - place)).Ready row last place 0 where
  origin_le := Nat.le_refl _
  reach := by simp only [Visits.none]; omega
  unseen u _ _ _ := by
    rw [Visits.seen, Visits.none, Array.getElem?_replicate]
    split <;> rfl

end Visits.Ready

section Row

open Visits.Ready

variable {multiline : Bool} {row a b : Row} {done rest : Text} {fuel start : Nat}
  {slots : Slots} {v : Visits}

theorem getElem?_ofRow_zero (row : Row) : (ofRow multiline row)[0]? = some (.save 0) := rfl

theorem getElem?_ofRow_part (a b : Row) (part : Option Char) :
    (ofRow multiline (a ++ part :: b))[a.length + 1]? = some (insnOf multiline part) := by
  simp [ofRow]

theorem getElem?_ofRow_save (row : Row) :
    (ofRow multiline row)[row.length + 1]? = some (.save 1) := by
  simp [ofRow]

theorem getElem?_ofRow_accept (row : Row) :
    (ofRow multiline row)[row.length + 2]? = some .accept := by
  simp [ofRow]

/-- A search has taken what the row takes in front of its address. -/
theorem lag_append (a b : Row) : lag (a ++ b) (a.length + 1) = (Row.chars a).length := by
  rw [lag, Nat.add_sub_cancel, List.take_left]

theorem next_some (address : Nat) (done rest : Text) (c d : Char) (slots : Slots) :
    Thread.next ⟨address, done.length, slots⟩ (done ++ d :: rest).toArray
      (insnOf multiline (some c)) =
      if c = d then [⟨address + 1, done.length + 1, slots⟩] else [] := by
  by_cases h : c = d <;> simp [Thread.next, insnOf, Atom.holds, h]

theorem next_some_nil (address : Nat) (done : Text) (c : Char) (slots : Slots) :
    Thread.next ⟨address, done.length, slots⟩ done.toArray (insnOf multiline (some c)) = [] := by
  simp [Thread.next, insnOf]

theorem anchorHolds_endAnchor (done rest : Text) :
    anchorHolds (endAnchor multiline) (done ++ rest).toArray done.length =
      Row.endHolds multiline rest := by
  cases multiline <;> cases rest <;> simp [anchorHolds, endAnchor, Row.endHolds, Anchor.holds]

theorem next_none (address : Nat) (done rest : Text) (slots : Slots) :
    Thread.next ⟨address, done.length, slots⟩ (done ++ rest).toArray (insnOf multiline none) =
      if Row.endHolds multiline rest then [⟨address + 1, done.length, slots⟩] else [] := by
  rw [insnOf, Thread.next, anchorHolds_endAnchor]

/-- From the address of a part of the row on, the search succeeds where that part comes next in the
text. -/
theorem follow_parts (hv : v.Ready (a ++ b) (done ++ rest).length start (a.length + 1))
    (hp : done.length = start + (Row.chars a).length) (hf : b.length + 2 ≤ fuel) :
    ∃ v', v'.Ready (a ++ b) (done ++ rest).length (start + 1) 0 ∧
      follow (ofRow multiline (a ++ b))
        (done ++ rest).toArray fuel [⟨a.length + 1, done.length, slots⟩] v =
        ((Row.drop? multiline b rest).map fun _ => (1, done.length + (Row.chars b).length) :: slots,
          v') := by
  have hlast : done.length ≤ (done ++ rest).length := by simp
  induction b generalizing a done rest fuel v with
  | nil =>
    obtain ⟨fuel, rfl⟩ : ∃ k, fuel = k + 2 := ⟨fuel - 2, by simp at hf; omega⟩
    rw [List.append_nil] at hv ⊢
    have hlag : ∀ k, done.length = start + lag a (a.length + 1 + k) := by
      intro k
      rw [hp, lag, List.take_of_length_le (by omega)]
    have hseen := @unseen_at _ _ _ _ _ hv ⟨a.length + 1, done.length, slots⟩ rfl (hlag 0) hlast
    have hmark := @mark _ _ _ _ _ hv ⟨a.length + 1, done.length, slots⟩ rfl (hlag 0) hlast
    have hseen' :=
      @unseen_at _ _ _ _ _ hmark ⟨a.length + 2, done.length, (1, done.length) :: slots⟩ rfl
        (hlag 1) hlast
    refine ⟨_, hmark.later, ?_⟩
    rw [follow_step hseen (getElem?_ofRow_save a) (by simp)]
    exact follow_accept hseen' (getElem?_ofRow_accept a)
  | cons part b ih =>
    obtain ⟨fuel, rfl⟩ : ∃ k, fuel = k + 1 := ⟨fuel - 1, by omega⟩
    have hlag : done.length = start + lag (a ++ part :: b) (a.length + 1) := by rw [hp, lag_append]
    have hseen := @unseen_at _ _ _ _ _ hv ⟨a.length + 1, done.length, slots⟩ rfl hlag hlast
    have hmark := @mark _ _ _ _ _ hv ⟨a.length + 1, done.length, slots⟩ rfl hlag hlast
    have hnext : insnOf multiline part ≠ .accept := by cases part <;> simp [insnOf]
    rw [follow_step hseen (getElem?_ofRow_part a b part) hnext]
    cases part with
    | none =>
      rw [next_none, Row.drop?]
      split
      · have hstep := @ih (a ++ [none]) done rest fuel (v.mark ⟨a.length + 1, done.length, slots⟩)
          (by simpa using hmark) (by simpa using hp) (by simp at hf; omega) hlast
        obtain ⟨v', hv', hfollow⟩ := hstep
        refine ⟨v', by simpa using hv', ?_⟩
        simpa using hfollow
      · refine ⟨_, hmark.later, ?_⟩
        rw [follow_nil, Option.map_none]
    | some c =>
      cases rest with
      | nil =>
        refine ⟨_, hmark.later, ?_⟩
        rw [List.append_nil, next_some_nil, follow_nil, Row.drop?, Option.map_none]
      | cons d rest =>
        rw [next_some, Row.drop?]
        split
        · next hcd =>
          subst hcd
          have hstep :=
            @ih (a ++ [some c]) (done ++ [c]) rest fuel (v.mark ⟨a.length + 1, done.length, slots⟩)
            (by simpa using hmark) (by simp; omega) (by simp at hf; omega) (by simp)
          obtain ⟨v', hv', hfollow⟩ := hstep
          refine ⟨v', by simpa using hv', ?_⟩
          simpa [Nat.add_assoc, Nat.add_comm 1] using hfollow
        · refine ⟨_, hmark.later, ?_⟩
          rw [follow_nil, Option.map_none]

/-- A search from one place succeeds when the row stands there. -/
theorem follow_ofRow (hv : v.Ready row (done ++ rest).length done.length 0)
    (hf : row.length + 3 ≤ fuel) :
    ∃ v', v'.Ready row (done ++ rest).length (done.length + 1) 0 ∧
      follow (ofRow multiline row) (done ++ rest).toArray fuel [⟨0, done.length, []⟩] v =
        ((Row.drop? multiline row rest).map fun _ =>
          [(1, done.length + (Row.chars row).length), (0, done.length)], v') := by
  obtain ⟨fuel, rfl⟩ : ∃ k, fuel = k + 1 := ⟨fuel - 1, by omega⟩
  have hlag : done.length = done.length + lag row 0 := by simp [lag]
  have hlast : done.length ≤ (done ++ rest).length := by simp
  have hseen := @unseen_at _ _ _ _ _ hv ⟨0, done.length, []⟩ rfl hlag hlast
  have hmark := @mark _ _ _ _ _ hv ⟨0, done.length, []⟩ rfl hlag hlast
  rw [follow_step hseen (getElem?_ofRow_zero row) (by simp)]
  exact @follow_parts multiline [] row done rest fuel done.length [(0, done.length)] _ hmark
    rfl (by omega)

def slotsAt (before gap taken : Text) : Slots :=
  [(1, (before ++ gap ++ taken).length), (0, (before ++ gap).length)]

theorem slotsAt_append (before gap taken : Text) (c : Char) :
    slotsAt (before ++ [c]) gap taken = slotsAt before (c :: gap) taken := by
  simp [slotsAt]

theorem searchFrom_ofRow (hv : v.Ready row (done ++ rest).length done.length 0) :
    searchFrom (ofRow multiline row) (done ++ rest).toArray (rest.length + 1) done.length v =
      (Row.cutAtFirst? multiline row rest).map fun cut => slotsAt done cut.1 (Row.chars row) := by
  have hrounds : ∀ width, row.length + 3 ≤ rounds (ofRow multiline row) width := by
    intro width
    have hsize : (ofRow multiline row).size = row.length + 3 := by simp [ofRow]
    have hmul : (ofRow multiline row).size + 1 ≤ ((ofRow multiline row).size + 1) * (width + 1) :=
      Nat.le_mul_of_pos_right _ (by omega)
    rw [rounds, Nat.mul_assoc]
    omega
  induction rest generalizing done v with
  | nil =>
    obtain ⟨v', -, hfollow⟩ := @follow_ofRow multiline _ _ _ _ _ hv (hrounds v.width)
    rw [List.length_nil, searchFrom, hfollow]
    cases hd : Row.drop? multiline row [] with
    | none => simp [Row.cutAtFirst?, hd, searchFrom]
    | some after => simp [Row.cutAtFirst?, hd, slotsAt]
  | cons c rest ih =>
    obtain ⟨v', hv', hfollow⟩ := @follow_ofRow multiline _ _ _ _ _ hv (hrounds v.width)
    rw [List.length_cons, searchFrom, hfollow]
    cases hd : Row.drop? multiline row (c :: rest) with
    | some after => simp [Row.cutAtFirst?, hd, slotsAt]
    | none =>
      have hrest := @ih (done ++ [c]) v' (by simpa using hv')
      rw [Row.cutAtFirst?, hd, Option.map_map]
      simpa [slotsAt_append, Function.comp_def] using hrest

/-- A search for a row finds the first place where it stands. -/
theorem search_ofRow (multiline : Bool) (row : Row) (before rest : Text) :
    search (ofRow multiline row) (before ++ rest).toArray before.length =
      (Row.cutAtFirst? multiline row rest).map fun cut => slotsAt before cut.1 (Row.chars row) := by
  have hready :
      (Visits.none (ofRow multiline row).size before.length
        ((before ++ rest).length - before.length)).Ready
      row (before ++ rest).length before.length 0 := .none _ (by simp)
  have hcount : (before ++ rest).length - before.length = rest.length := by simp
  rw [← searchFrom_ofRow hready, search, List.size_toArray, hcount]

end Row

end RegexDialect.Baseline.Automaton
