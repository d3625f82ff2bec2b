import RegexDialect.Proofs.Patterns
import RegexDialect.Proofs.Places

/-! Iteration over the matches of a pattern. Of the engine only this is used: a search from a
boundary finds a span on boundaries that does not begin before the place of the search. -/
namespace RegexDialect

/-- What is asked of the searches in a text: from a boundary they find nothing, or a span on
boundaries that does not begin before the place of the search. -/
def Baseline.Matcher.Bounded (m : Baseline.Matcher) (text : Text) : Prop :=
  ∀ position span groups, Text.isBoundary text position = true →
    m.search text position = .ok (some (some span :: groups)) →
    position ≤ span.start ∧ span.start ≤ span.stop ∧ Text.isBoundary text span.start = true ∧
      Text.isBoundary text span.stop = true

namespace Pattern

variable {p : Pattern} {text : Text} {position : Nat} {sticky : Bool}

theorem bounds_of_execAt (hb : p.matcher.Bounded text) {m : Match}
    (h : p.execAt text position sticky = .ok (some m)) :
    m.text = text ∧ Text.isBoundary text position = true ∧ position ≤ m.start ∧ m.start ≤ m.stop ∧
      Text.isBoundary text m.start = true ∧ Text.isBoundary text m.stop = true := by
  obtain ⟨hp, span, groups, hsearch, rfl⟩ := exists_of_execAt h
  obtain ⟨h₁, h₂, h₃, h₄⟩ := hb position span groups hp hsearch
  exact ⟨rfl, hp, h₁, h₂, h₃, h₄⟩

theorem execAt_ne_invalidPosition (h : Text.IsPlace text position) (n : Nat) :
    p.execAt text position sticky ≠ .error (.invalidPosition n) := by
  simp only [execAt]
  split
  · simp
  · next hle =>
    have hp : Text.isBoundary text position = true := h.resolve_right (by omega)
    simp only [hp, search]
    cases p.matcher.search text position <;> simp [Except.map]

end Pattern

namespace Matches

variable {it : Matches} {text : Text} {m : Match}

def after : (calls : Nat) → Matches → Matches
  | 0, it => it
  | calls + 1, it => after calls it.next.2

def answer (calls : Nat) (it : Matches) : Option (Except Error Match) := (after calls it).next.1

def Aligned (it : Matches) : Prop := ∀ position ∈ it.cursor, Text.IsPlace it.text position

def left (it : Matches) : Nat := (it.cursor.map (Text.placesFrom it.text)).getD 0

@[simp] theorem next_pattern (it : Matches) : it.next.2.pattern = it.pattern := by
  simp only [next]
  split
  · rfl
  · split <;> rfl

@[simp] theorem next_text (it : Matches) : it.next.2.text = it.text := by
  simp only [next]
  split
  · rfl
  · split <;> rfl

theorem next_eq_match (h : it.next.1 = some (.ok m)) :
    ∃ position, it.cursor = some position ∧ it.pattern.execAt it.text position false =
      .ok (some m) ∧ it.next.2.cursor = some (advance m) := by
  simp only [next] at h ⊢
  split at h
  · simp at h
  · next position hc =>
    split at h
    · next m' hm =>
      obtain rfl : m' = m := by simpa using h
      exact ⟨position, hc, hm, rfl⟩
    · simp at h
    · simp at h

theorem next_cursor_of_ne_match (h : ∀ m, it.next.1 ≠ some (.ok m)) : it.next.2.cursor = none := by
  simp only [next] at h ⊢
  split at h
  · next hc => simpa using hc
  · split at h
    · next m _ => exact absurd rfl (h m)
    · rfl
    · rfl

theorem answer_of_cursor_none (h : it.cursor = none) (calls : Nat) : answer calls it = none := by
  have hn : it.next = (none, it) := by simp [next, h]
  induction calls with
  | zero => simp [answer, after, hn]
  | succ calls ih => simpa [answer, after, hn] using ih

theorem isBoundary_stop_le_advance (h : Text.isBoundary m.text m.stop = true) :
    Text.IsPlace m.text (advance m) ∧ m.stop ≤ advance m ∧
      (m.isEmpty = true → m.stop < advance m) := by
  have hlt := Text.lt_stepFrom m.text m.stop
  simp only [advance]
  cases m.isEmpty with
  | true => exact ⟨Text.isPlace_stepFrom h, by simp; omega, fun _ => by simpa using hlt⟩
  | false => exact ⟨.inl h, by simp, by simp⟩

theorem aligned_next (hb : it.pattern.matcher.Bounded it.text) : it.next.2.Aligned := by
  intro position hp
  rw [next_text]
  by_cases h : ∃ m, it.next.1 = some (.ok m)
  · obtain ⟨m, hm⟩ := h
    obtain ⟨from', -, he, hc⟩ := next_eq_match hm
    obtain ⟨ht, -, -, -, -, hs⟩ := Pattern.bounds_of_execAt hb he
    obtain rfl : advance m = position := by simpa [hc] using hp
    have := isBoundary_stop_le_advance (m := m) (by rw [ht]; exact hs)
    rw [ht] at this
    exact this.1
  · have hc := next_cursor_of_ne_match fun m hm => h ⟨m, hm⟩
    simp [hc] at hp

theorem left_next (hb : it.pattern.matcher.Bounded it.text) (h : it.next.1 = some (.ok m)) :
    it.next.2.left < it.left := by
  obtain ⟨position, hc, he, hn⟩ := next_eq_match h
  obtain ⟨ht, hp, h₁, h₂, -, hs⟩ := Pattern.bounds_of_execAt hb he
  simp only [left, hn, hc, next_text, Option.map_some, Option.getD_some]
  simp only [advance, ht]
  cases hm : m.isEmpty with
  | true =>
    have h₃ := Text.placesFrom_stepFrom hs
    have h₄ := Text.placesFrom_le hp hs (Nat.le_trans h₁ h₂)
    simp only [if_true]
    omega
  | false =>
    have hne : m.start ≠ m.stop := by
      simpa [Match.isEmpty, Span.isEmpty, Match.start, Match.stop] using hm
    exact Text.placesFrom_lt hp hs (by simp only [Bool.false_eq_true, if_false]; omega)

theorem after_pattern_text (calls : Nat) (it : Matches) :
    (after calls it).pattern = it.pattern ∧ (after calls it).text = it.text := by
  induction calls generalizing it with
  | zero => exact ⟨rfl, rfl⟩
  | succ calls ih => simpa [after] using ih it.next.2

theorem after_succ (calls : Nat) (it : Matches) :
    after (calls + 1) it = (after calls it).next.2 := by
  induction calls generalizing it with
  | zero => rfl
  | succ calls ih => exact ih it.next.2

theorem aligned_start (p : Pattern) (text : Text) : (start p text).Aligned := by
  intro position hp
  obtain rfl : 0 = position := by simpa [start] using hp
  exact .inl (by simp [Text.isBoundary])

theorem aligned_after (hb : it.pattern.matcher.Bounded it.text) (ha : it.Aligned) (calls : Nat) :
    (after calls it).Aligned := by
  cases calls with
  | zero => exact ha
  | succ calls =>
    obtain ⟨hp, ht⟩ := after_pattern_text calls it
    rw [after_succ]
    exact aligned_next (by rw [hp, ht]; exact hb)

theorem next_ne_invalidPosition (ha : it.Aligned) (n : Nat) :
    it.next.1 ≠ some (.error (.invalidPosition n)) := by
  intro h
  simp only [next] at h
  split at h
  · simp at h
  · next position hc =>
    split at h
    · simp at h
    · simp at h
    · next e he =>
      obtain rfl : e = .invalidPosition n := by simpa using h
      exact Pattern.execAt_ne_invalidPosition (ha position hc) n he

/-- No match to come starts before the cursor. -/
theorem cursor_le_start (hb : it.pattern.matcher.Bounded it.text) {position calls : Nat}
    (hc : it.cursor = some position) (h : answer calls it = some (.ok m)) : position ≤ m.start := by
  induction calls generalizing it position with
  | zero =>
    obtain ⟨p, hp, he, -⟩ := next_eq_match h
    obtain rfl : position = p := by simpa [after, hc] using hp
    exact (Pattern.bounds_of_execAt hb he).2.2.1
  | succ calls ih =>
    have h : answer calls it.next.2 = some (.ok m) := h
    by_cases hm : ∃ first, it.next.1 = some (.ok first)
    · obtain ⟨first, hm⟩ := hm
      obtain ⟨p, hp, he, hn⟩ := next_eq_match hm
      obtain rfl : position = p := by simpa [hc] using hp
      obtain ⟨ht, -, h₁, h₂, -, hs⟩ := Pattern.bounds_of_execAt hb he
      have h₃ := (isBoundary_stop_le_advance (m := first) (by rw [ht]; exact hs)).2.1
      have h₄ := ih (by simpa using hb) hn h
      omega
    · rw [answer_of_cursor_none (next_cursor_of_ne_match fun m h => hm ⟨m, h⟩)] at h
      simp at h

/-- A match starts where an earlier one ends or later, and later when that one is empty. -/
theorem stop_le_start (hb : it.pattern.matcher.Bounded it.text) {i j : Nat}
    (hij : i < j) {n : Match} (hi : answer i it = some (.ok m)) (hj : answer j it = some (.ok n)) :
    m.stop ≤ n.start ∧ (m.isEmpty = true → m.stop < n.start) := by
  induction i generalizing it j with
  | zero =>
    obtain ⟨j, rfl⟩ : ∃ k, j = k + 1 := ⟨j - 1, by omega⟩
    obtain ⟨p, -, he, hn⟩ := next_eq_match hi
    obtain ⟨ht, -, -, -, -, hs⟩ := Pattern.bounds_of_execAt hb he
    obtain ⟨-, h₁, h₂⟩ := isBoundary_stop_le_advance (m := m) (by rw [ht]; exact hs)
    have h₃ : advance m ≤ n.start := cursor_le_start (by simpa [after] using hb) hn hj
    exact ⟨Nat.le_trans h₁ h₃, fun h => Nat.lt_of_lt_of_le (h₂ h) h₃⟩
  | succ i ih =>
    obtain ⟨j, rfl⟩ : ∃ k, j = k + 1 := ⟨j - 1, by omega⟩
    exact ih (by simpa using hb) (by omega) hi hj

/-- An iteration gives matches for at most as many calls as there are places left; one call later,
with an error or without, it has ended for good. -/
theorem exists_end (hb : it.pattern.matcher.Bounded it.text) :
    ∃ n ≤ it.left, (∀ k < n, ∃ m, answer k it = some (.ok m)) ∧
      (answer n it = none ∨ ∃ e, answer n it = some (.error e)) ∧ ∀ k > n, answer k it = none := by
  induction hl : it.left using Nat.strongRecOn generalizing it with
  | ind l ih =>
    by_cases hf : ∃ m, it.next.1 = some (.ok m)
    · obtain ⟨m, hf⟩ := hf
      have hlt := left_next hb hf
      obtain ⟨n, hn, h₁, h₂, h₃⟩ := ih _ (hl ▸ hlt) (by simpa using hb) rfl
      refine ⟨n + 1, by omega, ?_, h₂, ?_⟩
      · intro k hk
        cases k with
        | zero => exact ⟨m, hf⟩
        | succ k => exact h₁ k (by omega)
      · intro k hk
        obtain ⟨k, rfl⟩ : ∃ j, k = j + 1 := ⟨k - 1, by omega⟩
        exact h₃ k (by omega)
    · refine ⟨0, Nat.zero_le _, by simp, ?_, ?_⟩
      · rcases hr : it.next.1 with _ | e | m
        · exact .inl hr
        · exact .inr ⟨e, hr⟩
        · exact absurd ⟨m, hr⟩ hf
      · intro k hk
        obtain ⟨k, rfl⟩ : ∃ j, k = j + 1 := ⟨k - 1, by omega⟩
        exact answer_of_cursor_none (next_cursor_of_ne_match fun m h => hf ⟨m, h⟩) k

/-- Iteration over the matches of a pattern is aligned, progressive, finite and fused: it searches
from places of the text only, so that no position is invalid; a match starts where an earlier one
ends, or later when that one is empty; there are at most as many matches as the text has characters,
and one more; and from the first call without a match on, apart from the error that call may give,
there is nothing. -/
theorem progressive_and_finite (p : Pattern) (text : Text) (hb : p.matcher.Bounded text) :
    (∀ k, ∀ position ∈ (after k (start p text)).cursor,
      Text.isBoundary text position = true ∨ Text.bytes text < position) ∧
    (∀ k position, answer k (start p text) ≠ some (.error (.invalidPosition position))) ∧
    (∀ i j m n, i < j → answer i (start p text) = some (.ok m) →
      answer j (start p text) = some (.ok n) →
        m.stop ≤ n.start ∧ (m.isEmpty = true → m.stop < n.start)) ∧
    ∃ n ≤ text.length + 1, (∀ k < n, ∃ m, answer k (start p text) = some (.ok m)) ∧
      (answer n (start p text) = none ∨ ∃ e, answer n (start p text) = some (.error e)) ∧
      ∀ k > n, answer k (start p text) = none := by
  have hb : (start p text).pattern.matcher.Bounded (start p text).text := hb
  have aligned := fun k => aligned_after hb (aligned_start p text) k
  refine ⟨fun k position hp => ?_, fun k position => next_ne_invalidPosition (aligned k) position,
    fun i j m n hij hi hj => stop_le_start hb hij hi hj, ?_⟩
  · have ht : (after k (start p text)).text = text := (after_pattern_text k (start p text)).2
    exact ht ▸ aligned k position hp
  · have hl : (start p text).left = text.length + 1 := Text.placesFrom_zero text
    exact hl ▸ exists_end hb

/-- The searches that an engine makes for `x*`: the longest run of `x` at the place of the
search. -/
def runsOfX : Baseline.Matcher where
  search text position :=
    let run := (Text.dropTo text position).takeWhile (· == 'x')
    .ok (some [some ⟨position, position + Text.bytes run⟩])

theorem bounded_runsOfX (text : Text) : runsOfX.Bounded text := by
  intro position span groups hp hs
  obtain ⟨a, b, rfl, rfl⟩ := Text.isBoundary_iff.1 hp
  have hrun : Text.isBoundary (a ++ b) (Text.bytes a + Text.bytes (b.takeWhile (· == 'x'))) =
      true :=
    Text.isBoundary_iff.2 ⟨a ++ b.takeWhile (· == 'x'), b.dropWhile (· == 'x'), by simp, by simp⟩
  simp only [runsOfX, Text.dropTo_append, Except.ok.injEq, Option.some.injEq, List.cons.injEq] at hs
  obtain ⟨rfl, rfl⟩ := hs
  exact ⟨Nat.le_refl _, Nat.le_add_right _ _, hp, hrun⟩

/-- A run of `x` in `éxy`, each of the given groups around it. -/
def runInText (names : List (Option Text)) (start stop : Nat) : Match :=
  ⟨['é', 'x', 'y'], ⟨start, stop⟩, names.map fun _ => some ⟨start, stop⟩, names⟩

/-- Runs of `x` in `éxy`, some of them empty, one of them after a character of two bytes. -/
theorem progressive_and_finite_runsOfX :
    runsOfX.Bounded ['é', 'x', 'y'] ∧
      (∀ k position,
        answer k (start ⟨['x', '*'], ['x', '*'], Flags.empty, [], false, runsOfX⟩ ['é', 'x', 'y']) ≠
        some (.error (.invalidPosition position))) ∧
      ∃ n ≤ 4, ∀ k > n,
        answer k (start ⟨['x', '*'], ['x', '*'], Flags.empty, [], false, runsOfX⟩ ['é', 'x', 'y']) =
          none := by
  have hb := bounded_runsOfX ['é', 'x', 'y']
  obtain ⟨-, valid, -, n, hn, -, -, ended⟩ :=
    progressive_and_finite ⟨['x', '*'], ['x', '*'], Flags.empty, [], false, runsOfX⟩
      ['é', 'x', 'y'] hb
  exact ⟨hb, valid, n, hn, ended⟩

end Matches
end RegexDialect
