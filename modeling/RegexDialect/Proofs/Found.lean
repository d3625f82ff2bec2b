import RegexDialect.Proofs.Iteration

/-! All matches of a pattern in a text, as a list. They cut the text into gaps and matched parts, so
a function that goes through them copies the text piece by piece. -/
namespace RegexDialect

namespace Matches

variable {it : Matches}

theorem getElem?_take {fuel k : Nat} (h : k < fuel) : (take fuel it)[k]? = answer k it := by
  induction fuel generalizing it k with
  | zero => exact absurd h (Nat.not_lt_zero k)
  | succ fuel ih =>
    rcases hn : it.next with ⟨_ | r, rest⟩
    · have hend : it.next.2.cursor = none := next_cursor_of_ne_match (by simp [hn])
      have hnone : answer k it = none := by
        cases k with
        | zero => simp [answer, after, hn]
        | succ k => exact answer_of_cursor_none hend k
      simp [take, hn, hnone]
    · cases k with
      | zero => simp [take, hn, answer, after]
      | succ k =>
        have hk : answer (k + 1) it = answer k rest := by simp [answer, after, hn]
        simp only [take, hn, List.getElem?_cons_succ, hk]
        exact ih (by omega)

theorem length_take_le (fuel : Nat) (it : Matches) : (take fuel it).length ≤ fuel := by
  induction fuel generalizing it with
  | zero => simp [take]
  | succ fuel ih =>
    rw [take]
    split
    · exact Nat.succ_le_succ (ih _)
    · exact Nat.zero_le _

end Matches

namespace Pattern

variable {p : Pattern} {text : Text} {ms : List Match}

theorem getElem?_results (hb : p.matcher.Bounded text) (k : Nat) :
    (p.results text)[k]? = Matches.answer k (.start p text) := by
  by_cases hk : k < text.length + 2
  · exact Matches.getElem?_take hk
  · obtain ⟨n, hn, -, -, hend⟩ := @Matches.exists_end (.start p text) hb
    have hleft : (Matches.start p text).left = text.length + 1 := Text.placesFrom_zero text
    rw [hend k (by omega)]
    have hle := Matches.length_take_le (text.length + 2) (.start p text)
    exact List.getElem?_eq_none (by rw [results]; omega)

/-- The matches of a pattern in a text: call by call they are what the iteration gives, without an
error. -/
def Finds (p : Pattern) (text : Text) (ms : List Match) : Prop :=
  ∀ k, Matches.answer k (.start p text) = (ms[k]?).map .ok

theorem finds_iff (hb : p.matcher.Bounded text) :
    p.Finds text ms ↔ p.results text = ms.map .ok := by
  constructor
  · intro h
    refine List.ext_getElem? fun k => ?_
    rw [getElem?_results hb, h k, List.getElem?_map]
  · intro h k
    rw [← getElem?_results hb, h, List.getElem?_map]

end Pattern

namespace Match

/-- Matches in a text that follow one another from an offset on. -/
def InOrder (text : Text) : (last : Nat) → List Match → Prop
  | _, [] => True
  | last, m :: ms =>
    m.text = text ∧ last ≤ m.start ∧ m.start ≤ m.stop ∧ Text.isBoundary text m.start = true ∧
      Text.isBoundary text m.stop = true ∧ InOrder text m.stop ms

variable {text : Text} {last : Nat} {ms : List Match}

theorem InOrder.take (h : InOrder text last ms) (n : Nat) : InOrder text last (ms.take n) := by
  induction ms generalizing last n with
  | nil => simpa using h
  | cons m ms ih =>
    cases n with
    | zero => trivial
    | succ n =>
      obtain ⟨h₁, h₂, h₃, h₄, h₅, h₆⟩ := h
      exact ⟨h₁, h₂, h₃, h₄, h₅, ih h₆ n⟩

theorem InOrder.stop_le (h : InOrder text last ms) : ∀ m ∈ ms, m.stop ≤ Text.bytes text := by
  induction ms generalizing last with
  | nil => simp
  | cons m ms ih =>
    obtain ⟨-, -, -, -, hstop, hrest⟩ := h
    intro n hn
    rcases List.mem_cons.1 hn with rfl | hn
    · obtain ⟨a, b, rfl, ha⟩ := Text.isBoundary_iff.1 hstop
      rw [Text.bytes_append]
      omega
    · exact ih hrest n hn

end Match

/-- The matches that an iteration gives follow one another from its cursor on. -/
theorem Matches.inOrder {it : Matches} {ms : List Match} {last position : Nat}
    (hb : it.pattern.matcher.Bounded it.text) (hc : it.cursor = some position)
    (hle : last ≤ position)
    (h : ∀ k, answer k it = (ms[k]?).map .ok) : Match.InOrder it.text last ms := by
  induction ms generalizing it last position with
  | nil => trivial
  | cons m ms ih =>
    have h0 : it.next.1 = some (.ok m) := h 0
    obtain ⟨from', hc', he, hn⟩ := next_eq_match h0
    obtain rfl : position = from' := by simpa [hc] using hc'
    obtain ⟨ht, -, h₁, h₂, h₃, h₄⟩ := Pattern.bounds_of_execAt hb he
    have hstop := (isBoundary_stop_le_advance (m := m) (by rw [ht]; exact h₄)).2.1
    have hrest : ∀ k, answer k it.next.2 = (ms[k]?).map .ok := fun k => h (k + 1)
    have hmore := ih (by simpa using hb) hn hstop hrest
    rw [next_text] at hmore
    exact ⟨ht, by omega, h₂, h₃, h₄, hmore⟩

theorem Matches.exists_search {it : Matches} {m : Match} {k : Nat}
    (h : answer k it = some (.ok m)) :
    ∃ position, Text.isBoundary it.text position = true ∧
      ∃ span groups, it.pattern.matcher.search it.text position = .ok (some (some span :: groups)) ∧
        m = ⟨it.text, span, groups, it.pattern.names⟩ := by
  obtain ⟨position, -, he, -⟩ := next_eq_match h
  obtain ⟨hp, ht⟩ := after_pattern_text k it
  rw [hp, ht] at he
  exact ⟨position, Pattern.exists_of_execAt he⟩

theorem Pattern.Finds.inOrder {p : Pattern} {text : Text} {ms : List Match}
    (hb : p.matcher.Bounded text) (h : p.Finds text ms) : Match.InOrder text 0 ms :=
  @Matches.inOrder (.start p text) ms 0 0 hb rfl (Nat.le_refl 0) h

namespace Text

/-- Matches of a text with what stands before each of them since the one before it, or since an
offset, and what stands behind the last of them. -/
def CutAt (text : Text) : (last : Nat) → List (Text × Match) → (tail : Text) → Prop
  | last, [], tail => slice? text ⟨last, bytes text⟩ = some tail
  | last, (gap, m) :: cuts, tail =>
    slice? text ⟨last, m.start⟩ = some gap ∧ slice? text m.span = some m.matched ∧
      CutAt text m.stop cuts tail

def joined (cuts : List (Text × Match)) : Text := cuts.flatMap fun c => c.1 ++ c.2.matched

@[simp] theorem joined_nil : joined [] = [] := rfl

@[simp] theorem joined_cons (c : Text × Match) (cuts : List (Text × Match)) :
    joined (c :: cuts) = c.1 ++ c.2.matched ++ joined cuts := rfl

def lastStop (last : Nat) (ms : List Match) : Nat := (ms.getLast?.map Match.stop).getD last

theorem getD_getLast?_cons {α β : Type} (f : α → β) (a : α) (l : List α) (b : β) :
    ((a :: l).getLast?.map f).getD b = (l.getLast?.map f).getD (f a) := by
  rw [List.getLast?_cons]
  cases l.getLast? <;> rfl

@[simp] theorem lastStop_nil (last : Nat) : lastStop last [] = last := rfl

@[simp] theorem lastStop_cons (last : Nat) (m : Match) (ms : List Match) :
    lastStop last (m :: ms) = lastStop m.stop ms :=
  getD_getLast?_cons Match.stop m ms last

theorem exists_slice {text before rest : Text} {stop : Nat} (ht : text = before ++ rest)
    (hs : isBoundary text stop = true) (hle : bytes before ≤ stop) :
    ∃ part after, rest = part ++ after ∧ stop = bytes (before ++ part) ∧
      slice? text ⟨bytes before, stop⟩ = some part := by
  obtain ⟨a, b, hab, rfl⟩ := isBoundary_iff.1 hs
  obtain ⟨part, rfl, rfl⟩ := exists_append_of_bytes_le (ht.symm.trans hab) hle
  refine ⟨part, b, rfl, rfl, ?_⟩
  rw [hab, bytes_append]
  exact slice?_append before part b

/-- What stands inside a span, with what stands before and behind it. -/
theorem exists_of_slice? {text part : Text} {s : Span} (h : slice? text s = some part) :
    ∃ before after, text = before ++ part ++ after ∧ bytes before = s.start ∧
      bytes (before ++ part) = s.stop := by
  simp only [slice?] at h
  split at h
  · next hle =>
    simp only [Option.bind_eq_bind, Option.bind_eq_some_iff, Option.some.injEq, Prod.exists] at h
    obtain ⟨before, rest, hcut, inside, after, hin, rfl⟩ := h
    obtain ⟨rfl, hbefore⟩ := append_of_cutAt? hcut
    obtain ⟨rfl, hinside⟩ := append_of_cutAt? hin
    refine ⟨before, after, by rw [List.append_assoc], hbefore, ?_⟩
    rw [bytes_append]
    omega
  · exact absurd h (by simp)

/-- Matches that follow one another cut a text into gaps and matched parts, with a tail behind the
last of them. -/
theorem exists_cuts {text before rest : Text} {ms : List Match} (ht : text = before ++ rest)
    (h : Match.InOrder text (bytes before) ms) : ∃ cuts tail, cuts.map Prod.snd = ms ∧
      CutAt text (bytes before) cuts tail ∧ rest = joined cuts ++ tail ∧
      lastStop (bytes before) ms = bytes (before ++ joined cuts) := by
  induction ms generalizing before rest with
  | nil =>
    have hslice := slice?_append before rest []
    rw [List.append_nil, ← ht, ← bytes_append, ← ht] at hslice
    exact ⟨[], rest, rfl, hslice, rfl, by simp⟩
  | cons m ms ih =>
    obtain ⟨htext, h₁, h₂, hstart, hstop, hrest⟩ := h
    obtain ⟨gap, after, rfl, hs, hgap⟩ := exists_slice ht hstart h₁
    rw [← List.append_assoc] at ht
    obtain ⟨part, after, rfl, hs', hpart⟩ := exists_slice ht hstop (hs ▸ h₂)
    have hspan : slice? text m.span = some part := by
      rw [← hs] at hpart
      exact hpart
    have hmatched : m.matched = part := by rw [Match.matched, slice, htext, hspan]; rfl
    rw [hs'] at hrest
    rw [← List.append_assoc] at ht
    obtain ⟨cuts, tail, rfl, hcuts, rfl, hlast⟩ := ih ht hrest
    rw [← hs'] at hcuts hlast
    refine ⟨(gap, m) :: cuts, tail, rfl, ⟨hgap, hmatched ▸ hspan, hcuts⟩, ?_, ?_⟩
    · simp [hmatched]
    · rw [lastStop_cons, hlast]
      simp [hmatched]

theorem exists_cuts_zero {text : Text} {ms : List Match} (h : Match.InOrder text 0 ms) :
    ∃ cuts tail, cuts.map Prod.snd = ms ∧ CutAt text 0 cuts tail ∧ text = joined cuts ++ tail ∧
      lastStop 0 ms = bytes (joined cuts) :=
  @exists_cuts text [] text ms rfl h

end Text

end RegexDialect
