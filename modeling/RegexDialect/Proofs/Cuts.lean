import RegexDialect.Proofs.Escapes
import RegexDialect.Proofs.Tiling

/-! A text cut from left to right into the units of the scan, without rules. A place of the text is
a cut, or else one unit begins before it and ends behind it. -/
namespace RegexDialect

open Baseline BaselineToken

inductive Cuts : Scope → Text → Scope → Text → Prop
  | here (scope : Scope) (t : Text) : Cuts scope t scope t
  | unit {scope after : Scope} {t u : Text} (h : length scope t ≠ 0)
      (next : Cuts scope (t.drop (length scope t)) after u) : Cuts scope t after u
  | char {scope after : Scope} {c : Char} {r u : Text} (h : length scope (c :: r) = 0)
      (next : Cuts (scope.after c) r after u) : Cuts scope (c :: r) after u

/-- Whether a text is cut between a part of it and what follows. -/
def CutBetween (before after : Text) : Prop :=
  ∃ scope, Cuts .outsideClass (before ++ after) scope after

theorem Run.cuts {pattern : Text} {s t : ScanState} {l : List Segment}
    (run : Run Registry.empty.lookup pattern s l t) : Cuts s.scope s.rest t.scope t.rest := by
  induction run with
  | done => exact .here _ _
  | @round s s' t piece l hstep _ ih =>
    obtain ⟨hrest, hne, -⟩ := rest_of_step hstep
    obtain ⟨c, r, hr⟩ := List.exists_cons_of_ne_nil (l := s.rest) (by rw [← hrest]; simp [hne])
    by_cases hl : length s.scope s.rest = 0
    · rw [ScanState.step_of_char hr hl Registry.lookup_empty] at hstep
      simp only [Except.ok.injEq, Option.some.injEq, Prod.mk.injEq] at hstep
      obtain ⟨-, rfl⟩ := hstep
      simp only [ScanState.advance, hr] at ih hl ⊢
      exact .char hl ih
    · rw [ScanState.step_of_unit hl (by simp [hr]) Registry.lookup_empty] at hstep
      simp only [Except.ok.injEq, Option.some.injEq, Prod.mk.injEq] at hstep
      obtain ⟨-, rfl⟩ := hstep
      exact .unit hl ih

/-- The cuts of a text are the places that a scan without rules comes to. -/
theorem cuts_iff_run {pattern t u : Text} {scope after : Scope} {turn : Turn} (position : Nat) :
    Cuts scope t after u ↔ ∃ l s, Run Registry.empty.lookup pattern ⟨position, t, scope, turn⟩ l s ∧
      s.scope = after ∧ s.rest = u := by
  constructor
  · intro h
    induction h generalizing position with
    | here scope t => exact ⟨[], _, .done _, rfl, rfl⟩
    | @unit scope after t u h _ ih =>
      have hn : t ≠ [] := by
        rintro rfl
        exact h (Nat.le_zero.1 (length_le scope []))
      obtain ⟨l, s, run, hs⟩ := ih (position + Text.bytes (t.take (length scope t)))
      exact ⟨_, s, .round (ScanState.step_of_unit h hn Registry.lookup_empty) run, hs⟩
    | @char scope after c r u h _ ih =>
      obtain ⟨l, s, run, hs⟩ := ih (position + Text.bytes [c])
      exact ⟨_, s, .round (ScanState.step_of_char rfl h Registry.lookup_empty) run, hs⟩
  · rintro ⟨l, s, run, rfl, rfl⟩
    exact run.cuts

namespace Cuts

variable {scope after last : Scope} {t u v w : Text}

theorem length_le (h : Cuts scope t after u) : u.length ≤ t.length := by
  induction h with
  | here => exact Nat.le_refl _
  | unit h _ ih =>
    rw [List.length_drop] at ih
    omega
  | char h _ ih => exact Nat.le_succ_of_le ih

theorem trans (h : Cuts scope t after u) (h' : Cuts after u last v) : Cuts scope t last v := by
  induction h with
  | here => exact h'
  | unit h _ ih => exact .unit h (ih h')
  | char h _ ih => exact .char h (ih h')

theorem scope_cases (h : Cuts scope t after u) (hs : scope = .insideClass ∨ scope = .outsideClass) :
    after = .insideClass ∨ after = .outsideClass := by
  induction h with
  | here => exact hs
  | unit _ _ ih => exact ih hs
  | @char scope _ c _ _ _ _ ih =>
    refine ih ?_
    rw [Scope.after]
    split
    · exact .inl rfl
    · split
      · exact .inr rfl
      · exact hs

theorem linear (h : Cuts scope t after u) (h' : Cuts scope t last v) :
    Cuts after u last v ∨ Cuts last v after u := by
  induction h with
  | here => exact .inl h'
  | unit h next ih =>
    cases h' with
    | here => exact .inr (.unit h next)
    | unit _ next' => exact ih next'
    | char h' => exact absurd h' h
  | char h next ih =>
    cases h' with
    | here => exact .inr (.char h next)
    | unit h' => exact absurd h h'
    | char _ next' => exact ih next'

/-- A place that a unit goes over is no cut. -/
theorem not_of_over (h : Cuts scope t after (u ++ v)) (hu : u ≠ [])
    (hl : u.length < length after (u ++ v)) :
    ¬∃ last, Cuts scope t last v := by
  rintro ⟨last, h'⟩
  have hpos := List.length_pos_iff.2 hu
  rcases h.linear h' with hn | hn
  · generalize hw : u ++ v = w at hn hl
    have hlen : u.length + v.length = w.length := by rw [← hw, List.length_append]
    cases hn with
    | here => omega
    | unit _ next =>
      have hle := next.length_le
      have hunit := BaselineToken.length_le after w
      rw [List.length_drop] at hle
      omega
    | char h => omega
  · have hle := hn.length_le
    rw [List.length_append] at hle
    omega

/-- A place of a text is a cut, or a unit goes over it. -/
theorem exists_over (o F : Text) (scope : Scope) : (∃ after, Cuts scope (o ++ F) after F) ∨
    ∃ u after, u ≠ [] ∧ Cuts scope (o ++ F) after (u ++ F) ∧ u.length < length after (u ++ F) := by
  induction hn : o.length using Nat.strongRecOn generalizing o scope with
  | ind n ih =>
    subst hn
    cases o with
    | nil => exact .inl ⟨scope, .here scope F⟩
    | cons c o =>
      by_cases hl : length scope (c :: o ++ F) = 0
      · rcases ih o.length (by simp) o (scope.after c) rfl with
          ⟨after, h⟩ | ⟨u, after, hu, h, hover⟩
        · exact .inl ⟨after, .char hl h⟩
        · exact .inr ⟨u, after, hu, .char hl h, hover⟩
      · by_cases hover : (c :: o).length < length scope (c :: o ++ F)
        · exact .inr ⟨c :: o, scope, by simp, .here scope _, hover⟩
        · have hdrop : (c :: o ++ F).drop (length scope (c :: o ++ F)) =
              (c :: o).drop (length scope (c :: o ++ F)) ++ F :=
                List.drop_append_of_le_length (by omega)
          have hlt : ((c :: o).drop (length scope (c :: o ++ F))).length < (c :: o).length := by
            rw [List.length_drop]
            simp only [List.length_cons] at hover ⊢
            omega
          rcases ih _ hlt _ scope rfl with ⟨after, h⟩ | ⟨u, after, hu, h, hover⟩
          · exact .inl ⟨after, .unit hl (by rw [hdrop]; exact h)⟩
          · exact .inr ⟨u, after, hu, .unit hl (by rw [hdrop]; exact h), hover⟩

end Cuts

section Escapes

variable {scope after : Scope} {t w : Text}

theorem escapes_drop (hs : scope = .insideClass ∨ scope = .outsideClass) (h : length scope t ≠ 0)
    (hb : t.head? ≠ some '\\') : escapes scope 0 t = escapes scope 0 (t.drop (length scope t)) := by
  have hne : t ≠ [] := by
    rintro rfl
    exact h (Nat.le_zero.1 (length_le scope []))
  have hunit : length scope (t.take (length scope t) ++ t.drop (length scope t)) =
      (t.take (length scope t)).length := by
    rw [List.take_append_drop, List.length_take, Nat.min_eq_left (length_le scope t)]
  have hplain : ∀ d ∈ t.take (length scope t), d ≠ '\\' ∧ scopeBehind scope d = scope := by
    rcases Builtin.unit_cases hs (by simp [hne, h]) hunit with ⟨d, a, htake, -⟩ | ⟨-, hplain⟩
    · refine absurd ?_ hb
      rw [← List.take_append_drop (length scope t) t, htake]
      rfl
    · exact fun d hd => ⟨(hplain d hd).1, scopeBehind_of_ne (hplain d hd).2.1 (hplain d hd).2.2.1⟩
  have happ := escapes_plain hplain (t.drop (length scope t))
  rwa [List.take_append_drop] at happ

theorem escapes_unit (h : length scope t ≠ 0) (hb : t.head? = some '\\') :
    escapes scope 0 t = (scope, t) :: escapes scope 0 (t.drop (length scope t)) := by
  obtain ⟨n, hn⟩ := Nat.exists_eq_succ_of_ne_zero h
  obtain ⟨r, rfl⟩ := List.head?_eq_some_iff.1 hb
  have hle := length_le scope ('\\' :: r)
  have hlen : escapeLength scope ('\\' :: r) = n + 1 := by simp [escapeLength, hn]
  have hskip := escapes_skip scope (r.take n) (r.drop n)
  rw [List.take_append_drop, List.length_take,
    Nat.min_eq_left (by simp only [List.length_cons] at hle; omega)] at hskip
  simp only [escapes, hlen, hn, List.drop_succ_cons, hskip]

theorem Cuts.mem_escapes (h : Cuts scope t after w)
    (hs : scope = .insideClass ∨ scope = .outsideClass)
    (hw : length after w ≠ 0) (hb : w.head? = some '\\') : (after, w) ∈ escapes scope 0 t := by
  induction h with
  | here =>
    rw [escapes_unit hw hb]
    exact List.mem_cons_self
  | @unit scope after t u h _ ih =>
    have hmem := ih hs hw hb
    by_cases ht : t.head? = some '\\'
    · rw [escapes_unit h ht]
      exact List.mem_cons_of_mem _ hmem
    · rwa [escapes_drop hs h ht]
  | @char scope after c r u h _ ih =>
    have hlen : escapeLength scope (c :: r) = 0 := by
      rw [escapeLength, h, ite_self]
    have first : Cuts scope (c :: r) (scope.after c) r := .char h (.here _ r)
    rw [escapes_bare hlen, scopeBehind_eq_after hs]
    exact ih (first.scope_cases hs) hw hb

end Escapes

end RegexDialect
