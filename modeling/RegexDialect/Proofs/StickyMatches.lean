import RegexDialect.Proofs.FlagSets
import RegexDialect.Proofs.Iteration
import RegexDialect.Proofs.Places

/-! A pattern with and without the flag `y`. A sticky search keeps what an ordinary one finds at the
place of the search, so an iteration under `y` is an ordinary one up to the first gap between its
matches. -/
namespace RegexDialect

namespace Pattern

variable {p : Pattern} {text : Text} {position : Nat}

@[simp] theorem isSticky_withSticky (p : Pattern) (on : Bool) :
    (p.withSticky on).isSticky = on := by
  simp [isSticky, withSticky, Flags.has_toggle]

theorem execAt_withSticky (p : Pattern) (text : Text) (position : Nat) (on sticky : Bool) :
    (p.withSticky on).execAt text position sticky =
      (p.withSticky false).execAt text position (sticky || on) := by
  have hmatch : (p.withSticky on).matchOf? text position sticky =
      (p.withSticky false).matchOf? text position (sticky || on) := by
    funext groups
    simp only [matchOf?, isSticky_withSticky, Bool.or_false]
    rfl
  simp only [execAt, hmatch]
  rfl

/-- A sticky search keeps what an ordinary one finds at the place of the search. -/
theorem matchOf?_sticky (p : Pattern) (text : Text) (position : Nat) (groups : Baseline.Groups) :
    p.matchOf? text position true groups =
      (p.matchOf? text position false groups).filter (·.start == position) := by
  simp only [matchOf?]
  split
  · next span rest =>
    by_cases h : span.start = position
    · simp [h, Match.start, Option.filter_some]
    · cases hs : p.isSticky <;> simp [h, Match.start, Option.filter_some]
  · rfl

/-- A sticky search reports the errors of an ordinary one. -/
theorem execAt_sticky (p : Pattern) (text : Text) (position : Nat) :
    p.execAt text position true =
      (p.execAt text position false).map (Option.filter (·.start == position)) := by
  simp only [execAt]
  split
  · rfl
  split
  · rfl
  cases p.search text position with
  | error e => rfl
  | ok found =>
    cases found with
    | none => rfl
    | some groups => exact congrArg Except.ok (matchOf?_sticky p text position groups)

end Pattern

namespace Matches

variable {it : Matches} {m : Match} {e : Error} {position : Nat}

theorem take_of_cursor_none (h : it.cursor = none) (calls : Nat) : take calls it = [] := by
  cases calls with
  | zero => rfl
  | succ calls => simp [take, next, h]

/-- Results in which every match starts where its search does: the first at a cursor, each other one
where the search goes on behind the match before it. An error ends them. -/
def Contiguous : (cursor : Nat) → List (Except Error Match) → Prop
  | _, [] => True
  | cursor, .ok m :: results => m.start = cursor ∧ Contiguous (advance m) results
  | _, .error _ :: results => results = []

theorem contiguous_singleton (cursor : Nat) (e : Error) : Contiguous cursor [.error e] := rfl

section take

variable {p : Pattern} {text : Text} {cursor calls : Nat}

theorem take_of_execAt_some (h : p.execAt text cursor false = .ok (some m)) :
    take (calls + 1) ⟨p, text, some cursor⟩ = .ok m :: take calls ⟨p, text, some (advance m)⟩ := by
  simp [take, next, h]

theorem take_of_execAt_none (h : p.execAt text cursor false = .ok none) :
    take (calls + 1) ⟨p, text, some cursor⟩ = [] := by
  simp [take, next, h]

theorem take_of_execAt_error (h : p.execAt text cursor false = .error e) :
    take (calls + 1) ⟨p, text, some cursor⟩ = [.error e] := by
  simp only [take, next, h]
  rw [take_of_cursor_none rfl]

end take

/-- However often both are called, an iteration under `y` gives the results of an ordinary one from
the same cursor up to the first match that starts behind its search. -/
theorem longestBeginning_take (p : Pattern) (text : Text) (cursor calls : Nat) :
    LongestBeginning (Contiguous cursor) (take calls ⟨p.withSticky false, text, some cursor⟩)
      (take calls ⟨p.withSticky true, text, some cursor⟩) := by
  induction calls generalizing cursor with
  | zero => exact .refl trivial
  | succ calls ih =>
    have hsticky : (p.withSticky true).execAt text cursor false =
        ((p.withSticky false).execAt text cursor false).map
          (Option.filter (·.start == cursor)) := by
      rw [Pattern.execAt_withSticky, Bool.false_or, Pattern.execAt_sticky]
    rcases hplain : (p.withSticky false).execAt text cursor false with
      e | _ | m <;> rw [hplain] at hsticky
    · rw [take_of_execAt_error hplain, take_of_execAt_error hsticky]
      exact .refl (contiguous_singleton cursor e)
    · rw [take_of_execAt_none hplain, take_of_execAt_none hsticky]
      exact .refl trivial
    rw [take_of_execAt_some hplain]
    by_cases hm : m.start = cursor
    · rw [take_of_execAt_some (by simpa [Except.map, Option.filter_some, hm] using hsticky)]
      exact .cons (fun l => by simp [Contiguous, hm]) (ih (advance m))
    · rw [take_of_execAt_none (by simpa [Except.map, Option.filter_some, hm] using hsticky)]
      exact .nil trivial fun l h => hm h.1

end Matches

/-- A pattern under `y` gives the results of the same pattern without it, up to the first match that
starts behind its search, also when the iteration is left after some calls; and the flag does in
every search what the argument does. -/
theorem Pattern.results_sticky (p : Pattern) (text : Text) :
    LongestBeginning (Matches.Contiguous 0) ((p.withSticky false).results text)
      ((p.withSticky true).results text) ∧
      (∀ calls, LongestBeginning (Matches.Contiguous 0)
        ((Matches.start (p.withSticky false) text).take calls)
        ((Matches.start (p.withSticky true) text).take calls)) ∧
      ∀ position,
        (p.withSticky false).execAt text position true =
          (p.withSticky true).execAt text position false := by
  refine ⟨Matches.longestBeginning_take p text 0 _, Matches.longestBeginning_take p text 0,
    fun position => ?_⟩
  rw [execAt_withSticky p text position true, Bool.false_or]

end RegexDialect
