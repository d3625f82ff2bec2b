import RegexDialect.Match

/-! Patterns and matches by what they are made from: a compilation, a matcher of the engine, and
what it finds. -/
namespace RegexDialect

open Baseline

section Except

variable {ε α β : Type} {x : Except ε α} {a : α}

theorem toOption_eq_some_iff : x.toOption = some a ↔ x = .ok a := by
  cases x <;> simp [Except.toOption]

theorem toOption_eq_none_iff : x.toOption = none ↔ ∃ e, x = .error e := by
  cases x <;> simp [Except.toOption]

theorem exists_of_any_toOption {f : α → Bool} (h : x.toOption.any f = true) :
    ∃ a, x = .ok a ∧ f a = true := by
  obtain ⟨a, ha, hf⟩ := (Option.any_eq_true _ _).1 h
  exact ⟨a, toOption_eq_some_iff.1 ha, hf⟩

theorem exists_of_bind_eq_ok {f : α → Except ε β} {b : β}
    (h : (x >>= f) = .ok b) : ∃ a, x = .ok a ∧ f a = .ok b := by
  cases x with
  | error e => exact absurd h (by simp [bind, Except.bind])
  | ok a => exact ⟨a, rfl, h⟩

theorem exists_of_map_eq_ok {f : α → β} {b : β} (h : x.map f = .ok b) :
    ∃ a, x = .ok a ∧ f a = b := by
  cases x with
  | error e => exact absurd h (by simp [Except.map])
  | ok a => exact ⟨a, rfl, Except.ok.inj h⟩

end Except

namespace Pattern

variable {engine : Engine} {source flags text : Text} {position : Nat} {sticky : Bool}
  {p : Pattern} {m : Match}

theorem exists_of_make (h : make engine source flags = .ok p) :
    ∃ f c matcher, Flags.parse flags = .ok f ∧ Registry.builtin.compile source f = .ok c ∧
      engine.build (baselineText c.rewritten c.context.flags) none = .ok matcher ∧
      p = ⟨source, c.rewritten, c.context.flags, c.context.names, c.context.named, matcher⟩ := by
  rw [make, build] at h
  obtain ⟨f, hf, h⟩ := exists_of_bind_eq_ok h
  obtain ⟨c, hc, h⟩ := exists_of_bind_eq_ok h
  rw [ofCompiled] at h
  split at h
  · next matcher hbuild => exact ⟨f, c, matcher, hf, hc, hbuild, (Except.ok.inj h).symm⟩
  · exact absurd h (by simp)

theorem make_of_compile {f : Flags} {c : Compiled} {matcher : Matcher}
    (hf : Flags.parse flags = .ok f) (hc : Registry.builtin.compile source f = .ok c)
    (hb : engine.build (baselineText c.rewritten c.context.flags) none = .ok matcher) :
    make engine source flags =
      .ok ⟨source, c.rewritten, c.context.flags, c.context.names, c.context.named, matcher⟩ := by
  simp only [make, build, hf, hc, bind, Except.bind, ofCompiled, hb]

/-- A match is what the matcher finds, with the names of the pattern. -/
theorem exists_of_execAt (h : p.execAt text position sticky = .ok (some m)) :
    Text.isBoundary text position = true ∧
      ∃ span groups, p.matcher.search text position = .ok (some (some span :: groups)) ∧
        m = ⟨text, span, groups, p.names⟩ := by
  rw [execAt] at h
  split at h
  · exact absurd h (by simp)
  split at h
  · exact absurd h (by simp)
  next hposition =>
  refine ⟨by simpa using hposition, ?_⟩
  rw [search] at h
  split at h
  · next found hfound =>
    simp only [Except.map, Except.ok.injEq, Option.bind_eq_some_iff] at h
    obtain ⟨groups, rfl, h⟩ := h
    unfold matchOf? at h
    split at h
    · split at h
      · exact absurd h (by simp)
      · simp only [Option.some.injEq] at h
        exact ⟨_, _, hfound, h.symm⟩
    · exact absurd h (by simp)
  · exact absurd h (by simp [Except.map])

end Pattern
end RegexDialect
