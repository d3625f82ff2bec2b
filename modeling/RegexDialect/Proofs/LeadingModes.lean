import RegexDialect.Pattern
import RegexDialect.Proofs.EscapedText

/-! A mode modifier at the start of a pattern does what its letters would do among the flags. -/
namespace RegexDialect

open ScanState

section Modifier

variable {letters p : Text}

theorem Registry.compile_behindModifier (hn : letters ≠ [])
    (hl : ∀ c ∈ letters, Builtin.isModifier c = true) (p : Text) (flags : Flags) :
      Registry.builtin.compile (['(', '?'] ++ letters ++ [')'] ++ p) flags =
      match (ScanState.mk (Text.bytes (['(', '?'] ++ letters ++ [')'])) p .outsideClass
        ⟨.start (letters.foldl Flags.add flags), false⟩).scan Builtin.lookup
          (['(', '?'] ++ letters ++ [')'] ++ p) with
      | (.ok pieces, turn) => .ok ⟨Segment.emitted pieces, turn.context⟩
      | (.error e, _) => .error e := by
  have hreads : Builtin.Reads 0 (.start flags) .outsideClass (['(', '?'] ++ letters ++ [')']) p
      [] .outsideClass (.start (letters.foldl Flags.add flags)) := .leadingModifier hn hl rfl
  obtain ⟨byRule, hstep⟩ :=
    @Builtin.step_of_reads p .outsideClass (['(', '?'] ++ letters ++ [')'] ++ p) _ _ 0
    ⟨.start flags, false⟩ _ _ hreads
  rw [compile_builtin, ← scan_start, start, scan_of_step hstep, Nat.zero_add]
  rcases (ScanState.mk (Text.bytes (['(', '?'] ++ letters ++ [')'])) p .outsideClass
    ⟨.start (letters.foldl Flags.add flags), false⟩).scan Builtin.lookup
      (['(', '?'] ++ letters ++ [')'] ++ p) with
    ⟨e | pieces, turn⟩
  · rfl
  · simp [Except.map, Segment.emitted]

/-- What stands behind a modifier is compiled as if it stood alone, with the letters among the
flags. -/
theorem Registry.compile_modifier (hn : letters ≠ [])
    (hl : ∀ c ∈ letters, Builtin.isModifier c = true) (hp : ¬BeginsWithModifier p) (flags : Flags) :
    Registry.builtin.compile (['(', '?'] ++ letters ++ [')'] ++ p) flags =
      Registry.builtin.compile p (letters.foldl Flags.add flags) := by
  have hleft := compile_behindModifier hn hl p flags
  rw [@scan_anywhere _ p p _ 0 _ _ (.inl hp)] at hleft
  exact hleft.trans (compile_builtin p _).symm

theorem Pattern.ofCompiled_map_source (engine : Baseline.Engine) (source other : Text)
    (limit : Option Nat)
    (c : Compiled) : (ofCompiled engine source limit c).map (fun q => { q with source := other }) =
      ofCompiled engine other limit c := by
  rw [ofCompiled, ofCompiled]
  cases engine.build (baselineText c.rewritten c.context.flags) limit <;> rfl

/-- A mode modifier `(?imnsx)` in front of a pattern that does not begin with one is the same as its
letters set on top of the flags: the same error, or the same text, flags and names. So both build
the same pattern, but for its source. -/
theorem Registry.compile_leadingModifier (hn : letters ≠ [])
    (hl : ∀ c ∈ letters, c ∈ ['i', 'm', 'n', 's', 'x']) (hp : ¬BeginsWithModifier p) :
    (∀ flags : Flags, ∃ more : Flags, flags.insertAll letters = (.ok (), more) ∧
      (∀ c, more.has c = (letters.contains c || flags.has c)) ∧
      Registry.builtin.compile (['(', '?'] ++ letters ++ [')'] ++ p) flags =
        Registry.builtin.compile p more) ∧
    ∀ (engine : Baseline.Engine) (flags : Text) (limit : Option Nat),
      (Pattern.build engine .builtin (['(', '?'] ++ letters ++ [')'] ++ p) flags limit).map
          (fun q => { q with source := p }) =
        Pattern.build engine .builtin p (flags ++ letters) limit := by
  have hm : ∀ c ∈ letters, Builtin.isModifier c = true :=
    fun c hc => Builtin.isModifier_iff.2 (hl c hc)
  have hinsert : ∀ f : Flags, f.insertAll letters = (.ok (), letters.foldl Flags.add f) := fun f =>
    Flags.insertAll_of_isAlpha fun c hc => Builtin.isAlpha_of_isModifier (hm c hc)
  refine ⟨fun flags =>
    ⟨_, hinsert flags, flags.has_foldl_add letters, compile_modifier hn hm hp flags⟩,
    fun engine flags limit => ?_⟩
  rw [Pattern.build, Pattern.build, Flags.parse_append]
  cases Flags.parse flags with
  | error e => rfl
  | ok f =>
    simp only [hinsert, bind, Except.bind, compile_modifier hn hm hp f]
    cases Registry.builtin.compile p (letters.foldl Flags.add f) with
    | error e => rfl
    | ok c => exact Pattern.ofCompiled_map_source engine _ p limit c

/-- A modifier with a letter twice, before blanks, a group and a modifier that comes too late. -/
theorem Registry.compile_leadingModifier_blanks :
    Registry.builtin.compile "(?xnx) (a)(?s). #b".toList ⟨['g'], by decide⟩ =
        Registry.builtin.compile " (a)(?s). #b".toList ⟨['g', 'n', 'x'], by decide⟩ ∧
      Registry.builtin.compile " (a)(?s). #b".toList ⟨['g', 'n', 'x'], by decide⟩ =
        .ok ⟨"(?:)(?:a)(?s).(?:)".toList, ⟨⟨['g', 'n', 'x'], by decide⟩, [], false⟩⟩ := by
  have h : ¬BeginsWithModifier " (a)(?s). #b".toList := by decide
  obtain ⟨more, hmore, -, hc⟩ :=
    (@compile_leadingModifier ['x', 'n', 'x'] " (a)(?s). #b".toList (by simp) (by simp) h).1
      ⟨['g'], by decide⟩
  obtain rfl : (⟨['g', 'n', 'x'], by decide⟩ : Flags) = more := by
    have he : (⟨['g'], by decide⟩ : Flags).insertAll ['x', 'n', 'x'] =
        (.ok (), ⟨['g', 'n', 'x'], by decide⟩) := rfl
    rw [he, Prod.mk.injEq] at hmore
    exact hmore.2
  refine ⟨hc, ?_⟩
  rw [compile_builtin]
  rfl

end Modifier

end RegexDialect
