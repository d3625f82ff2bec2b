import RegexDialect.Proofs.GroupNames
import RegexDialect.Proofs.RoundMarks

/-! What is left of the modes of the dialect in the text that a pattern is rewritten to: outside of
classes and escapes there is nothing that the modes of its flags would change. -/
namespace RegexDialect

open Baseline

namespace Flags

def Keeps (flags : Flags) (c : Char) : Prop :=
  (flags.has 'x' = true → Unicode.isBlank c = false ∧ c ≠ '#') ∧ (flags.has 's' = true → c ≠ '.')

/-- Marks outside of classes and escapes are all kept. -/
def KeepsAll (flags : Flags) (l : List Mark) : Prop :=
  ∀ x ∈ l, x.scope = .outsideClass → x.escaped = false → flags.Keeps x.char

variable {flags : Flags} {l m : List Mark}

theorem keeps_of_isSettled {c : Char} (h : Builtin.isSettled c = true) (flags : Flags) :
    flags.Keeps c := by
  simp only [Builtin.isSettled, Bool.and_eq_true, Bool.not_eq_true', bne_iff_ne, ne_eq] at h
  exact ⟨fun _ => h.1, fun _ => h.2⟩

theorem KeepsAll.append (h : flags.KeepsAll l) (h' : flags.KeepsAll m) : flags.KeepsAll (l ++ m) :=
  fun x hx => (List.mem_append.1 hx).elim (h x) (h' x)

theorem KeepsAll.of_takes (h : flags.KeepsAll m) (hl : List.Forall₂ Mark.Takes l m) :
    flags.KeepsAll l := by
  induction hl with
  | nil => exact h
  | @cons x y l m hx _ ih =>
    have hm : flags.KeepsAll m := fun z hz => h z (by simp [hz])
    intro z hz hscope hbare
    rcases List.mem_cons.1 hz with rfl | hz
    · rcases hx with rfl | ⟨-, rfl⟩
      · exact h z (by simp) hscope hbare
      · exact absurd hbare (by simp)
    · exact ih hm z hz hscope hbare

end Flags

namespace Builtin

variable {context : Context} {scope after : Scope} {source rest : Text} {new : List Mark}

/-- A character that no rule takes is not one that the flags change. -/
theorem keeps_of_not_firing {c : Char} (h : firing? (c :: rest) .outsideClass context = none) :
    context.flags.Keeps c := by
  have hnone := firing?_eq_none_iff.1 h
  constructor
  · intro hx
    have hspacing :=
      recognize_of_recognizeIn_none (by decide) (by simpa [awaits, Context.hasFlag] using hx)
      (hnone spacing)
    simp only [recognize, ite_eq_left_iff, reduceCtorEq, imp_false, Decidable.not_not,
      beq_iff_eq] at hspacing
    cases hb : Unicode.isBlank c with
    | true => simp [spacingLength, hb] at hspacing
    | false =>
      refine ⟨rfl, ?_⟩
      rintro rfl
      simp [spacingLength, hb] at hspacing
  · rintro hs rfl
    have hdot :=
      recognize_of_recognizeIn_none (by decide) (by simpa [awaits, Context.hasFlag] using hs)
        (hnone dot)
    exact absurd hdot (by simp [recognize])

theorem Leaves.keepsAll (h : Leaves context source rest scope new after)
    (hs : scope = .insideClass ∨ scope = .outsideClass) : context.flags.KeepsAll new := by
  have hne : Scope.insideClass ≠ .outsideClass := by decide
  intro x hx hscope hbare
  cases h with
  | outside ho =>
    obtain ⟨-, he | ⟨-, hsettled⟩⟩ := ho x hx
    · exact absurd he (by simp [hbare])
    · exact Flags.keeps_of_isSettled hsettled _
  | anyCharacter =>
    have hsettled : ∀ x ∈ marks .outsideClass 0 Builtin.anyCharacter, x.escaped = false →
        isSettled x.char = true := by
      decide
    exact Flags.keeps_of_isSettled (hsettled x hx hbare) _
  | inside _ hi => exact absurd ((hi x hx).1.symm.trans hscope) hne
  | char _ hr =>
    obtain rfl := List.mem_singleton.1 hx
    obtain rfl : scope = .outsideClass := hscope
    exact keeps_of_not_firing hr

end Builtin

/-- What a run emits is kept by the flags at its end. -/
theorem Run.keepsAll {pattern : Text} {s t : ScanState} {l : List Segment}
    (run : Run Builtin.lookup pattern s l t)
    (hs : s.scope = .insideClass ∨ s.scope = .outsideClass) :
    t.turn.context.flags.KeepsAll (marks s.scope 0 (Segment.emitted l)) := by
  induction run with
  | done => simp [Segment.emitted, Flags.KeepsAll]
  | @round s s' t piece l hstep run ih =>
    obtain ⟨hreads, -⟩ := Builtin.reads_of_step hs hstep
    have hrest := ih (hreads.scope_after hs)
    rcases hreads.flags_eq_or with hflags | ⟨-, hout, hscope, -⟩
    · obtain ⟨new, hpeel, hleaves⟩ := run.leaves hstep hs
      have hnew := hleaves.keepsAll hs
      rw [← hflags, ← run.flags_eq_of_step hstep hs] at hnew
      exact (hnew.append hrest).of_takes hpeel.marks
    · have hemitted : Segment.emitted (piece :: l) = Segment.emitted l := by
        simp [Segment.emitted, hout]
      rw [hemitted, ← hscope]
      exact hrest

/-- The engine need not know of the modes of the dialect. In the text that a pattern is rewritten to
nothing outside of classes and escapes is a blank or a number sign under `x`, or a dot under `s`,
and under `n` every group has a name. -/
theorem Registry.modes_of_compile {pattern : Text} {flags : Flags} {c : Compiled}
    (h : Registry.builtin.compile pattern flags = .ok c) :
    (∀ x ∈ marks .outsideClass 0 c.rewritten, x.scope = .outsideClass → x.escaped = false →
      (c.context.hasFlag 'x' = true → Unicode.isBlank x.char = false ∧ x.char ≠ '#') ∧
        (c.context.hasFlag 's' = true → x.char ≠ '.')) ∧
    (c.context.hasFlag 'n' = true → ∀ entry ∈ c.context.names, entry.isSome = true) := by
  constructor
  · obtain ⟨l, t, run, -, rfl⟩ := exists_run_of_compile h
    exact run.keepsAll (.inr rfl)
  · intro hn entry hentry
    have hdeclares := declares_of_compile h entry hentry
    cases entry with
    | some name => rfl
    | none => exact absurd (hn.symm.trans hdeclares) (by simp)

theorem Registry.modes_of_compile_modifier :
    ∃ c, Registry.builtin.compile "(?nsx)(a .)(?<b>\\.) #c".toList .empty = .ok c ∧
      c.rewritten = "(?:a(?:)[\\s\\S])(\\.)(?:)".toList ∧ c.context.names = [some ['b']] ∧
      (∀ x ∈ marks .outsideClass 0 c.rewritten, x.scope = .outsideClass → x.escaped = false →
        (Unicode.isBlank x.char = false ∧ x.char ≠ '#') ∧ x.char ≠ '.') ∧
      ∀ entry ∈ c.context.names, entry.isSome = true := by
  have hc : Registry.builtin.compile "(?nsx)(a .)(?<b>\\.) #c".toList .empty =
      .ok ⟨"(?:a(?:)[\\s\\S])(\\.)(?:)".toList,
        ⟨⟨['n', 's', 'x'], by decide⟩, [some ['b']], true⟩⟩ := by
    rw [Registry.compile_builtin]
    rfl
  obtain ⟨hmarks, hnames⟩ := modes_of_compile hc
  refine ⟨_, hc, rfl, rfl, fun x hx hscope hbare => ?_, hnames (by decide)⟩
  obtain ⟨hx', hs⟩ := hmarks x hx hscope hbare
  exact ⟨hx' (by decide), hs (by decide)⟩

end RegexDialect
