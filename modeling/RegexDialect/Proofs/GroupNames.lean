import RegexDialect.Proofs.Rounds

/-! The groups that a scan with the built-in rules declares, and the flags it declares them under:
only a modifier at the very start changes the flags, and no group comes before it. -/
namespace RegexDialect

structure IsGroupName (name : Text) : Prop where
  nonempty : name ≠ []
  chars : ∀ c ∈ name, Builtin.isNameChar c = true
  notNumber : name.all Char.isDigit = false

/-- The entries that a group may be recorded as under given flags. -/
def Flags.Declares (flags : Flags) : Option Text → Prop
  | none => flags.has 'n' = false
  | some name => IsGroupName name

namespace Builtin

variable {position : Nat} {context c : Context} {scope after : Scope} {source rest output : Text}

/-- A round keeps the flags, or is a modifier at the start, which does nothing else. -/
theorem Reads.flags_eq_or (h : Reads position context scope source rest output after c) :
    c.flags = context.flags ∨ position = 0 ∧ output = [] ∧ after = scope ∧
      c.names = context.names := by
  cases h with
  | leadingModifier _ _ hp => exact .inr ⟨hp, rfl, rfl, rfl⟩
  | _ => exact .inl rfl

/-- A round keeps the names, or records one group that the flags allow. -/
theorem Reads.names_eq_or (h : Reads position context scope source rest output after c) :
    c.names = context.names ∨
      ∃ entry, c.names = context.names ++ [entry] ∧ c.flags = context.flags ∧
        context.flags.Declares entry := by
  cases h with
  | named _ hn hc hd => exact .inr ⟨_, rfl, rfl, hn, hc, hd⟩
  | group _ hf => exact .inr ⟨none, rfl, rfl, hf⟩
  | _ => exact .inl rfl

end Builtin

namespace Run

variable {pattern : Text} {s s' t : ScanState} {l : List Segment} {piece : Segment}

theorem flags_eq (run : Run Builtin.lookup pattern s l t)
    (hs : s.scope = .insideClass ∨ s.scope = .outsideClass)
    (hp : s.position ≠ 0) : t.turn.context.flags = s.turn.context.flags := by
  induction run with
  | done => rfl
  | round hstep _ ih =>
    obtain ⟨hreads, -⟩ := Builtin.reads_of_step hs hstep
    obtain ⟨-, -, hposition, -⟩ := rest_of_step hstep
    rw [ih (hreads.scope_after hs) (by omega)]
    rcases hreads.flags_eq_or with hflags | ⟨hzero, -⟩
    · exact hflags
    · exact absurd hzero hp

theorem flags_eq_of_step (run : Run Builtin.lookup pattern s' l t)
    (hstep : s.step Builtin.lookup pattern = .ok (some (piece, s')))
    (hs : s.scope = .insideClass ∨ s.scope = .outsideClass) :
      t.turn.context.flags = s'.turn.context.flags := by
  obtain ⟨hreads, -⟩ := Builtin.reads_of_step hs hstep
  obtain ⟨-, hne, hposition, -⟩ := rest_of_step hstep
  have hpos := Text.bytes_pos_of_ne_nil hne
  exact run.flags_eq (hreads.scope_after hs) (by omega)

theorem declares (run : Run Builtin.lookup pattern s l t)
    (hs : s.scope = .insideClass ∨ s.scope = .outsideClass) :
    ∀ entry ∈ t.turn.context.names, entry ∈ s.turn.context.names ∨
      t.turn.context.flags.Declares entry := by
  induction run with
  | done => exact fun entry h => .inl h
  | @round s s' t piece l hstep run ih =>
    intro entry hentry
    obtain ⟨hreads, -⟩ := Builtin.reads_of_step hs hstep
    rcases ih (hreads.scope_after hs) entry hentry with hold | hnew
    · rcases hreads.names_eq_or with hnames | ⟨last, hnames, hflags, hlast⟩
      · rw [hnames] at hold
        exact .inl hold
      · rw [hnames, List.mem_append, List.mem_singleton] at hold
        rcases hold with hold | rfl
        · exact .inl hold
        · rw [run.flags_eq_of_step hstep hs, hflags]
          exact .inr hlast
    · exact .inr hnew

end Run

/-- Every group of a compiled pattern is one that its flags allow. -/
theorem Registry.declares_of_compile {pattern : Text} {flags : Flags} {c : Compiled}
    (h : Registry.builtin.compile pattern flags = .ok c) :
    ∀ entry ∈ c.context.names, c.context.flags.Declares entry := by
  obtain ⟨l, t, run, -, rfl⟩ := exists_run_of_compile h
  intro entry hentry
  rcases run.declares (.inr rfl) entry hentry with hnil | hdeclares
  · exact absurd hnil (by simp [ScanState.start, Context.start])
  · exact hdeclares

end RegexDialect
