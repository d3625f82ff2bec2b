import RegexDialect.Proofs.Fusion

/-! References to named groups that are declared. Each is written as the number of the first group
of its name, and nothing that is emitted behind it makes the number longer. -/
namespace RegexDialect

open BaselineToken

theorem Context.exists_index {context : Context} {name : Text} (h : some name ∈ context.names) :
    ∃ index, context.index? name = some index ∧ index < context.count ∧
      context.names[index]? = some (some name) ∧ ∀ k < index, context.names[k]? ≠
        some (some name) := by
  have hsome : (context.names.findIdx? (· == some name)).isSome = true := by
    rw [List.findIdx?_isSome, List.any_eq_true]
    exact ⟨some name, h, by simp⟩
  obtain ⟨index, hindex⟩ := Option.isSome_iff_exists.1 hsome
  obtain ⟨hlt, hname, hfirst⟩ := List.findIdx?_eq_some_iff_getElem.1 hindex
  refine ⟨index, hindex, hlt, ?_, fun k hk heq => ?_⟩
  · rw [List.getElem?_eq_getElem hlt]
    simpa using hname
  · have hk' := hfirst k hk
    rw [List.getElem?_eq_getElem (by omega)] at heq
    simp only [Option.some.injEq] at heq
    simp [heq] at hk'

namespace Run

variable {pattern : Text} {s e : ScanState} {l : List Segment} {d : Char}

/-- No rule writes a digit in front, so a digit comes next in what is emitted only where it comes
next in the pattern: what is elided without a trace is followed by a quantifier. -/
theorem head_of_isDigit (run : Run Builtin.lookup pattern s l e) (he : e.rest = [])
    (hs : s.scope = .insideClass ∨ s.scope = .outsideClass) (hp : s.position ≠ 0)
    (hd : d.isDigit = true) (h : (Segment.emitted l).head? = some d) : s.rest.head? = some d := by
  have hne : ∀ c : Char, c.isDigit = false → d ≠ c := by
    rintro c hc rfl
    simp [hd] at hc
  cases run with
  | done => simp [Segment.emitted] at h
  | @round _ t _ piece m hstep run =>
    obtain ⟨hrest, hsource, -⟩ := rest_of_step hstep
    obtain ⟨hreads, -⟩ := Builtin.reads_of_step hs hstep
    have hfirst : (piece.output ++ Segment.emitted m).head? = some d := by
      simpa [Segment.emitted] using h
    have hwritten : d ∉ ['(', '[', '\\', 'k'] := by
      simp [hne '(' (by decide), hne '[' (by decide), hne '\\' (by decide), hne 'k' (by decide)]
    rcases hreads.of_head hp hwritten hfirst with hout | ⟨hout, hscope, hq⟩
    · obtain ⟨c, r, hc⟩ := List.exists_cons_of_ne_nil hsource
      rw [hout, hc] at hfirst
      rw [← hrest, hc]
      simpa using hfirst
    · obtain ⟨c, F, hemit, hstop⟩ := run.exists_stop he hscope hq
      obtain rfl : c = d := by simpa [hout, hemit] using hfirst
      have halnum := isAlphanum_of_isStop hstop
      simp [Char.isAlphanum, hd] at halnum

end Run

theorem Builtin.step_of_reference {pattern name rest : Text} {s : ScanState}
    (hs : s.scope = .outsideClass)
    (hrest : s.rest = ['\\', 'k', '<'] ++ name ++ ['>'] ++ rest) (hn : name ≠ [])
    (hc : ∀ c ∈ name, isNameChar c = true) :
    s.step lookup pattern =
      .ok (some (⟨['\\', 'k', '<'] ++ name ++ ['>'], refer name rest s.turn.context, true,
      .outsideClass⟩,
        ⟨s.position + Text.bytes (['\\', 'k', '<'] ++ name ++ ['>']), rest, .outsideClass,
          s.turn⟩)) := by
  obtain ⟨position, _, _, turn⟩ := s
  simp only at hs hrest
  subst hs hrest
  refine step_of_token (by simp) rfl (firing?_reference hn hc) ?_
  rw [ofRecognition_append _ _ _ _ _ _ rfl]
  rfl

/-- A reference to a name that is recorded when the scan comes to it is written with the number of
the first group of that name, with an empty group behind it where a digit comes next in the pattern.
In the rewritten text the number is not followed by a digit, whatever comes after the reference. -/
theorem Registry.number_of_reference {pattern name rest : Text} {flags : Flags} {c : Compiled}
    {l : List Segment} {s : ScanState} (h : Registry.builtin.compile pattern flags = .ok c)
    (run : Run Builtin.lookup pattern (.start pattern ⟨.start flags, false⟩) l s)
    (hs : s.scope = .outsideClass)
    (hrest : s.rest = ['\\', 'k', '<'] ++ name ++ ['>'] ++ rest) (hn : name ≠ [])
    (hc : ∀ c ∈ name, Builtin.isNameChar c = true) (hm : some name ∈ s.turn.context.names) :
    ∃ index t after, (s.turn.context.names[index]? = some (some name) ∧
        ∀ k < index, s.turn.context.names[k]? ≠ some (some name)) ∧
      (1 ≤ index + 1 ∧ index + 1 ≤ s.turn.context.count) ∧
      s.step Builtin.lookup pattern =
        .ok (some (⟨['\\', 'k', '<'] ++ name ++ ['>'], ['\\'] ++ Text.ofNat (index + 1) ++
        (if rest.head?.any Char.isDigit then Builtin.emptyGroup else []), true, .outsideClass⟩,
          t)) ∧
      t.rest = rest ∧
      c.rewritten = Segment.emitted l ++ (['\\'] ++ Text.ofNat (index + 1) ++ after) ∧
      ∀ d ∈ after.head?, d.isDigit = false := by
  obtain ⟨index, hindex, hlt, hfirst⟩ := Context.exists_index hm
  have hstep := @Builtin.step_of_reference pattern name rest s hs hrest hn hc
  have hrefer : Builtin.refer name rest s.turn.context = ['\\'] ++ Text.ofNat (index + 1) ++
      (if rest.head?.any Char.isDigit then Builtin.emptyGroup else []) := by
    rw [Builtin.refer, hindex]
    cases rest <;> rfl
  rw [hrefer] at hstep
  obtain ⟨whole, e, all, he, rfl⟩ := exists_run_of_compile h
  obtain ⟨others, rfl, last⟩ := run.exists_rest all he
  cases last with
  | done => simp [he] at hrest
  | @round _ t _ piece m hstep' last =>
    rw [hstep, Except.ok.injEq, Option.some.injEq, Prod.mk.injEq] at hstep'
    obtain ⟨rfl, rfl⟩ := hstep'
    refine ⟨index, _, (if rest.head?.any Char.isDigit then Builtin.emptyGroup else []) ++
      Segment.emitted m, hfirst,
      ⟨by omega, hlt⟩, hstep, rfl, by simp [Segment.emitted], fun d hd => ?_⟩
    -- a digit that comes next in the pattern has the empty group before it; without one, none comes
    -- next in the output
    by_cases hdigit : rest.head?.any Char.isDigit = true
    · rw [if_pos hdigit] at hd
      obtain rfl : '(' = d := by simpa [Builtin.emptyGroup] using hd
      rfl
    · rw [if_neg hdigit, List.nil_append] at hd
      refine Bool.eq_false_iff.2 fun hd' => hdigit ?_
      have hpos : 0 < Text.bytes (['\\', 'k', '<'] ++ name ++ ['>']) :=
        Text.bytes_pos_of_ne_nil (by simp)
      have hnext := last.head_of_isDigit he (.inr rfl) (by simp only; omega) hd' hd
      simp only at hnext
      simp [hnext, hd']

/-- The second of three groups is the first with its name, and a comment stands between the
reference and a digit. -/
theorem Registry.number_of_reference_comment : ∃ c l s,
    Registry.builtin.compile "()(?<a>)(?<a>)\\k<a>(?#)1".toList .empty = .ok c ∧
    Run Builtin.lookup "()(?<a>)(?<a>)\\k<a>(?#)1".toList
      (.start "()(?<a>)(?<a>)\\k<a>(?#)1".toList ⟨.start .empty, false⟩) l s ∧
    s.rest = "\\k<a>(?#)1".toList ∧ s.turn.context.names = [none, some ['a'], some ['a']] ∧
    c.rewritten = "()()()\\2(?:)1".toList ∧
    ∃ index after, s.turn.context.names[index]? = some (some ['a']) ∧
      index + 1 ≤ s.turn.context.count ∧
      c.rewritten = Segment.emitted l ++ (['\\'] ++ Text.ofNat (index + 1) ++ after) ∧
      ∀ d ∈ after.head?, d.isDigit = false := by
  have hc : Registry.builtin.compile "()(?<a>)(?<a>)\\k<a>(?#)1".toList .empty =
      .ok ⟨"()()()\\2(?:)1".toList,
        ((((Context.start .empty).push none).push (some ['a'])).push (some ['a']))⟩ := by
    rw [Registry.compile_builtin]
    rfl
  have run : Run Builtin.lookup "()(?<a>)(?<a>)\\k<a>(?#)1".toList
      (.start "()(?<a>)(?<a>)\\k<a>(?#)1".toList ⟨.start .empty, false⟩) _ _ :=
    .round rfl (.round rfl (.round rfl (.round rfl (.round rfl (.round rfl (.done _))))))
  obtain ⟨index, t, after, ⟨hname, -⟩, ⟨-, hle⟩, -, -, hrewritten, hdigit⟩ :=
    @number_of_reference _ ['a'] "(?#)1".toList _ _ _ _ hc run rfl rfl (by simp)
      (Text.forall_mem_of_all (by decide)) (.tail _ (.head _))
  exact ⟨_, _, _, hc, run, rfl, rfl, rfl, index, after, hname, hle, hrewritten, hdigit⟩

end RegexDialect
