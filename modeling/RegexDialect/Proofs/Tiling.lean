import RegexDialect.Proofs.Firing
import RegexDialect.Proofs.Run

/-! The scan with any rules. Whatever the recognizers and handlers do, its rounds cut the pattern
into pieces that follow one another, and there are no more rounds than characters. -/
namespace RegexDialect

open ScanState

section Consult

variable {pattern rest : Text} {position : Nat} {scope : Scope} {turn after : Turn} {hit : Hit}

/-- A rule that fires takes a token at the start of the text. -/
theorem Rule.token_of_consult {r : Rule}
    (h : r.consult pattern position rest scope turn = (.ok (some hit), after)) :
    hit.token <+: rest := by
  cases r with
  | builtin b =>
    rw [Rule.consult_builtin] at h
    cases hr : b.recognizeIn rest scope turn.context with
    | none => simp [Builtin.attempt_of_recognizeIn_none hr] at h
    | some found =>
      rw [Builtin.attempt_of_recognizeIn hr] at h
      rcases hh : b.handle (Token.ofRecognition pattern position rest scope found) turn.context with
        ⟨e | output, c⟩
      · simp [hh] at h
      · simp only [hh, Prod.mk.injEq, Except.ok.injEq, Option.some.injEq] at h
        obtain ⟨rfl, -⟩ := h
        exact List.take_prefix _ _
  | custom source recognize handler here activation =>
    rw [Rule.consult] at h
    split at h
    · split at h
      · simp at h
      · split at h
        · simp at h
        · simp at h
        · simp only at h
          split at h
          · simp only [Prod.mk.injEq, Except.ok.injEq, Option.some.injEq] at h
            obtain ⟨rfl, -⟩ := h
            exact List.take_prefix _ _
          · simp at h
    · simp at h

theorem Rule.token_of_consultAll {rules : List Rule}
    (h : Rule.consultAll rules pattern position rest scope turn = (.ok (some hit), after)) :
      hit.token <+: rest := by
  induction rules generalizing turn with
  | nil =>
    rw [Rule.consultAll_nil] at h
    simp at h
  | cons r rules ih =>
    rcases hr : r.consult pattern position rest scope turn with ⟨e | _ | found, t⟩
    · rw [Rule.consultAll_cons_of_ne hr (by simp)] at h
      simp at h
    · rw [Rule.consultAll_cons_of_none hr] at h
      exact ih h
    · rw [Rule.consultAll_cons_of_ne hr (by simp)] at h
      simp only [Prod.mk.injEq, Except.ok.injEq, Option.some.injEq] at h
      obtain ⟨rfl, -⟩ := h
      exact token_of_consult hr

theorem Registry.token_of_lookup {r : Registry}
    (h : r.lookup pattern position rest scope turn = (.ok (some hit), after)) :
      hit.token <+: rest := by
  rw [lookup] at h
  rcases hc :
    Rule.consultAll r.rules pattern position rest scope { turn with inHandler :=
      true } with ⟨answer, t⟩
  simp only [hc, Prod.mk.injEq] at h
  exact Rule.token_of_consultAll (by rw [hc, h.1])

@[simp] theorem Registry.lookup_empty :
    Registry.empty.lookup pattern position rest scope turn = (.ok none, turn) := by
  rw [lookup, empty, Rule.consultAll_nil]

end Consult

/-- The piece that a round makes, by the answer of the rules: the token and the output of the rule
that fires, one character for a token without any, or else what is copied. -/
inductive ScanState.Yields (r : Registry) (pattern : Text) (s : ScanState) : Segment → Prop
  | token {hit : Hit} {turn : Turn}
    (h : r.lookup pattern s.position s.rest s.scope s.turn = (.ok (some hit), turn))
      (hn : hit.token ≠ []) : Yields r pattern s ⟨hit.token, hit.output, true, s.scope⟩
  | emptyToken {hit : Hit} {turn : Turn} {c : Char} {rest : Text} (hr : s.rest = c :: rest)
      (h : r.lookup pattern s.position s.rest s.scope s.turn = (.ok (some hit), turn))
      (hn : hit.token = []) :
      Yields r pattern s ⟨[c], hit.output, true, s.scope⟩
  | copied {source : Text} {turn : Turn}
    (h : r.lookup pattern s.position s.rest s.scope s.turn = (.ok none, turn))
      (hl : source.length = max 1 (BaselineToken.length s.scope s.rest)) :
      Yields r pattern s ⟨source, source, false, s.scope⟩

section Step

variable {r : Registry} {lookup : Lookup} {pattern : Text} {s t : ScanState} {piece : Segment}
  {l : List Segment}

theorem ScanState.yields_of_step (h : s.step r.lookup pattern = .ok (some (piece, t))) :
    s.Yields r pattern piece := by
  obtain ⟨c, rest, hr⟩ := List.exists_cons_of_ne_nil (l := s.rest) (by
    intro hnil
    simp [step, hnil] at h)
  rcases ha : r.lookup pattern s.position s.rest s.scope s.turn with ⟨e | _ | hit, turn⟩
  · rw [step_of_error (by simp [hr]) ha] at h
    simp at h
  · have hle := BaselineToken.length_le s.scope s.rest
    by_cases hn : BaselineToken.length s.scope s.rest = 0
    · rw [step_of_char hr hn ha] at h
      simp only [Except.ok.injEq, Option.some.injEq, Prod.mk.injEq] at h
      obtain ⟨rfl, -⟩ := h
      exact .copied ha (by simp [hn])
    · rw [step_of_unit hn (by simp [hr]) ha] at h
      simp only [Except.ok.injEq, Option.some.injEq, Prod.mk.injEq] at h
      obtain ⟨rfl, -⟩ := h
      refine .copied ha ?_
      rw [List.length_take]
      omega
  · rw [step_of_hit (by simp [hr]) ha] at h
    simp only [Except.ok.injEq, Option.some.injEq, Prod.mk.injEq] at h
    obtain ⟨rfl, -⟩ := h
    by_cases hn : hit.token = []
    · have htake : s.rest.take (max 1 hit.token.length) = [c] := by simp [hn, hr]
      rw [htake]
      exact .emptyToken hr ha hn
    · have hpos := List.length_pos_iff.2 hn
      have htake : s.rest.take (max 1 hit.token.length) = hit.token := by
        rw [Nat.max_eq_right hpos]
        exact (List.prefix_iff_eq_take.1 (Registry.token_of_lookup ha)).symm
      rw [htake]
      exact .token ha hn

/-- A round that fails has the error of the rules. -/
theorem ScanState.lookup_of_step_error {e : Error} {turn : Turn}
    (h : s.step lookup pattern = .error (e, turn)) :
    s.rest ≠ [] ∧ lookup pattern s.position s.rest s.scope s.turn = (.error e, turn) := by
  have hn : s.rest ≠ [] := by
    intro hnil
    simp [step, hnil] at h
  refine ⟨hn, ?_⟩
  rcases ha : lookup pattern s.position s.rest s.scope s.turn with ⟨f | _ | hit, after⟩
  · rw [step_of_error hn ha] at h
    simp only [Except.error.injEq, Prod.mk.injEq] at h
    obtain ⟨rfl, rfl⟩ := h
    rfl
  · obtain ⟨c, rest, hr⟩ := List.exists_cons_of_ne_nil hn
    by_cases hl : BaselineToken.length s.scope s.rest = 0
    · rw [step_of_char hr hl ha] at h
      simp at h
    · rw [step_of_unit hl hn ha] at h
      simp at h
  · rw [step_of_hit hn ha] at h
    simp at h

namespace Run

theorem length_le (run : Run lookup pattern s l t) : l.length + t.rest.length ≤ s.rest.length := by
  induction run with
  | done => simp
  | round h _ ih =>
    have := length_of_step h
    rw [List.length_cons]
    omega

theorem position_eq (run : Run lookup pattern s l t) :
    t.position = s.position + Text.bytes (l.flatMap Segment.source) := by
  induction run with
  | done => simp
  | round h _ ih =>
    rw [ih, (rest_of_step h).2.2.1, List.flatMap_cons, Text.bytes_append, Nat.add_assoc]

theorem exists_last (lookup : Lookup) (pattern : Text) (s : ScanState) :
    ∃ l t, Run lookup pattern s l t ∧ ((t.rest = [] ∧ s.scan lookup pattern = (.ok l, t.turn)) ∨
      ∃ e turn, t.step lookup pattern = .error (e, turn) ∧ s.scan lookup pattern =
        (.error e, turn)) := by
  induction hn : s.rest.length using Nat.strongRecOn generalizing s with
  | ind n ih =>
    cases hs : s.step lookup pattern with
    | error p => exact ⟨[], s, .done s, .inr ⟨p.1, p.2, hs, scan_of_error hs⟩⟩
    | ok o =>
      cases o with
      | none =>
        have hr : s.rest = [] := Decidable.byContradiction fun hr => step_ne_none hr hs
        exact ⟨[], s, .done s, .inl ⟨hr, scan_nil hr⟩⟩
      | some p =>
        obtain ⟨piece, u⟩ := p
        obtain ⟨l, t, run, hend⟩ := ih _ (hn ▸ length_of_step hs) u rfl
        refine ⟨piece :: l, t, .round hs run, ?_⟩
        rw [scan_of_step hs]
        rcases hend with ⟨ht, hscan⟩ | ⟨e, turn, hstep, hscan⟩
        · exact .inl ⟨ht, by rw [hscan]; rfl⟩
        · exact .inr ⟨e, turn, hstep, by rw [hscan]; rfl⟩

theorem of_empty (run : Run Registry.empty.lookup pattern s l t) :
    Segment.emitted l = l.flatMap Segment.source ∧ t.turn = s.turn := by
  induction run with
  | done => exact ⟨rfl, rfl⟩
  | @round s u t piece l h _ ih =>
    have hn : s.rest ≠ [] := by
      intro hnil
      simp [step, hnil] at h
    obtain ⟨c, rest, hr⟩ := List.exists_cons_of_ne_nil hn
    have copied : piece.output = piece.source ∧ u.turn = s.turn := by
      by_cases hl : BaselineToken.length s.scope s.rest = 0
      · rw [step_of_char hr hl Registry.lookup_empty] at h
        simp only [Except.ok.injEq, Option.some.injEq, Prod.mk.injEq] at h
        obtain ⟨rfl, rfl⟩ := h
        exact ⟨rfl, rfl⟩
      · rw [step_of_unit hl hn Registry.lookup_empty] at h
        simp only [Except.ok.injEq, Option.some.injEq, Prod.mk.injEq] at h
        obtain ⟨rfl, rfl⟩ := h
        exact ⟨rfl, rfl⟩
    refine ⟨?_, ih.2.trans copied.2⟩
    rw [Segment.emitted, List.flatMap_cons, List.flatMap_cons, copied.1, ← ih.1]
    rfl

end Run

end Step

theorem Registry.compile_eq (r : Registry) (pattern : Text) (flags : Flags) :
    r.compile pattern flags =
    match (ScanState.start pattern ⟨.start flags, false⟩).scan r.lookup pattern with
    | (.ok pieces, turn) => .ok ⟨Segment.emitted pieces, turn.context⟩
    | (.error e, _) => .error e := by
  rw [scan_start, compile, compileIn, compileWith]
  rcases scan r.lookup pattern ⟨.start flags, false⟩ with ⟨_ | _, _⟩ <;> rfl

theorem Registry.compile_empty (pattern : Text) (flags : Flags) :
    Registry.empty.compile pattern flags = .ok ⟨pattern, .start flags⟩ := by
  obtain ⟨l, t, run, ⟨ht, hscan⟩ | ⟨e, turn, hstep, -⟩⟩ :=
    Run.exists_last Registry.empty.lookup pattern (.start pattern ⟨.start flags, false⟩)
  · obtain ⟨hemitted, hturn⟩ := run.of_empty
    have hsources := run.sources
    rw [ht, List.append_nil] at hsources
    rw [compile_eq, hscan]
    simp only [hemitted, hsources, hturn]
    rfl
  · exact absurd (lookup_of_step_error hstep).2 (by simp)

/-- The scan with any rules tiles the pattern. It ends, after at most as many rounds as the pattern
has characters, with nothing left or with an error of the rules, and a compilation is what the
rounds emit. At every round the place is a boundary, the pieces so far are what stands before it,
and the next piece is the token of the rule that fires, with the output of that rule, or is copied.
Without rules every pattern is left as it is. -/
theorem Registry.scan_tiles (r : Registry) (pattern : Text) (flags : Flags) :
    (∃ l s, Run r.lookup pattern (.start pattern ⟨.start flags, false⟩) l s ∧
      ((s.rest = [] ∧ l.length ≤ pattern.length ∧
          r.compile pattern flags = .ok ⟨l.flatMap Segment.output, s.turn.context⟩) ∨
        ∃ e turn, r.lookup pattern s.position s.rest s.scope s.turn = (.error e, turn) ∧
          l.length + 1 ≤ pattern.length ∧ r.compile pattern flags = .error e)) ∧
    (∀ l s, Run r.lookup pattern (.start pattern ⟨.start flags, false⟩) l s →
      l.flatMap Segment.source ++ s.rest = pattern ∧
        s.position = Text.bytes (l.flatMap Segment.source) ∧
      Text.isBoundary pattern s.position = true ∧ s.position ≤ Text.bytes pattern ∧
      ∀ piece t, s.step r.lookup pattern = .ok (some (piece, t)) →
        s.Yields r pattern piece ∧ piece.source ≠ [] ∧ piece.source ++ t.rest = s.rest) ∧
    Registry.empty.compile pattern flags = .ok ⟨pattern, .start flags⟩ := by
  refine ⟨?_, fun l s run => ?_, compile_empty pattern flags⟩
  · obtain ⟨l, s, run, hend⟩ :=
      Run.exists_last r.lookup pattern (.start pattern ⟨.start flags, false⟩)
    have hlength : l.length + s.rest.length ≤ pattern.length := run.length_le
    refine ⟨l, s, run, ?_⟩
    rw [compile_eq]
    rcases hend with ⟨hs, hscan⟩ | ⟨e, turn, hstep, hscan⟩
    · exact .inl ⟨hs, by omega, by rw [hscan]; rfl⟩
    · obtain ⟨hn, hlookup⟩ := lookup_of_step_error hstep
      have hpos := List.length_pos_iff.2 hn
      exact .inr ⟨e, turn, hlookup, by omega, by rw [hscan]⟩
  · have hsources : l.flatMap Segment.source ++ s.rest = pattern := run.sources
    have hposition : s.position = Text.bytes (l.flatMap Segment.source) := by
      simpa [ScanState.start] using run.position_eq
    have hbytes := congrArg Text.bytes hsources
    rw [Text.bytes_append] at hbytes
    refine ⟨hsources, hposition, ?_, by omega, fun piece t hstep => ?_⟩
    · exact Text.isBoundary_iff.2 ⟨_, _, hsources.symm, hposition.symm⟩
    · obtain ⟨hrest, hn, -⟩ := rest_of_step hstep
      exact ⟨yields_of_step hstep, hn, hrest⟩

/-- A rule for the empty text in front of a `z`, with a `Z` as its output. -/
def Rule.beforeZ : Rule :=
  .custom "(?=z)".toList
    (fun rest => .ok (if rest.head? = some 'z' then some ⟨0, [some []]⟩ else none))
    (fun _ => .done ['Z']) .outsideClass none

/-- A token without characters takes the place of the character behind it. -/
theorem Registry.scan_tiles_beforeZ : ∃ l s,
    Run (Registry.empty.register .beforeZ).lookup ['a', 'z', 'b']
      (.start ['a', 'z', 'b'] ⟨.start .empty, false⟩) l s ∧
    l.length ≤ 3 ∧ l.flatMap Segment.source = ['a', 'z', 'b'] ∧ l.flatMap Segment.output =
      ['a', 'Z', 'b'] := by
  have hc : (Registry.empty.register .beforeZ).compile ['a', 'z', 'b'] .empty =
      .ok ⟨['a', 'Z', 'b'], .start .empty⟩ :=
    rfl
  obtain ⟨⟨l, s, run, hend⟩, htiles, -⟩ :=
    scan_tiles (Registry.empty.register .beforeZ) ['a', 'z', 'b'] .empty
  rcases hend with ⟨hs, hlength, hcompile⟩ | ⟨e, turn, -, -, hcompile⟩
  · rw [hc, Except.ok.injEq, Compiled.mk.injEq] at hcompile
    refine ⟨l, s, run, hlength, ?_, hcompile.1.symm⟩
    simpa [hs] using (htiles l s run).1
  · rw [hc] at hcompile
    exact absurd hcompile (by simp)

end RegexDialect
