import RegexDialect.Proofs.RoundMarks

/-! The escapes of the text that the scan emits. They are those that the rounds emit one by one: no
escape begins inside what one round emits and ends behind it, but for dull characters that it may
take. -/
namespace RegexDialect

namespace Baseline

open BaselineToken

/-- The escapes of a text in order, each with the scope it is in and all that follows it; the first
`skip` characters belong to the escape before them. -/
def escapes : Scope → (skip : Nat) → Text → List (Scope × Text)
  | _, _, [] => []
  | scope, skip + 1, _ :: r => escapes scope skip r
  | scope, 0, c :: r =>
    match escapeLength scope (c :: r) with
    | 0 => escapes (scopeBehind scope c) 0 r
    | n + 1 => (scope, c :: r) :: escapes scope n r

variable {scope : Scope} {c : Char} {a t u v : Text} {k : Nat}

@[simp] theorem escapes_nil (scope : Scope) (skip : Nat) : escapes scope skip [] = [] := by
  cases skip <;> rfl

theorem escapes_bare (h : escapeLength scope (c :: t) = 0) :
    escapes scope 0 (c :: t) = escapes (scopeBehind scope c) 0 t := by
  rw [escapes, h]

theorem escapes_plain (h : ∀ d ∈ a, d ≠ '\\' ∧ scopeBehind scope d = scope) (t : Text) :
    escapes scope 0 (a ++ t) = escapes scope 0 t := by
  induction a with
  | nil => rfl
  | cons d a ih =>
    obtain ⟨hd, hs⟩ := h d (by simp)
    rw [List.cons_append, escapes_bare (escapeLength_of_ne hd _), hs, ih fun e he =>
      h e (by simp [he])]

theorem escapes_skip (scope : Scope) (a t : Text) :
    escapes scope a.length (a ++ t) = escapes scope 0 t := by
  induction a with
  | nil => rfl
  | cons d a ih => simp [escapes, ih]

theorem escapes_dull (h : ∀ d ∈ t.take k, isDull d = true) :
    escapes scope k t = escapes scope 0 t := by
  induction t generalizing k with
  | nil => simp
  | cons d t ih =>
    cases k with
    | zero => rfl
    | succ k =>
      obtain ⟨hne, hscope⟩ := @Peel.plain_of_isDull scope d (h d (by simp))
      rw [escapes, escapes_bare (escapeLength_of_ne hne t), hscope]
      exact ih fun e he => h e (by simp [he])

/-- Behind an escape of the source the escapes are those of what is emitted after it. -/
theorem escapes_escape (hs : scope = .insideClass ∨ scope = .outsideClass)
    (h : Tail c (a ++ u) a.length) (hv : Trails u v) : escapes scope 0 ('\\' :: c :: (a ++ v)) =
      (scope, '\\' :: c :: (a ++ v)) :: escapes scope 0 v := by
  obtain ⟨k, hk, htake⟩ := escapeLength_append hs h hv
  have hstep : escapes scope 0 ('\\' :: c :: (a ++ v)) =
      (scope, '\\' :: c :: (a ++ v)) :: escapes scope k (a ++ v) := by
    simp only [escapes, hk]
  rw [hstep]
  rcases htake with rfl | ⟨ha, htake⟩
  · rw [escapes_skip]
  · rw [escapes_dull htake, escapes_plain fun d hd => Peel.plain_of_isDull (ha d hd)]

theorem escapes_letter (hs : scope = .insideClass ∨ scope = .outsideClass) (hp : c ≠ 'p')
    (hP : c ≠ 'P') (v : Text) :
    escapes scope 0 ('\\' :: c :: v) = (scope, '\\' :: c :: v) :: escapes scope 0 v :=
  @escapes_escape scope c [] v v hs (tail_zero (opensName_of_ne hp hP v)) (Trails.refl v)

end Baseline

namespace Builtin

open Baseline BaselineToken

variable {position : Nat} {context c : Context} {scope after : Scope}
  {source rest output E a : Text}

theorem escapes_outer (h : ∀ d ∈ a, d ≠ '\\' ∧ d ≠ '[') (E : Text) :
    escapes .outsideClass 0 (a ++ E) = escapes .outsideClass 0 E := by
  have hne : Scope.outsideClass ≠ .insideClass := by decide
  exact escapes_plain (fun d hd => ⟨(h d hd).1, by simp [scopeBehind, (h d hd).2, hne]⟩) E

/-- An escape in what a round emits: one that does not read on when more is emitted, or one that is
copied. -/
def Own (scope : Scope) (source rest E : Text) (e : Scope × Text) : Prop :=
  ∃ d a, e.2 = '\\' :: d :: (a ++ E) ∧ (d ∉ ['p', 'P', 'x'] ∨
    e.1 = scope ∧ source = '\\' :: d :: a ∧ Tail d (a ++ rest) a.length)

/-- A reference is written as an escaped number and no other escape, or as plain text. -/
theorem refer_cases (rest : Text) (context : Context) {name : Text}
    (hc : ∀ d ∈ name, isNameChar d = true) :
    (∃ d a, refer name rest context = '\\' :: d :: a ∧ d.isDigit = true ∧
      ∀ e ∈ a, e ≠ '\\' ∧ e ≠ '[') ∨ ∀ e ∈ refer name rest context, e ≠ '\\' ∧ e ≠ '[' := by
  rcases refer_shapes name rest context with ⟨d, ds, a, hrefer, hdigit, ha⟩ | hrefer
  · refine .inl ⟨d, ds ++ a, hrefer, hdigit d (by simp), fun e he => ?_⟩
    rcases List.mem_append.1 he with he | he
    · have h := hdigit e (by simp [he])
      exact ⟨Text.ne_of_test h (by decide), Text.ne_of_test h (by decide)⟩
    · rcases ha with rfl | rfl
      · exact absurd he (by simp)
      · exact Text.forall_mem_of_all (p := fun e => e ≠ '\\' ∧ e ≠ '[') (by decide) e he
  · right
    intro e he
    simp only [hrefer, List.mem_append, List.mem_cons, List.not_mem_nil, or_false] at he
    rcases he with ((rfl | rfl) | he) | rfl
    · decide
    · decide
    · exact ⟨Text.ne_of_test (hc e he) (by decide), Text.ne_of_test (hc e he) (by decide)⟩
    · decide

theorem escapes_letters (hs : scope = .insideClass ∨ scope = .outsideClass)
    (h : ∀ d ∈ a, d ∉ ['p', 'P', 'x']) :
    ∃ new, escapes scope 0 ((a.flatMap fun d => ['\\', d]) ++ E) = new ++ escapes scope 0 E ∧
      ∀ e ∈ new, Own scope source rest E e := by
  induction a with
  | nil => exact ⟨[], rfl, by simp⟩
  | cons d a ih =>
    obtain ⟨new, hnew, hown⟩ := ih fun e he => h e (by simp [he])
    have hd := h d (by simp)
    obtain ⟨hp, hP, -⟩ : d ≠ 'p' ∧ d ≠ 'P' ∧ d ≠ 'x' := by simpa using hd
    refine ⟨(scope, '\\' :: d :: ((a.flatMap fun d => ['\\', d]) ++ E)) :: new, ?_, fun e he => ?_⟩
    · exact (escapes_letter hs hp hP _).trans (congrArg _ hnew)
    · rcases List.mem_cons.1 he with rfl | he
      · exact ⟨d, a.flatMap fun d => ['\\', d], rfl, .inl hd⟩
      · exact hown e he

/-- The escapes that a round adds to those of what is emitted behind it. -/
theorem Reads.escapes (h : Reads position context scope source rest output after c)
    (hs : scope = .insideClass ∨ scope = .outsideClass) (hE : Trails rest E) :
    ∃ new, Baseline.escapes scope 0 (output ++ E) = new ++ Baseline.escapes after 0 E ∧
      ∀ e ∈ new, Own scope source rest E e := by
  have plain : ∀ {a : Text}, (∀ d ∈ a, d ≠ '\\' ∧ d ≠ '[') → ∃ new,
      Baseline.escapes .outsideClass 0 (a ++ E) = new ++ Baseline.escapes .outsideClass 0 E ∧
        ∀ e ∈ new, Own .outsideClass source rest E e := fun h => ⟨[], escapes_outer h E, by simp⟩
  have one : ∀ d (a : Text), d ∉ ['p', 'P', 'x'] → (∀ e ∈ a, e ≠ '\\' ∧ e ≠ '[') → ∃ new,
      Baseline.escapes .outsideClass 0 ('\\' :: d :: a ++ E) =
        new ++ Baseline.escapes .outsideClass 0 E ∧
        ∀ e ∈ new, Own .outsideClass source rest E e := by
    intro d a hd ha
    have hletter := hd
    simp only [List.mem_cons, List.not_mem_nil, or_false, not_or] at hletter
    refine ⟨[(.outsideClass, '\\' :: d :: (a ++ E))], ?_, fun e he => ?_⟩
    · have first := escapes_letter (.inr rfl) hletter.1 hletter.2.1 (a ++ E)
      rwa [escapes_outer ha E] at first
    · obtain rfl := List.mem_singleton.1 he
      exact ⟨d, a, rfl, .inl hd⟩
  cases h with
  | dot | anyCharacter =>
    refine ⟨[(.insideClass, "\\s\\S]".toList ++ E), (.insideClass, "\\S]".toList ++ E)], rfl,
      fun e he => ?_⟩
    simp only [List.mem_cons, List.not_mem_nil, or_false] at he
    rcases he with rfl | rfl
    · exact ⟨'s', "\\S]".toList, rfl, .inl (by decide)⟩
    · exact ⟨'S', [']'], rfl, .inl (by decide)⟩
  | spacing | comment =>
    rw [separator]
    split
    · exact ⟨[], rfl, by simp⟩
    · exact plain (Text.forall_mem_of_all (by decide))
  | leadingModifier => exact ⟨[], rfl, by simp⟩
  | laterModifier hn hl hp =>
    exact plain (forall_mem_modifier hl (Text.forall_mem_of_all (by decide)))
  | noCharacter =>
    exact @escapes_letters .outsideClass _ rest E ['b', 'B'] hs (Text.forall_mem_of_all (by decide))
  | @reference name _ hn hc =>
    rcases refer_cases rest context hc with ⟨d, a, hr, hd, ha⟩ | ha
    · have hletter : d ∉ ['p', 'P', 'x'] := by
        intro hm
        simp only [List.mem_cons, List.not_mem_nil, or_false] at hm
        rcases hm with rfl | rfl | rfl <;> exact absurd hd (by decide)
      rw [hr]
      exact one d a hletter ha
    · exact plain ha
  | named | special | uncaptured | group => exact plain (Text.forall_mem_of_all (by decide))
  | sign hsign =>
    refine escapes_letters hs ?_
    rcases hsign with rfl | rfl | rfl <;> exact Text.forall_mem_of_all (by decide)
  | unit hr hn hl =>
    rcases unit_cases hs hn hl with ⟨d, a, rfl, htail⟩ | ⟨rfl, hplain⟩
    · refine ⟨[(scope, '\\' :: d :: (a ++ E))], escapes_escape hs htail hE, fun e he => ?_⟩
      obtain rfl := List.mem_singleton.1 he
      exact ⟨d, a, rfl, .inr ⟨rfl, rfl, htail⟩⟩
    · exact plain fun e he => ⟨(hplain e he).1, (hplain e he).2.1⟩
  | @char _ d _ hr hl =>
    refine ⟨[], ?_, by simp⟩
    rw [← scopeBehind_eq_after hs, List.singleton_append]
    exact escapes_bare (escapeLength_char hs hl hE)

theorem Reads.scope_of_nil (h : Reads position context scope source rest [] after c) :
    after = scope := by
  generalize hout : [] = output at h
  cases h with
  | unit | dot | spacing | leadingModifier | laterModifier | noCharacter | anyCharacter | reference
    | named | comment | special | uncaptured | group | sign => rfl
  | char => exact absurd hout (by simp)

end Builtin

open Baseline BaselineToken

theorem Baseline.length_le_of_mem_escapes {scope : Scope} {skip : Nat} {t : Text} {e : Scope × Text}
    (h : e ∈ escapes scope skip t) : e.2.length ≤ t.length := by
  induction t generalizing scope skip with
  | nil => simp at h
  | cons c t ih =>
    cases skip with
    | succ skip => exact Nat.le_succ_of_le (ih h)
    | zero =>
      rw [escapes] at h
      split at h
      · exact Nat.le_succ_of_le (ih h)
      · rcases List.mem_cons.1 h with rfl | h
        · exact Nat.le_refl _
        · exact Nat.le_succ_of_le (ih h)

namespace Run

variable {pattern u : Text} {s t e : ScanState} {k l m : List Segment} {scope : Scope}

theorem scope_of_emitted_nil (run : Run Builtin.lookup pattern s l t)
    (hs : s.scope = .insideClass ∨ s.scope = .outsideClass) (h : Segment.emitted l = []) :
      t.scope = s.scope := by
  induction run with
  | done => rfl
  | @round s s' t piece l hstep run ih =>
    obtain ⟨hreads, -⟩ := Builtin.reads_of_step hs hstep
    obtain ⟨hout, hrest⟩ : piece.output = [] ∧ Segment.emitted l = [] := by
      simpa [Segment.emitted] using h
    rw [hout] at hreads
    rw [ih (hreads.scope_after hs) hrest, hreads.scope_of_nil]

/-- A name of a property that the pattern does not close, and what is emitted neither, is not closed
later. -/
theorem not_mem_of_unclosed (run : Run Builtin.lookup pattern s l t)
    (hs : s.scope = .insideClass ∨ s.scope = .outsideClass) (hp : s.position ≠ 0)
    (h₀ : braced (· != '}') s.rest = 0) (hhead : (Segment.emitted l).head? = some '\x7b')
    (hb : braced (· != '}') (Segment.emitted l) = 0) : '}' ∉ t.rest := by
  have hsources := run.sources
  cases run with
  | done => simp [Segment.emitted] at hhead
  | @round _ s' _ piece l' hstep run =>
    obtain ⟨hrest, hne, -⟩ := rest_of_step hstep
    obtain ⟨hreads, -⟩ := Builtin.reads_of_step hs hstep
    have hfirst : (piece.output ++ Segment.emitted l').head? = some '\x7b' := by
      simpa [Segment.emitted] using hhead
    rcases hreads.of_head hp (by decide) hfirst with hout | ⟨hout, hscope, hq⟩
    · obtain ⟨d, r, hsource⟩ := List.exists_cons_of_ne_nil hne
      obtain rfl : d = '\x7b' := by simpa [Segment.emitted, hout, hsource] using hhead
      rw [← hrest, hsource] at h₀
      have hnot := not_mem_of_braced h₀
      intro hm
      have hmem : '}' ∈ s.rest := by
        rw [← hsources]
        exact List.mem_append_right _ hm
      rw [← hrest, hsource] at hmem
      exact hnot (by simpa using hmem)
    · have hemit : Segment.emitted (piece :: l') = Segment.emitted l' := by
        simp [Segment.emitted, hout]
      rw [hemit] at hhead hb
      obtain ⟨a, u, heq, ha⟩ := run.emitted_of_quantifier hscope hq hhead
      have hclosed : ∀ d ∈ a, (d != '}') = true := by
        intro d hd
        refine bne_iff_ne.2 ?_
        rintro rfl
        exact absurd (ha _ hd) (by decide)
      rw [heq, braced_of_closed hclosed (by decide)] at hb
      exact absurd hb (by simp)

/-- An escape of the text emitted that begins before a place of the scan is complete there, unless
it is the letter of a property or a hexadecimal number, in the scope of that place, or a property
whose name nothing closes. -/
theorem of_mem_escapes (first : Run Builtin.lookup pattern s k t)
    (last : Run Builtin.lookup pattern t m e)
    (hs : s.scope = .insideClass ∨ s.scope = .outsideClass)
    (h : (scope, u ++ Segment.emitted m) ∈ escapes s.scope 0 (Segment.emitted (k ++ m)))
    (hu : u ≠ []) :
    ∃ d a, u = '\\' :: d :: a ∧ (d ∈ ['p', 'P', 'x'] → (a = [] → scope = t.scope) ∧
      (d = 'p' ∨ d = 'P' → a.head? = some '\x7b' → braced (· != '}') a = 0 → '}' ∉ t.rest)) := by
  induction first with
  | done =>
    have hle := length_le_of_mem_escapes h
    have hpos := List.length_pos_iff.2 hu
    simp only [List.nil_append, List.length_append] at hle
    omega
  | @round s s' t piece l hstep run ih =>
    obtain ⟨hrest, hne, hposition, -⟩ := rest_of_step hstep
    obtain ⟨hreads, -⟩ := Builtin.reads_of_step hs hstep
    have hs' := hreads.scope_after hs
    have hpos : s'.position ≠ 0 := by
      have := Text.bytes_pos_of_ne_nil hne
      omega
    obtain ⟨new, hnew, hown⟩ := hreads.escapes hs ((run.append last).trails hs' hpos)
    have hemit : Segment.emitted (piece :: l ++ m) = piece.output ++ Segment.emitted (l ++ m) := by
      simp [Segment.emitted]
    rw [hemit, hnew] at h
    rcases List.mem_append.1 h with h | h
    · obtain ⟨d, a, heq, hd⟩ := hown _ h
      have hl : Segment.emitted (l ++ m) = Segment.emitted l ++ Segment.emitted m := by
        simp [Segment.emitted]
      obtain rfl : u = '\\' :: d :: (a ++ Segment.emitted l) := by
        refine (List.append_left_inj (Segment.emitted m)).1 ?_
        simpa [hl] using heq
      refine ⟨d, _, rfl, fun hwide => ?_⟩
      obtain hd | ⟨hscope, hsource, htail⟩ := hd
      · exact absurd hwide hd
      have hafter := hreads.scopeAfter_eq hs piece.byRule
      rw [hsource] at hafter
      refine ⟨fun hnil => ?_, fun hp hhead hb => ?_⟩
      · rw [run.scope_of_emitted_nil hs' (List.append_eq_nil_iff.1 hnil).2, hafter]
        exact hscope
      · rw [Tail] at htail
        split at htail
        · next hopen =>
          simp only [Place.opensName, Bool.and_eq_true, bne_iff_ne, ne_eq] at hopen
          obtain ⟨name, rfl, hname⟩ := eq_braces_of_length htail.symm hopen.2
          have hclosed := braced_of_closed hname (by decide) (Segment.emitted l)
          simp only [List.cons_append, List.append_assoc, List.nil_append, hclosed] at hb
          exact absurd hb (by simp)
        · next hopen =>
          obtain rfl : a = [] := List.length_eq_zero_iff.1 (htail.2 hp)
          refine run.not_mem_of_unclosed hs' hpos ?_ hhead hb
          rcases hp with rfl | rfl <;> simpa [Place.opensName] using hopen
    · exact ih last hs' h

end Run

end RegexDialect
