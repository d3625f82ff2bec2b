import RegexDialect.Proofs.Marks

/-! What one round of the scan with the built-in rules leaves in the text emitted, as it reads from
left to right. -/
namespace RegexDialect

open Baseline

namespace Builtin

def isSettled (c : Char) : Bool := !Unicode.isBlank c && c != '#' && c != '.'

def Outer (l : List Mark) : Prop :=
  ∀ x ∈ l, x.scope = .outsideClass ∧ (x.escaped = true ∨ x.char ≠ '[' ∧ isSettled x.char = true)

def Inner (l : List Mark) : Prop :=
  ∀ x ∈ l, x.scope = .insideClass ∧ (x.escaped = true ∨ isDull x.char = true)

/-- What a round leaves in the text emitted: characters outside of classes, a class of its own,
escapes in a class, or the character that no rule took. -/
inductive Leaves (context : Context) (source rest : Text) : Scope → List Mark → Scope → Prop
  | outside {new : List Mark} (h : Outer new) :
    Leaves context source rest .outsideClass new .outsideClass
  | anyCharacter :
    Leaves context source rest .outsideClass
      (marks .outsideClass 0 Builtin.anyCharacter) .outsideClass
  | inside {new : List Mark} (hn : new ≠ []) (h : Inner new) :
    Leaves context source rest .insideClass new .insideClass
  | char {scope : Scope} {c : Char} (hs : source = [c])
    (hr : firing? (c :: rest) scope context = none) :
    Leaves context source rest scope [⟨c, scope, false⟩] (scopeBehind scope c)

variable {position : Nat} {context c : Context} {scope after : Scope}
  {source rest output E a : Text}
  {new more : List Mark}

theorem Outer.append (h : Outer new) (h' : Outer more) : Outer (new ++ more) :=
  fun x hx => (List.mem_append.1 hx).elim (h x) (h' x)

theorem Inner.append (h : Inner new) (h' : Inner more) : Inner (new ++ more) :=
  fun x hx => (List.mem_append.1 hx).elim (h x) (h' x)

theorem isBlank_of_test {p : Char → Bool} (hp : ∀ d, BaselineToken.isStop d = true → p d = false)
    {d : Char} (h : p d = true) : Unicode.isBlank d = false := by
  cases hd : Unicode.isBlank d with
  | false => rfl
  | true =>
    rw [hp d (by simp [BaselineToken.isStop, hd])] at h
    exact absurd h (by simp)

theorem isSettled_of_isNameChar {d : Char} (h : isNameChar d = true) : isSettled d = true := by
  have hne : ∀ e : Char, isNameChar e = false → d ≠ e := by
    rintro e he rfl
    simp [h] at he
  simp [isSettled, isBlank_of_test (fun _ => BaselineToken.isNameChar_of_isStop) h,
    hne '#' (by decide), hne '.' (by decide)]

theorem isSettled_of_isDull {d : Char} (h : isDull d = true) : isSettled d = true := by
  have hblank : Unicode.isBlank d = false := by
    by_cases ha : d.isAlphanum = true
    · exact isBlank_of_test (fun _ => BaselineToken.isAlphanum_of_isStop) ha
    · simp only [isDull, BaselineToken.isTail, BaselineToken.isQuantifierSign,
        BaselineToken.isRepeatSign, Bool.or_eq_true, beq_iff_eq, ha] at h
      have hdigit : ¬d.isDigit = true := fun hd => ha (by simp [Char.isAlphanum, hd])
      simp only [hdigit, Bool.false_eq_true, false_or, or_false] at h
      rcases h with (rfl | rfl) | (((((rfl | rfl) | rfl) | rfl) | rfl) | rfl) <;> decide
  simp [isSettled, hblank, ne_of_isDull h (show isDull '#' = false by decide),
    ne_of_isDull h (show isDull '.' = false by decide)]

theorem outer_of_isDull
    (h : ∀ x ∈ new, x.scope = .outsideClass ∧ (x.escaped = true ∨ isDull x.char = true)) :
    Outer new := fun x hx => by
  obtain ⟨hs, he⟩ := h x hx
  exact ⟨hs, he.imp_right fun hd => ⟨ne_of_isDull hd (by decide), isSettled_of_isDull hd⟩⟩

theorem outer_plain (h : ∀ d ∈ a, d ≠ '\\' ∧ d ≠ '[' ∧ isSettled d = true) (E : Text) :
    ∃ new, Peel .outsideClass (a ++ E) new .outsideClass E ∧ Outer new := by
  have hne : Scope.outsideClass ≠ .insideClass := by decide
  refine ⟨_, .plain (fun d hd => ⟨(h d hd).1, by simp [scopeBehind, (h d hd).2.1, hne]⟩) E,
    fun x hx => ?_⟩
  obtain ⟨d, hd, rfl⟩ := List.mem_map.1 hx
  exact ⟨rfl, .inr ⟨(h d hd).2.1, (h d hd).2.2⟩⟩

theorem outer_letter {d : Char} (hp : d ≠ 'p') (hP : d ≠ 'P') (E : Text) :
    ∃ new, Peel .outsideClass ('\\' :: d :: E) new .outsideClass E ∧ Outer new := by
  refine ⟨_, .letter (.inr rfl) hp hP E, fun x hx => ?_⟩
  simp only [List.mem_cons, List.not_mem_nil, or_false] at hx
  rcases hx with rfl | rfl <;> exact ⟨rfl, .inl rfl⟩

theorem outer_emptyGroup (E : Text) :
    ∃ new, Peel .outsideClass (emptyGroup ++ E) new .outsideClass E ∧ Outer new :=
  outer_plain (Text.forall_mem_of_all (by decide)) E

theorem outer_separator (rest E : Text) :
    ∃ new, Peel .outsideClass (separator rest ++ E) new .outsideClass E ∧ Outer new := by
  rw [separator]
  split
  · exact ⟨[], .nothing _ E, by simp [Outer]⟩
  · exact outer_emptyGroup E

theorem outer_noCharacter (E : Text) :
    ∃ new, Peel .outsideClass (noCharacter ++ E) new .outsideClass E ∧ Outer new := by
  obtain ⟨new, hnew, ho⟩ := @outer_letter 'b' (by decide) (by decide) ('\\' :: 'B' :: E)
  obtain ⟨more, hmore, ho'⟩ := @outer_letter 'B' (by decide) (by decide) E
  exact ⟨new ++ more, hnew.trans hmore, ho.append ho'⟩

theorem outer_refer (name rest : Text) (context : Context) (hc : ∀ d ∈ name, isNameChar d = true)
    (E : Text) :
    ∃ new, Peel .outsideClass (refer name rest context ++ E) new .outsideClass E ∧ Outer new := by
  rcases refer_shapes name rest context with ⟨d, ds, a, hrefer, hdigit, ha⟩ | hrefer
  · have hd : d.isDigit = true := hdigit d (by simp)
    have htail : ∀ e ∈ ds, e ≠ '\\' ∧ e ≠ '[' ∧ isSettled e = true := fun e he => by
      have h := isDull_of_isTail (BaselineToken.isTail_of_isDigit (hdigit e (by simp [he])))
      exact ⟨ne_of_isDull h (by decide), ne_of_isDull h (by decide), isSettled_of_isDull h⟩
    have number : ∀ v, ∃ new, Peel .outsideClass ('\\' :: d :: ds ++ v) new .outsideClass v ∧
        Outer new := fun v => by
      obtain ⟨new, hnew, ho⟩ :=
        outer_letter (Text.ne_of_test hd (by decide)) (Text.ne_of_test hd (by decide)) (ds ++ v)
      obtain ⟨more, hmore, ho'⟩ := outer_plain htail v
      exact ⟨new ++ more, hnew.trans hmore, ho.append ho'⟩
    rw [hrefer, List.append_assoc]
    rcases ha with rfl | rfl
    · exact number E
    · obtain ⟨new, hnew, ho⟩ := number (emptyGroup ++ E)
      obtain ⟨more, hmore, ho'⟩ := outer_emptyGroup E
      exact ⟨new ++ more, hnew.trans hmore, ho.append ho'⟩
  · have hall : ∀ d ∈ ['k', '<'] ++ name ++ ['>'], d ≠ '\\' ∧ d ≠ '[' ∧ isSettled d = true := by
      intro d hd
      simp only [List.mem_append, List.mem_cons, List.not_mem_nil, or_false] at hd
      rcases hd with ((rfl | rfl) | hd) | rfl
      · decide
      · decide
      · have hn := hc d hd
        exact ⟨Text.ne_of_test hn (by decide), Text.ne_of_test hn (by decide),
          isSettled_of_isNameChar hn⟩
      · decide
    rw [hrefer]
    exact outer_plain hall E

theorem escapeLength_single (scope : Scope) (hs : scope = .insideClass ∨ scope = .outsideClass)
    (d : Char) :
    escapeLength scope [d] = 0 := by
  by_cases hd : d = '\\'
  · subst hd
    rcases hs with rfl | rfl <;> decide
  · exact escapeLength_of_ne hd []

/-- A character that no rule took and that begins no unit is no escape in front of what is emitted
behind it. -/
theorem escapeLength_char {d : Char} (hs : scope = .insideClass ∨ scope = .outsideClass)
    (hl : BaselineToken.length scope (d :: rest) = 0) (hE : Trails rest E) :
      escapeLength scope (d :: E) = 0 := by
  by_cases hd : d = '\\'
  · subst hd
    have hrest : rest = [] := by
      rcases hs with rfl | rfl
      · exact eq_nil_of_inClass (by simpa using hl)
      · exact eq_nil_of_outside (by simpa using hl)
    rw [hE.nil hrest]
    exact escapeLength_single scope hs _
  · exact escapeLength_of_ne hd E

theorem peel_char {d : Char} (hs : scope = .insideClass ∨ scope = .outsideClass)
    (hl : BaselineToken.length scope (d :: rest) = 0) (hE : Trails rest E) :
    Peel scope (d :: E) [⟨d, scope, false⟩] (scopeBehind scope d) E := .bare
      (escapeLength_char hs hl hE)

theorem eq_escape_of_length {d : Char} {r : Text} {k : Nat} (h : source ++ rest = '\\' :: d :: r)
    (hk : source.length = k + 2) : ∃ a, source = '\\' :: d :: a ∧ r = a ++ rest ∧ a.length = k := by
  match source with
  | [] => simp at hk
  | [_] => simp at hk
  | e :: f :: a =>
    simp only [List.cons_append, List.cons.injEq] at h
    obtain ⟨rfl, rfl, rfl⟩ := h
    exact ⟨a, rfl, rfl, by simpa using hk⟩

theorem unit_shapes (hs : scope = .insideClass ∨ scope = .outsideClass) (hn : source ≠ [])
    (hl : BaselineToken.length scope (source ++ rest) = source.length) :
    (∃ d a, source = '\\' :: d :: a ∧ BaselineToken.Tail d (a ++ rest) a.length) ∨
      scope = .outsideClass ∧ ((∃ d ∈ [':', '=', '!'], source = ['(', '?', d]) ∨
        ∀ d ∈ source, BaselineToken.isQuantifierSign d = true) := by
  have hpos := List.length_pos_iff.2 hn
  have escape : ∀ {d : Char} {r : Text} {k : Nat}, source ++ rest = '\\' :: d :: r →
      source.length = k + 2 →
      BaselineToken.Tail d r k → ∃ d a, source = '\\' :: d :: a ∧
        BaselineToken.Tail d (a ++ rest) a.length := by
    intro d r k ht hk htail
    obtain ⟨a, rfl, rfl, ha⟩ := eq_escape_of_length ht hk
    exact ⟨d, a, rfl, ha ▸ htail⟩
  rcases hs with rfl | rfl
  · rw [BaselineToken.length_insideClass] at hl
    obtain ⟨d, r, k, ht, hk, htail⟩ := BaselineToken.inClass_cases (t := source ++ rest) (by omega)
    exact .inl (escape ht (hl.symm.trans hk) htail)
  · rw [BaselineToken.length_outsideClass] at hl
    have hsource : (source ++ rest).take (BaselineToken.outside (source ++ rest)) = source := by
      rw [hl, List.take_left]
    rcases BaselineToken.outside_cases (t := source ++ rest) (by omega) with
      ⟨d, r, k, ht, hk, htail⟩ | ⟨d, r, ht, hd, hk⟩ | h
    · exact .inl (escape ht (hl.symm.trans hk) htail)
    · refine .inr ⟨rfl, .inl ⟨d, hd, ?_⟩⟩
      rw [← hsource, hk, ht]
      rfl
    · exact .inr ⟨rfl, .inr (hsource ▸ h)⟩

theorem unit_cases (hs : scope = .insideClass ∨ scope = .outsideClass) (hn : source ≠ [])
    (hl : BaselineToken.length scope (source ++ rest) = source.length) :
    (∃ d a, source = '\\' :: d :: a ∧ BaselineToken.Tail d (a ++ rest) a.length) ∨
      scope = .outsideClass ∧ ∀ d ∈ source, d ≠ '\\' ∧ d ≠ '[' ∧ d ≠ ']' ∧ isSettled d = true := by
  refine (unit_shapes hs hn hl).imp_right fun ⟨hscope, hshape⟩ => ⟨hscope, fun e he => ?_⟩
  rcases hshape with ⟨d, hd, rfl⟩ | hsigns
  · simp only [List.mem_cons, List.not_mem_nil, or_false] at he hd
    rcases he with rfl | rfl | rfl
    · decide
    · decide
    · rcases hd with rfl | rfl | rfl <;> decide
  · have hdull := isDull_of_isQuantifierSign (hsigns e he)
    exact ⟨ne_of_isDull hdull (by decide), ne_of_isDull hdull (by decide),
      ne_of_isDull hdull (by decide), isSettled_of_isDull hdull⟩

theorem peel_unit (hs : scope = .insideClass ∨ scope = .outsideClass) (hn : source ≠ [])
    (hl : BaselineToken.length scope (source ++ rest) = source.length) (hE : Trails rest E) :
    ∃ new, Peel scope (source ++ E) new scope E ∧ Leaves context source rest scope new scope := by
  rcases unit_cases hs hn hl with ⟨d, a, rfl, htail⟩ | ⟨rfl, hplain⟩
  · obtain ⟨new, hnew, hne, hi⟩ := Peel.escape hs htail hE
    rcases hs with rfl | rfl
    · exact ⟨new, hnew, .inside hne hi⟩
    · exact ⟨new, hnew, .outside (outer_of_isDull hi)⟩
  · obtain ⟨new, hnew, ho⟩ :=
      outer_plain (fun e he => ⟨(hplain e he).1, (hplain e he).2.1, (hplain e he).2.2.2⟩) E
    exact ⟨new, hnew, .outside ho⟩

theorem peel_signs (h : ∀ d ∈ source, d ≠ 'p' ∧ d ≠ 'P') (E : Text) :
    ∃ new, Peel .insideClass ((source.flatMap fun d => ['\\', d]) ++ E) new .insideClass E ∧
      (source ≠ [] → new ≠ []) ∧ Inner new := by
  induction source with
  | nil => exact ⟨[], .nothing _ E, by simp, by simp [Inner]⟩
  | cons d source ih =>
    obtain ⟨more, hmore, -, hi⟩ := ih fun e he => h e (by simp [he])
    have first := Peel.letter (.inl rfl) (h d (by simp)).1 (h d (by simp)).2
      ((source.flatMap fun d => ['\\', d]) ++ E)
    have hd : Inner [⟨'\\', .insideClass, true⟩, ⟨d, .insideClass, true⟩] := fun x hx => by
      simp only [List.mem_cons, List.not_mem_nil, or_false] at hx
      rcases hx with rfl | rfl <;> exact ⟨rfl, .inl rfl⟩
    exact ⟨_, first.trans hmore, by simp, hd.append hi⟩

/-- What a round emits reads on its own in front of what is emitted behind it, in the scope that the
scan is in. -/
theorem Reads.leaves (h : Reads position context scope source rest output after c)
    (hs : scope = .insideClass ∨ scope = .outsideClass) (hE : Trails rest E) :
    ∃ new, Peel scope (output ++ E) new after E ∧ Leaves context source rest scope new after := by
  have outer : ∀ {a : Text}, (∃ new, Peel .outsideClass (a ++ E) new .outsideClass E ∧ Outer new) →
      ∃ new, Peel .outsideClass (a ++ E) new .outsideClass E ∧
        Leaves context source rest .outsideClass new .outsideClass := by
    rintro a ⟨new, hnew, ho⟩
    exact ⟨new, hnew, .outside ho⟩
  have plain : ∀ {a : Text}, (∀ d ∈ a, d ≠ '\\' ∧ d ≠ '[' ∧ isSettled d = true) →
      ∃ new, Peel .outsideClass (a ++ E) new .outsideClass E ∧
        Leaves context source rest .outsideClass new .outsideClass :=
          fun h => outer (outer_plain h E)
  cases h with
  | dot | anyCharacter => exact ⟨_, ⟨takes_refl _, rfl⟩, .anyCharacter⟩
  | spacing | comment => exact outer (outer_separator rest E)
  | leadingModifier => exact ⟨[], .nothing _ E, .outside (by simp [Outer])⟩
  | laterModifier hn hl hp =>
    exact plain (forall_mem_modifier hl (Text.forall_mem_of_all (by decide)))
  | noCharacter => exact outer (outer_noCharacter E)
  | @reference name _ hn hc => exact outer (outer_refer name rest context hc E)
  | named | special | uncaptured | group => exact plain (Text.forall_mem_of_all (by decide))
  | sign hsign =>
    have hletter : ∀ d ∈ source, d ≠ 'p' ∧ d ≠ 'P' :=
      Text.forall_mem_of_all (by rcases hsign with rfl | rfl | rfl <;> decide)
    obtain ⟨new, hnew, hne, hi⟩ := peel_signs hletter E
    exact ⟨new, hnew, .inside (hne (by rcases hsign with rfl | rfl | rfl <;> simp)) hi⟩
  | unit hr hn hl => exact peel_unit hs hn hl hE
  | @char _ d _ hr hl =>
    rw [← scopeBehind_eq_after hs]
    exact ⟨_, peel_char hs hl hE, .char rfl hr⟩

end Builtin

/-- What the first round of a run leaves, in front of what the others emit. -/
theorem Run.leaves {pattern : Text} {s s' t : ScanState} {piece : Segment} {l : List Segment}
    (hstep : s.step Builtin.lookup pattern = .ok (some (piece, s')))
    (run : Run Builtin.lookup pattern s' l t)
    (hs : s.scope = .insideClass ∨ s.scope = .outsideClass) :
    ∃ new, Peel s.scope (Segment.emitted (piece :: l)) new s'.scope (Segment.emitted l) ∧
      Builtin.Leaves s.turn.context piece.source s'.rest s.scope new s'.scope := by
  obtain ⟨-, hne, hposition, -⟩ := rest_of_step hstep
  obtain ⟨hreads, -⟩ := Builtin.reads_of_step hs hstep
  have hpos : s'.position ≠ 0 := by
    have := Text.bytes_pos_of_ne_nil hne
    omega
  obtain ⟨new, hpeel, hleaves⟩ := hreads.leaves hs (run.trails (hreads.scope_after hs) hpos)
  exact ⟨new, by simpa [Segment.emitted] using hpeel, hleaves⟩

end RegexDialect
