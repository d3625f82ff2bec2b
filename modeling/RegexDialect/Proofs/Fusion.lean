import RegexDialect.Proofs.Cuts
import RegexDialect.Proofs.Elision

/-! Where elided syntax joins its neighbours. Between the text before it and the text after it there
is a cut, unless a quantifier follows and its first characters complete a unit that was begun
before. -/
namespace RegexDialect

open Baseline BaselineToken

/-- A text that, with the text after it, makes up one unit: a parenthesis in front of a group sign,
a quantifier in front of a question mark, or the letter of an escape in front of braces. -/
inductive Joins : Text → Text → Prop
  | opener {c : Char} (r : Text) (hc : c ∈ [':', '=', '!']) : Joins ['('] ('?' :: c :: r)
  | sign {c : Char} (r : Text) (hc : isRepeatSign c = true) : Joins [c] ('?' :: r)
  | bounds {u : Text} (r : Text) (hn : counted u ≠ 0) (hu : counted u = u.length) :
    Joins u ('?' :: r)
  | hex {r : Text} (h : 2 < braced Text.isHexDigit r) : Joins ['\\', 'x'] r
  | property {c : Char} {r : Text} (hc : c = 'p' ∨ c = 'P') (h : braced (· != '}') r ≠ 0) :
    Joins ['\\', c] r

namespace BaselineToken

variable {scope : Scope} {c d : Char} {a t u v F : Text}

theorem outside_brace (v : Text) : outside ('\x7b' :: v) =
    if counted ('\x7b' :: v) != 0 then withLazyMark ('\x7b' :: v) (counted ('\x7b' :: v))
    else 0 := by
  simp [outside, isRepeatSign]

theorem commonEscape_x (v : Text) : commonEscape ('x' :: v) =
    if 2 < braced Text.isHexDigit v then 1 + braced Text.isHexDigit v
    else if runUpTo 2 Text.isHexDigit v = 2 then 3 else 1 := by
  simp [commonEscape]

theorem commonEscape_property (hc : c = 'p' ∨ c = 'P') (v : Text) :
    commonEscape (c :: v) = 1 + braced (· != '}') v := by
  rcases hc with rfl | rfl
  · by_cases hb : braced (· != '}') v = 0 <;> simp [commonEscape, hb]
  · by_cases hb : braced (· != '}') v = 0 <;> simp [commonEscape, hb]

theorem length_wide (hs : scope = .insideClass ∨ scope = .outsideClass)
    (hc : c ∈ ['p', 'P', 'x']) (v : Text) :
    length scope ('\\' :: c :: v) = 1 + commonEscape (c :: v) := by
  simp only [List.mem_cons, List.not_mem_nil, or_false] at hc
  rcases hs with rfl | rfl
  · rw [length_insideClass, inClass_backslash]
    rcases hc with rfl | rfl | rfl <;> rfl
  · rw [length_outsideClass, outside_backslash]
    rcases hc with rfl | rfl | rfl <;> rfl

/-- A text that joins the text after it is part of a longer unit. -/
theorem lt_of_joins (h : Joins u v) : u ≠ [] ∧ u.length < outside (u ++ v) := by
  cases h with
  | opener r hc =>
    refine ⟨by simp, ?_⟩
    simp only [List.mem_cons, List.not_mem_nil, or_false] at hc
    rcases hc with rfl | rfl | rfl <;> simp [outside]
  | sign r hc =>
    refine ⟨by simp, ?_⟩
    rw [List.singleton_append, outside_repeat hc]
    simp [withLazyMark]
  | bounds r hn hu =>
    have hne : u ≠ [] := by
      rintro rfl
      exact hn rfl
    obtain ⟨a, w, rfl, -, -⟩ := exists_of_counted hn
    have happ := counted_append (show isStop '?' = true by decide) hne r
    refine ⟨hne, ?_⟩
    rw [List.cons_append] at happ ⊢
    rw [outside_brace, happ, if_pos (bne_iff_ne.2 hn), hu]
    simp [withLazyMark]
  | hex h =>
    refine ⟨by simp, ?_⟩
    have hlen := length_wide (.inr rfl) (show 'x' ∈ ['p', 'P', 'x'] by decide) v
    rw [length_outsideClass] at hlen
    simp [hlen, commonEscape_x, h]
    omega
  | @property c _ hc h =>
    refine ⟨by simp, ?_⟩
    have hlen :=
      length_wide (.inr rfl) (show c ∈ ['p', 'P', 'x'] by rcases hc with rfl | rfl <;> decide) v
    rw [length_outsideClass] at hlen
    simp [hlen, commonEscape_property hc]
    omega

theorem joins_of_lt_sign (ha : isRepeatSign c = true)
    (h : (c :: t).length < outside (c :: t ++ d :: F)) :
    Joins (c :: t) (d :: F) := by
  rw [List.cons_append, outside_repeat ha, withLazyMark] at h
  cases t with
  | nil =>
    by_cases hq : d = '?'
    · subst hq
      exact .sign F ha
    · simp [hq] at h
  | cons b t =>
    simp only [List.length_cons, List.cons_append, List.drop_succ_cons, List.drop_zero] at h
    split at h <;> omega

theorem joins_of_lt_bounds (hd : isStop d = true)
    (h : ('\x7b' :: t).length < outside ('\x7b' :: t ++ d :: F)) :
      Joins ('\x7b' :: t) (d :: F) := by
  have happ := @counted_append d ('\x7b' :: t) hd (by simp) F
  rw [List.cons_append] at happ h
  rw [outside_brace, happ] at h
  split at h
  · next hn =>
    have hle := counted_le ('\x7b' :: t)
    rcases Nat.lt_or_eq_of_le hle with hlt | heq
    · have hmark := withLazyMark_append hlt (d :: F)
      have hwhole := withLazyMark_le hle
      rw [← List.cons_append, hmark] at h
      omega
    · by_cases hq : d = '?'
      · subst hq
        exact .bounds F (by simpa using hn) heq
      · rw [heq, withLazyMark, ← List.cons_append, List.drop_left] at h
        simp [hq] at h
  · exact absurd h (by simp)

theorem joins_of_lt_opener (hd : isStop d = true)
    (h : ('(' :: t).length < outside ('(' :: t ++ d :: F)) : Joins ('(' :: t) (d :: F) := by
  rcases outside_cases (t := '(' :: t ++ d :: F) (by omega) with
    ⟨c, r, k, heq, -⟩ | ⟨c, r, heq, hc, hk⟩ | hsigns
  · simp at heq
  · rw [hk] at h
    rcases t with _ | ⟨b, _ | ⟨e, t⟩⟩
    · obtain ⟨rfl, rfl⟩ : d = '?' ∧ F = c :: r := by simpa using heq
      exact .opener r hc
    · obtain ⟨-, rfl, -⟩ : b = '?' ∧ d = c ∧ F = r := by simpa using heq
      simp only [List.mem_cons, List.not_mem_nil, or_false] at hc
      rcases hc with rfl | rfl | rfl <;> exact absurd hd (by decide)
    · simp only [List.length_cons] at h
      omega
  · have hpos : 0 < outside ('(' :: t ++ d :: F) := by omega
    obtain ⟨n, hn⟩ := Nat.exists_eq_succ_of_ne_zero (Nat.ne_of_gt hpos)
    exact absurd (hsigns '(' (by rw [hn]; simp)) (by decide)

theorem joins_of_lt (hs : scope = .insideClass ∨ scope = .outsideClass) (hu : u ≠ [])
    (hb : u.head? ≠ some '\\')
    (hd : isStop d = true) (h : u.length < length scope (u ++ d :: F)) : scope = .outsideClass ∧
      Joins u (d :: F) := by
  obtain ⟨a, t, rfl⟩ := List.exists_cons_of_ne_nil hu
  have ha : a ≠ '\\' := by simpa using hb
  rcases hs with rfl | rfl
  · rw [length_insideClass] at h
    obtain ⟨c, r, k, heq, -⟩ := inClass_cases (t := a :: t ++ d :: F) (by omega)
    exact absurd (List.cons.inj heq).1 ha
  refine ⟨rfl, ?_⟩
  rw [length_outsideClass] at h
  by_cases hsign : isRepeatSign a = true
  · exact joins_of_lt_sign hsign h
  by_cases hbrace : a = '\x7b'
  · subst hbrace
    exact joins_of_lt_bounds hd h
  by_cases hopen : a = '('
  · subst hopen
    exact joins_of_lt_opener hd h
  · simp only [isRepeatSign, Bool.or_eq_true, beq_iff_eq, not_or] at hsign
    rw [List.cons_append, outside_of_other (by simp [ha, hopen, hsign, hbrace])] at h
    exact absurd h (by simp)

theorem braced_of_not_mem {r : Text} (h : '}' ∉ r) : braced (· != '}') ('\x7b' :: r) = 0 := by
  apply Decidable.byContradiction
  intro hb
  obtain ⟨name, after, heq, -⟩ := exists_of_braced hb
  exact h (by simp [(List.cons.inj heq).2])

/-- An escape that does not wait for braces ends where it ended without the stop. -/
theorem length_escape_append (hs : scope = .insideClass ∨ scope = .outsideClass)
    (hd : isStop d = true)
    (hwait : c ∈ ['p', 'P', 'x'] → commonEscape (c :: a) = 1 → a ≠ [] ∧ a.head? ≠ some '\x7b')
    (F : Text) :
    length scope ('\\' :: c :: (a ++ d :: F)) = length scope ('\\' :: c :: a) := by
  have wide := fun hc : c ∈ ['p', 'P', 'x'] => @length_wide scope c hs hc
  rcases hs with rfl | rfl
  · simp only [length_insideClass, inClass_backslash] at wide ⊢
    rw [← List.cons_append,
      classEscape_append hd (fun hc h => hwait hc (by have := wide hc a; omega)) F]
  · simp only [length_outsideClass, outside_backslash] at wide ⊢
    rw [← List.cons_append,
      outerEscape_append hd (fun hc h => hwait hc (by have := wide hc a; omega)) F]

theorem joins_of_lt_letter (hc : c ∈ ['p', 'P', 'x']) (hd : isStop d = true)
    (h : 1 < commonEscape (c :: d :: F)) :
    Joins ['\\', c] (d :: F) := by
  simp only [List.mem_cons, List.not_mem_nil, or_false, ← or_assoc] at hc
  rcases hc with hc | rfl
  · rw [commonEscape_property hc] at h
    exact .property hc (by omega)
  · obtain ⟨-, -, -, hhex⟩ := not_in_run_of_isStop hd
    have hrun : runUpTo 2 Text.isHexDigit (d :: F) = 0 :=
      @runUpTo_append Text.isHexDigit d hhex 2 [] F
    by_cases hb : 2 < braced Text.isHexDigit (d :: F)
    · exact .hex hb
    · simp [commonEscape_x, hb, hrun] at h

/-- Braces that an escape could not take are not taken with more behind them either, unless that
closes the name of a property. -/
theorem commonEscape_open {r : Text} (hc : c ∈ ['p', 'P', 'x']) (hd : isStop d = true)
    (hone : commonEscape (c :: '\x7b' :: r) = 1)
    (hp : c = 'p' ∨ c = 'P' → braced (· != '}') ('\x7b' :: r) = 0 → '}' ∉ d :: F) :
    commonEscape (c :: '\x7b' :: (r ++ d :: F)) = commonEscape (c :: '\x7b' :: r) := by
  simp only [List.mem_cons, List.not_mem_nil, or_false, ← or_assoc] at hc
  rcases hc with hc | rfl
  · rw [commonEscape_property hc] at hone
    have hb : braced (· != '}') ('\x7b' :: r) = 0 := by omega
    have hb' : braced (· != '}') ('\x7b' :: (r ++ d :: F)) = 0 :=
      braced_of_not_mem fun hm => (List.mem_append.1 hm).elim (not_mem_of_braced hb) (hp hc hb)
    rw [commonEscape_property hc, commonEscape_property hc, hb, hb']
  · obtain ⟨-, -, -, hhex⟩ := not_in_run_of_isStop hd
    have hrun := @runUpTo_append Text.isHexDigit d hhex 2 ('\x7b' :: r) F
    have hbraces := @braced_append Text.isHexDigit d ('\x7b' :: r) hhex hd (by simp) F
    rw [List.cons_append] at hrun hbraces
    rw [commonEscape_x, commonEscape_x, hrun, hbraces]

/-- An escape that goes over a stop has nothing but its letter before it, and braces behind it. -/
theorem joins_of_lt_escape (hs : scope = .insideClass ∨ scope = .outsideClass)
    (hd : isStop d = true)
    (hp : c = 'p' ∨ c = 'P' → a.head? = some '\x7b' → braced (· != '}') a = 0 → '}' ∉ d :: F)
    (h : a.length + 2 < length scope ('\\' :: c :: (a ++ d :: F))) :
    c ∈ ['p', 'P', 'x'] ∧ a = [] ∧ Joins ['\\', c] (d :: F) := by
  have hle := length_le scope ('\\' :: c :: a)
  have same : length scope ('\\' :: c :: (a ++ d :: F)) ≠ length scope ('\\' :: c :: a) := by
    intro heq
    rw [heq] at h
    simp only [List.length_cons] at hle
    omega
  by_cases hwait : c ∈ ['p', 'P', 'x'] → commonEscape (c :: a) = 1 → a ≠ [] ∧ a.head? ≠ some '\x7b'
  · exact absurd (length_escape_append hs hd hwait F) same
  rw [Classical.not_imp, Classical.not_imp, not_and_or, not_not, not_not] at hwait
  obtain ⟨hc, hone, rfl | hhead⟩ := hwait
  · rw [List.nil_append, length_wide hs hc, List.length_nil] at h
    exact ⟨hc, rfl, joins_of_lt_letter hc hd (by omega)⟩
  · obtain ⟨r, rfl⟩ := List.head?_eq_some_iff.1 hhead
    rw [List.cons_append, length_wide hs hc, length_wide hs hc,
      commonEscape_open hc hd hone fun hletter => hp hletter rfl] at same
    exact absurd rfl same

/-- A quantifier: a sign, perhaps with a question mark, or bounds in braces. -/
def QuantifierForm (q : Text) : Prop :=
  (∃ c, isRepeatSign c = true ∧ (q = [c] ∨ q = [c, '?'])) ∨
    ∃ a r, q = '\x7b' :: (a ++ '}' :: r) ∧ ∀ c ∈ a, c ≠ '}'

theorem quantifier_cases (h : startsWithQuantifier t = true) :
    QuantifierForm (t.take (outside t)) := by
  obtain ⟨c, r, rfl⟩ : ∃ c r, t = c :: r :=
    List.exists_cons_of_ne_nil (by rintro rfl; simp [startsWithQuantifier] at h)
  simp only [startsWithQuantifier, Bool.or_eq_true, bne_iff_ne, ne_eq] at h
  rcases h with hc | hc
  · refine .inl ⟨c, hc, ?_⟩
    rw [outside_repeat hc, withLazyMark]
    split
    · next v hv =>
      obtain rfl : r = '?' :: v := by simpa using hv
      exact .inr rfl
    · exact .inl rfl
  · right
    have hle := counted_le_outside hc
    obtain ⟨a, v, heq, ha, hk⟩ := exists_of_counted hc
    rw [heq] at hle hk ⊢
    have hlen : ('\x7b' :: (a ++ ['}'])).length = a.length + 2 := by simp
    obtain ⟨n, hn⟩ : ∃ n, outside ('\x7b' :: (a ++ '}' :: v)) =
      ('\x7b' :: (a ++ ['}'])).length + n :=
      ⟨_, (Nat.add_sub_of_le (by omega)).symm⟩
    refine ⟨a, v.take n, ?_, ?_⟩
    · rw [hn, show '\x7b' :: (a ++ '}' :: v) = '\x7b' :: (a ++ ['}']) ++ v by simp,
        List.take_length_add_append]
      simp
    · rintro e he rfl
      exact absurd (ha _ he) (by decide)

/-- Braces that are closed read alike whatever is behind them. -/
theorem braced_congr {p : Char → Bool} (hp : p '}' = false) (ha : ∀ c ∈ a, c ≠ '}') (v w : Text) :
    braced p ('\x7b' :: (a ++ '}' :: v)) = braced p ('\x7b' :: (a ++ '}' :: w)) := by
  obtain ⟨b, r, rfl, hb, hr⟩ := Text.exists_run p a
  cases r with
  | nil =>
    rw [List.append_nil, braced_of_closed hb hp, braced_of_closed hb hp]
  | cons c r =>
    have hc : c ≠ '}' := ha c (by simp)
    have hopen : ∀ x, braced p ('\x7b' :: (b ++ c :: r ++ '}' :: x)) = 0 := by
      intro x
      have hrun : run p (b ++ c :: (r ++ '}' :: x)) = b.length := by
        rw [run, Text.takeWhile_run hb (by simpa using hr)]
      rw [List.append_assoc, List.cons_append]
      simp only [braced, hrun, List.drop_left]
      simp [hc]
    rw [hopen, hopen]

theorem QuantifierForm.ne_nil {q : Text} (hq : QuantifierForm q) : q ≠ [] := by
  rcases hq with ⟨c, -, rfl | rfl⟩ | ⟨a, r, rfl, -⟩ <;> simp

theorem QuantifierForm.braced_congr {q : Text} (hq : QuantifierForm q) {p : Char → Bool}
    (hp : p '}' = false) (v w : Text) : braced p (q ++ v) = braced p (q ++ w) := by
  rcases hq with ⟨c, hc, hq⟩ | ⟨a, r, rfl, ha⟩
  · have hbrace : c ≠ '\x7b' := Text.ne_of_test hc (by decide)
    have hnone : ∀ x, braced p (c :: x) = 0 := fun x => by simp [braced, hbrace]
    rcases hq with rfl | rfl <;> simp [hnone]
  · simpa using BaselineToken.braced_congr hp ha (r ++ v) (r ++ w)

/-- What joins a quantifier joins it whatever is behind that, but for the sign of a group behind a
question mark. -/
theorem joins_congr {q : Text} (hq : QuantifierForm q)
    (h : ∀ c ∈ [':', '=', '!'], v.head? = some c → t.head? = some c) (hj : Joins u (q ++ v)) :
      Joins u (q ++ t) := by
  have marked : ∀ r, q ++ v = '?' :: r → ∃ r', q ++ t = '?' :: r' := by
    intro r hr
    obtain ⟨a, q, rfl⟩ := List.exists_cons_of_ne_nil hq.ne_nil
    obtain ⟨rfl, -⟩ := List.cons.inj hr
    exact ⟨q ++ t, rfl⟩
  generalize hx : q ++ v = x at hj
  cases hj with
  | @opener c r hc =>
    rcases hq with ⟨c', -, rfl | rfl⟩ | ⟨a, r', rfl, -⟩
    · obtain ⟨rfl, rfl⟩ : c' = '?' ∧ v = c :: r := by simpa using hx
      obtain ⟨r', rfl⟩ := List.head?_eq_some_iff.1 (h c hc rfl)
      exact .opener r' hc
    · obtain ⟨-, rfl, -⟩ : c' = '?' ∧ '?' = c ∧ v = r := by simpa using hx
      exact absurd hc (by decide)
    · exact absurd (List.cons.inj hx).1 (by decide)
  | sign r hc =>
    obtain ⟨r', hr'⟩ := marked r hx
    rw [hr']
    exact .sign r' hc
  | bounds r hn hu =>
    obtain ⟨r', hr'⟩ := marked r hx
    rw [hr']
    exact .bounds r' hn hu
  | hex hb =>
    rw [← hx, hq.braced_congr (by decide) v t] at hb
    exact .hex hb
  | property hc hb =>
    rw [← hx, hq.braced_congr (by decide) v t] at hb
    exact .property hc hb

end BaselineToken

namespace Builtin

variable {pattern : Text} {b : Builtin} {r : Recognition} {s : ScanState}

theorem step_of_elided (hs : s.scope = .insideClass ∨ s.scope = .outsideClass)
    (hb : b = comment ∨ b = spacing) (h : firing? s.rest s.scope s.turn.context = some (b, r)) :
    s.scope = .outsideClass ∧ s.rest ≠ [] ∧ ∃ source, s.step lookup pattern =
      .ok (some (⟨source, separator (s.rest.drop r.length), true, s.scope⟩,
        ⟨s.position + Text.bytes source, s.rest.drop r.length, s.scope, s.turn⟩)) := by
  obtain ⟨position, rest, scope, turn⟩ := s
  simp only at hs h ⊢
  obtain ⟨hr, -⟩ := firing?_eq_some_iff.1 h
  have step : ∀ source after, rest = source ++ after → source ≠ [] → r.length = source.length →
      ∃ source, (ScanState.mk position rest scope turn).step lookup pattern =
        .ok (some (⟨source, separator (rest.drop r.length), true, scope⟩,
          ⟨position + Text.bytes source, rest.drop r.length, scope, turn⟩)) := by
    rintro source after rfl hn hlen
    have hdrop : (source ++ after).drop r.length = after := by rw [hlen, List.drop_left]
    refine ⟨source, ?_⟩
    rw [hdrop]
    refine step_of_token hn hlen h ?_
    rw [ofRecognition_append _ _ _ _ _ _ hlen]
    rcases hb with rfl | rfl <;> rfl
  rcases hs with rfl | rfl
  · obtain ⟨rfl, -⟩ := recognizeIn_inside.1 hr
    exact absurd hb (by decide)
  · obtain ⟨-, -, hr⟩ := recognizeIn_outside.1 hr
    rcases hb with rfl | rfl
    · obtain ⟨body, after, rfl, -, rfl⟩ := recognize_eq_some hr
      exact ⟨rfl, by simp, step (['(', '?', '#'] ++ body ++ [')']) after rfl (by simp)
        (by simp [plain])⟩
    · obtain ⟨source, after, rfl, hn, -, rfl⟩ := recognize_eq_some hr
      exact ⟨rfl, by simp [hn], step source after rfl hn rfl⟩

end Builtin

namespace Run

variable {pattern : Text} {s t e : ScanState} {k l : List Segment}

/-- A run is the beginning of every run from the same state to the end of the pattern. -/
theorem exists_rest {lookup : Lookup} (first : Run lookup pattern s k t)
    (whole : Run lookup pattern s l e)
    (he : e.rest = []) : ∃ m, l = k ++ m ∧ Run lookup pattern t m e := by
  induction first generalizing l with
  | done => exact ⟨l, rfl, whole⟩
  | round hstep _ ih =>
    cases whole with
    | done =>
      obtain ⟨hrest, hne, -⟩ := rest_of_step hstep
      exact absurd (List.append_eq_nil_iff.1 (hrest.trans he)).1 hne
    | round hstep' whole =>
      rw [hstep, Except.ok.injEq, Option.some.injEq, Prod.mk.injEq] at hstep'
      obtain ⟨rfl, rfl⟩ := hstep'
      obtain ⟨m, rfl, rest⟩ := ih whole
      exact ⟨m, rfl, rest⟩

/-- A quantifier that stands next is copied, and the scan goes on behind it. -/
theorem exists_quantifier (run : Run Builtin.lookup pattern s l e) (he : e.rest = [])
    (hs : s.scope = .outsideClass)
    (hq : startsWithQuantifier s.rest = true) : ∃ q s' m, s.rest = q ++ s'.rest ∧
      Segment.emitted l = q ++ Segment.emitted m ∧ q.length = outside s.rest ∧ q ≠ [] ∧
      Run Builtin.lookup pattern s' m e ∧ s'.scope = .outsideClass ∧ s'.position ≠ 0 := by
  cases run with
  | done => simp [he, startsWithQuantifier] at hq
  | @round _ s' _ piece m hstep run =>
    obtain ⟨hrest, hne, hposition, hscope⟩ := rest_of_step hstep
    obtain ⟨hreads, -⟩ := Builtin.reads_of_step (.inr hs) hstep
    rw [hs] at hreads
    obtain ⟨hout, hlen, hafter⟩ := hreads.of_quantifier hne (by rw [hrest]; exact hq)
    have hpos := Text.bytes_pos_of_ne_nil hne
    exact ⟨piece.source, s', m, hrest.symm, by simp [Segment.emitted, hout], by rw [← hlen, hrest],
      hne, run, hafter, by omega⟩

theorem exists_stop (run : Run Builtin.lookup pattern s l e) (he : e.rest = [])
    (hs : s.scope = .outsideClass)
    (hq : startsWithQuantifier s.rest = true) : ∃ d F, Segment.emitted l = d :: F ∧
      isStop d = true := by
  obtain ⟨q, s', m, hrest, hemit, -, hn, -⟩ := run.exists_quantifier he hs hq
  obtain ⟨d, q, rfl⟩ := List.exists_cons_of_ne_nil hn
  refine ⟨d, q ++ Segment.emitted m, hemit, ?_⟩
  rw [hrest, List.cons_append] at hq
  simp only [startsWithQuantifier, Bool.or_eq_true, bne_iff_ne, ne_eq] at hq
  rcases hq with hq | hq
  · simp [isStop, hq]
  · obtain ⟨_, _, heq, -, -⟩ := exists_of_counted hq
    rw [(List.cons.inj heq).1]
    decide

/-- A character that no rule writes and that is no quantifier comes next in what is emitted when it
comes next. -/
theorem head_emitted (run : Run Builtin.lookup pattern s l e) (he : e.rest = [])
    (hs : s.scope = .outsideClass) (hp : s.position ≠ 0) {d : Char} (hd : d ∈ [':', '=', '!']) :
    (Segment.emitted l).head? = some d ↔ s.rest.head? = some d := by
  have hd' : Unicode.isBlank d = false ∧ d ∉ ['(', '[', '\\', '.', '#', '&', '~'] ∧
      d ∉ ['(', '[', '\\', 'k'] ∧ ∀ r, startsWithQuantifier (d :: r) = false := by
    simp only [List.mem_cons, List.not_mem_nil, or_false] at hd
    rcases hd with rfl | rfl | rfl <;> exact ⟨by decide, by decide, by decide, fun r => rfl⟩
  obtain ⟨hblank, hrule, hwritten, hquantifier⟩ := hd'
  cases run with
  | done => simp [he, Segment.emitted]
  | @round _ s' _ piece m hstep run =>
    obtain ⟨hrest, hne, hposition, -⟩ := rest_of_step hstep
    obtain ⟨hreads, -⟩ := Builtin.reads_of_step (.inr hs) hstep
    obtain ⟨a, r, hsource⟩ := List.exists_cons_of_ne_nil hne
    have hcopied : piece.output = piece.source →
        ((Segment.emitted (piece :: m)).head? = some d ↔ s.rest.head? = some d) := by
      intro hout
      simp [Segment.emitted, hout, ← hrest, hsource]
    constructor
    · intro h
      have hfirst : (piece.output ++ Segment.emitted m).head? = some d := by
        simpa [Segment.emitted] using h
      rcases hreads.of_head hp hwritten hfirst with hout | ⟨hout, hscope, hq⟩
      · exact (hcopied hout).1 h
      · obtain ⟨q, s'', m', hrest', hemit, -, hn, -⟩ := run.exists_quantifier he hscope hq
        obtain ⟨a, q, rfl⟩ := List.exists_cons_of_ne_nil hn
        obtain rfl : a = d := by simpa [hout, hemit] using hfirst
        rw [hrest', List.cons_append, hquantifier] at hq
        exact absurd hq (by simp)
    · intro h
      refine (hcopied ?_).2 h
      obtain ⟨t, ht⟩ := List.head?_eq_some_iff.1 h
      exact (hreads.output_eq (hrest.trans ht) hblank hrule).1

/-- Whether a text joins the quantifier after it is the same for what is emitted for that. -/
theorem joins_iff (run : Run Builtin.lookup pattern s l e) (he : e.rest = [])
    (hs : s.scope = .outsideClass)
    (hq : startsWithQuantifier s.rest = true) (u : Text) : Joins u s.rest ↔
      Joins u (Segment.emitted l) := by
  obtain ⟨q, s', m, hrest, hemit, hlen, -, run', hs', hp'⟩ := run.exists_quantifier he hs hq
  have hform := quantifier_cases hq
  rw [← hlen, hrest, List.take_left] at hform
  rw [hrest, hemit]
  exact ⟨joins_congr hform fun d hd => (run'.head_emitted he hs' hp' hd).2,
    joins_congr hform fun d hd => (run'.head_emitted he hs' hp' hd).1⟩

end Run

theorem not_joins_parenthesis (u v : Text) : ¬Joins u ('(' :: v) := by
  intro h
  cases h with
  | hex h => exact absurd h (by simp [braced])
  | property _ h => exact absurd rfl h

theorem Cuts.of_emptyGroup {scope : Scope} (hs : scope = .insideClass ∨ scope = .outsideClass)
    (E : Text) :
    ∃ after, Cuts scope (Builtin.emptyGroup ++ E) after E := by
  rcases hs with rfl | rfl
  · exact ⟨_, .char rfl (.char rfl (.char rfl (.char rfl (.here _ E))))⟩
  · have hlen : length .outsideClass (Builtin.emptyGroup ++ E) = 3 := rfl
    refine ⟨.outsideClass, .unit (by simp [hlen]) ?_⟩
    rw [hlen]
    exact .char rfl (.here _ E)

section Elided

variable {pattern : Text} {s t e : ScanState} {k m : List Segment} {piece : Segment} {rest : Text}

/-- Over the place of elided syntax only a text goes that joins the quantifier after it. -/
theorem joins_of_over {start : ScanState} (first : Run Builtin.lookup pattern start k s)
    (last : Run Builtin.lookup pattern s m e)
    (hstart : start.scope = .outsideClass) (hs : s.scope = .outsideClass)
    {d : Char} {F : Text} (hF : Segment.emitted m = d :: F) (hd : isStop d = true) {u : Text}
    {scope : Scope} (hu : u ≠ [])
    (hcut : Cuts .outsideClass (Segment.emitted (k ++ m)) scope (u ++ Segment.emitted m))
    (hover : u.length < length scope (u ++ Segment.emitted m)) :
    scope = .outsideClass ∧ Joins u (Segment.emitted m) := by
  have hscope := hcut.scope_cases (.inr rfl)
  by_cases hb : u.head? = some '\\'
  · have hhead : (u ++ Segment.emitted m).head? = some '\\' := by rw [List.head?_append, hb]; rfl
    have hmem := hcut.mem_escapes (.inr rfl) (by omega) hhead
    rw [← hstart] at hmem
    obtain ⟨c, a, rfl, hwide⟩ := first.of_mem_escapes last (.inr hstart) hmem hu
    have hclosed : c = 'p' ∨ c = 'P' → a.head? = some '\x7b' → braced (· != '}') a = 0 →
        '}' ∉ d :: F := by
      intro hc hhead hzero hm
      have hletter : c ∈ ['p', 'P', 'x'] := by rcases hc with rfl | rfl <;> decide
      exact (hwide hletter).2 hc hhead hzero (last.mem_of_mem_emitted (.inr hs) (hF ▸ hm))
    rw [hF] at hover ⊢
    obtain ⟨hletter, rfl, hj⟩ := joins_of_lt_escape hscope hd hclosed (by simpa using hover)
    exact ⟨((hwide hletter).1 rfl).trans hs, hj⟩
  · rw [hF] at hover ⊢
    exact joins_of_lt hscope hu hb hd hover

end Elided

/-- Where elided syntax stood, the rewritten text is cut, before and behind the separator, unless a
quantifier follows in the pattern and joins the text in front of it, from some cut on. -/
theorem Registry.cut_iff_of_elided {pattern : Text} {flags : Flags} {c : Compiled}
    {k : List Segment} {s : ScanState} {b : Builtin} {r : Recognition}
    (h : Registry.builtin.compile pattern flags = .ok c)
    (run : Run Builtin.lookup pattern (.start pattern ⟨.start flags, false⟩) k s)
    (hf : Builtin.firing? s.rest s.scope s.turn.context = some (b, r))
    (hb : b = .comment ∨ b = .spacing) :
    ∃ after, c.rewritten = Segment.emitted k ++ Builtin.separator (s.rest.drop r.length) ++ after ∧
      (CutBetween (Segment.emitted k) (Builtin.separator (s.rest.drop r.length) ++ after) ∧
        CutBetween (Segment.emitted k ++ Builtin.separator (s.rest.drop r.length)) after ↔
      ¬(startsWithQuantifier (s.rest.drop r.length) = true ∧
        ∃ u, Cuts .outsideClass c.rewritten .outsideClass (u ++ after) ∧
          Joins u (s.rest.drop r.length))) := by
  obtain ⟨l, e, whole, he, rfl⟩ := exists_run_of_compile h
  obtain ⟨m, rfl, last⟩ := run.exists_rest whole he
  obtain ⟨hscope, hn, source, hstep⟩ :=
    @Builtin.step_of_elided pattern b r s (run.scope_and_mark (.inr rfl)).1 hb hf
  cases last with
  | done => exact absurd he hn
  | @round _ s' _ piece m hstep' last' =>
    have last := Run.round hstep' last'
    rw [hstep, Except.ok.injEq, Option.some.injEq, Prod.mk.injEq] at hstep'
    obtain ⟨rfl, rfl⟩ := hstep'
    generalize s.rest.drop r.length = rest at hstep last last'
    have hemit : ∀ m', Segment.emitted (⟨source, Builtin.separator rest, true, s.scope⟩ :: m') =
        Builtin.separator rest ++ Segment.emitted m' := fun m' => rfl
    have hwhole : ∀ m', Segment.emitted (k ++ m') = Segment.emitted k ++ Segment.emitted m' := by
      simp [Segment.emitted]
    have hover := @joins_of_over pattern s e k _ _ run last rfl hscope
    rw [hwhole, hemit] at hover
    refine ⟨Segment.emitted m, by rw [hwhole, hemit, List.append_assoc], ?_⟩
    by_cases hq : startsWithQuantifier rest = true
    · have hnone : Builtin.separator rest = [] := if_pos hq
      obtain ⟨d, F, hF, hd⟩ := last'.exists_stop he hscope hq
      have hjoins := last'.joins_iff he hscope hq
      simp only [hwhole, hnone, List.nil_append, List.append_nil] at hover ⊢
      constructor
      · rintro ⟨hcut, -⟩ ⟨-, u, hu, hj⟩
        obtain ⟨hne, hlt⟩ := lt_of_joins ((hjoins u).1 hj)
        exact hu.not_of_over hne (by simpa using hlt) hcut
      · intro hno
        rcases Cuts.exists_over (Segment.emitted k) (Segment.emitted m) .outsideClass with
          hcut | ⟨u, scope, hne, hcut, hlt⟩
        · exact ⟨hcut, hcut⟩
        · obtain ⟨rfl, hj⟩ := hover hF hd hne hcut hlt
          exact absurd ⟨hq, u, hcut, (hjoins u).2 hj⟩ hno
    · have hgroup : Builtin.separator rest = Builtin.emptyGroup := if_neg hq
      refine ⟨fun _ h => hq h.1, fun _ => ?_⟩
      simp only [hgroup] at hover ⊢
      rcases Cuts.exists_over (Segment.emitted k)
        (Builtin.emptyGroup ++ Segment.emitted m) .outsideClass with
        ⟨scope, hcut⟩ | ⟨u, scope, hne, hcut, hlt⟩
      · obtain ⟨after, hgroup⟩ :=
          Cuts.of_emptyGroup (hcut.scope_cases (.inr rfl)) (Segment.emitted m)
        exact ⟨⟨scope, hcut⟩, after, by rw [List.append_assoc]; exact hcut.trans hgroup⟩
      · obtain ⟨-, hj⟩ := hover rfl (by decide) hne hcut hlt
        exact absurd hj (not_joins_parenthesis u _)

/-- A comment between a parenthesis and a group sign: the two come together, and the comment's place
is no cut. -/
theorem Registry.cut_iff_of_elided_comment : ∃ c k s b r,
    Registry.builtin.compile "((?#c)?:a)".toList .empty = .ok c ∧
    Run Builtin.lookup "((?#c)?:a)".toList (.start "((?#c)?:a)".toList ⟨.start .empty, false⟩) k s ∧
    Builtin.firing? s.rest s.scope s.turn.context = some (b, r) ∧ (b = .comment ∨ b = .spacing) ∧
    s.rest = "(?#c)?:a)".toList ∧ c.rewritten = "(?:a)".toList ∧
      ¬CutBetween ['('] "?:a)".toList := by
  have hc : Registry.builtin.compile "((?#c)?:a)".toList .empty =
      .ok ⟨"(?:a)".toList, (Context.start .empty).push none⟩ := by
    rw [Registry.compile_builtin]
    rfl
  have hstep :
      (ScanState.start "((?#c)?:a)".toList ⟨.start .empty, false⟩).step Builtin.lookup
        "((?#c)?:a)".toList =
      .ok (some (⟨['('], ['('], true, .outsideClass⟩,
        ⟨1, "(?#c)?:a)".toList, .outsideClass, ⟨(Context.start .empty).push none, false⟩⟩)) := by
    rfl
  have run := Run.round hstep (.done _)
  have hf : Builtin.firing? "(?#c)?:a)".toList .outsideClass ((Context.start .empty).push none) =
      some (.comment, Builtin.plain "(?#c)?:a)".toList 5) := by
    rfl
  refine ⟨_, _, _, _, _, hc, run, hf, .inl rfl, rfl, rfl, fun hcut => ?_⟩
  obtain ⟨after, hafter, hiff⟩ := cut_iff_of_elided hc run hf (.inl rfl)
  obtain rfl : after = "?:a)".toList := (List.cons.inj hafter).2.symm
  exact hiff.1 ⟨hcut, hcut⟩ ⟨rfl, ['('], .here _ _, .opener _ (by decide)⟩

end RegexDialect
