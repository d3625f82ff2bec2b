import RegexDialect.Proofs.Openings
import RegexDialect.Proofs.Lookahead

/-! Capturing groups that the scan with the built-in rules declares, against the opening parentheses
of the text that it emits. Every group declared is an opening without a question mark, unless elided
syntax brings one next to it. -/
namespace RegexDialect

namespace BaselineToken

open Baseline

def isTail (c : Char) : Bool := c.isAlphanum || c == '\x7b' || c == '}'

theorem isTail_of_isDigit {c : Char} (h : c.isDigit = true) : isTail c = true := by
  simp [isTail, Char.isAlphanum, h]

theorem isTail_of_isAlpha {c : Char} (h : c.isAlpha = true) : isTail c = true := by
  simp [isTail, Char.isAlphanum, h]

theorem isTail_of_isHexDigit {c : Char} (h : Text.isHexDigit c = true) : isTail c = true := by
  simp [isTail, isAlphanum_of_isHexDigit h]

theorem isTail_of_isOctal {c : Char} (h : isOctal c = true) : isTail c = true :=
  isTail_of_isDigit (isDigit_of_isOctal h)

theorem forall_take_run {p q : Char → Bool} (h : ∀ c, p c = true → q c = true) (t : Text) :
    ∀ c ∈ t.take (run p t), q c = true := by
  obtain ⟨a, b, rfl, ha, hb⟩ := Text.exists_run p t
  rw [run, Text.takeWhile_run ha hb, List.take_left]
  exact fun c hc => h c (ha c hc)

theorem forall_take_runUpTo {p q : Char → Bool} (h : ∀ c, p c = true → q c = true)
    (n : Nat) (t : Text) :
    ∀ c ∈ t.take (runUpTo n p t), q c = true := by
  intro c hc
  refine forall_take_run h (t.take n) c ?_
  have hle : runUpTo n p t ≤ n := by
    have := run_le p (t.take n)
    simp only [List.length_take] at this
    exact Nat.le_trans this (Nat.min_le_left _ _)
  rwa [List.take_take, Nat.min_eq_left (show run p (t.take n) ≤ n from hle)]

/-- What stands behind the first character of an escape: the name of a property, or a few characters
that are nothing special anywhere. -/
def Tail (c : Char) (r : Text) (k : Nat) : Prop :=
  if Place.opensName c r then k = braced (· != '}') r
  else (∀ x ∈ r.take k, isTail x = true) ∧ (c = 'p' ∨ c = 'P' → k = 0)

theorem tail_zero {c : Char} {r : Text} (h : Place.opensName c r = false) : Tail c r 0 := by
  simp [Tail, h]

theorem tail_of_ne {c : Char} {r : Text} {k : Nat} (hp : c ≠ 'p') (hP : c ≠ 'P')
    (h : ∀ x ∈ r.take k, isTail x = true) : Tail c r k := by
  rw [Tail, opensName_of_ne hp hP, if_neg (by simp)]
  exact ⟨h, fun hc => absurd hc (by simp [hp, hP])⟩

theorem tail_octalAfter {c : Char} (hc : isOctal c = true) (r : Text) :
    ∃ k, octalAfter c r = 1 + k ∧ Tail c r k := by
  have hp : c ≠ 'p' := Text.ne_of_test hc (by decide)
  have hP : c ≠ 'P' := Text.ne_of_test hc (by decide)
  rw [octalAfter]
  split
  · exact ⟨_, rfl, tail_of_ne hp hP (forall_take_runUpTo (fun _ => isTail_of_isOctal) 2 r)⟩
  · exact ⟨_, rfl, tail_of_ne hp hP (forall_take_runUpTo (fun _ => isTail_of_isOctal) 1 r)⟩

theorem tail_braced {c : Char} (hp : c ≠ 'p') (hP : c ≠ 'P') {r : Text} :
    Tail c r (braced Text.isHexDigit r) := by
  refine tail_of_ne hp hP fun x hx => ?_
  by_cases hb : braced Text.isHexDigit r = 0
  · simp [hb] at hx
  · obtain ⟨a, b, rfl, ha, hlen⟩ := exists_of_braced hb
    have htake : ('\x7b' :: (a ++ '}' :: b)).take (a.length + 2) = '\x7b' :: (a ++ ['}']) := by
      rw [show '\x7b' :: (a ++ '}' :: b) = '\x7b' :: (a ++ ['}']) ++ b by simp]
      exact List.take_left' (by simp)
    rw [hlen, htake] at hx
    rcases List.mem_cons.1 hx with rfl | hx
    · decide
    · rcases List.mem_append.1 hx with hx | hx
      · exact isTail_of_isHexDigit (ha x hx)
      · obtain rfl := List.mem_singleton.1 hx
        decide

theorem tail_commonEscape (c : Char) (r : Text) :
    ∃ k, commonEscape (c :: r) = 1 + k ∧ Tail c r k := by
  simp only [commonEscape]
  split
  · next h => exact ⟨_, rfl, by simp only [Tail, Place.opensName, h, if_true]⟩
  · next h =>
    have hopen : Place.opensName c r = false := by simpa [Place.opensName] using h
    simp only [Bool.and_eq_true, beq_iff_eq, decide_eq_true_eq]
    split
    · next hx => exact ⟨_, rfl, tail_braced (by simp [hx.1]) (by simp [hx.1])⟩
    · split
      · next hx =>
        refine ⟨2, rfl, tail_of_ne (by simp [hx.1]) (by simp [hx.1]) ?_⟩
        rw [← hx.2]
        exact forall_take_runUpTo (fun _ => isTail_of_isHexDigit) 2 r
      · split
        · next hu =>
          refine ⟨4, rfl, tail_of_ne (by simp [hu.1]) (by simp [hu.1]) ?_⟩
          rw [← hu.2]
          exact forall_take_runUpTo (fun _ => isTail_of_isHexDigit) 4 r
        · split
          · next hc =>
            refine ⟨1, rfl, tail_of_ne (by simp [hc.1]) (by simp [hc.1]) ?_⟩
            rw [← hc.2]
            exact forall_take_runUpTo (fun _ => isTail_of_isAlpha) 1 r
          · exact ⟨0, rfl, tail_zero hopen⟩

theorem tail_classEscape (c : Char) (r : Text) :
    ∃ k, classEscape (c :: r) = 1 + k ∧ Tail c r k := by
  rw [classEscape]
  split
  · next h => exact tail_octalAfter h r
  · exact tail_commonEscape c r

theorem tail_outerEscape (c : Char) (r : Text) :
    ∃ k, outerEscape (c :: r) = 1 + k ∧ Tail c r k := by
  unfold outerEscape
  split
  · simp at *
  · next d u h =>
    obtain ⟨rfl, rfl⟩ := List.cons.inj h
    split
    · next hd =>
      obtain ⟨k, hk, ht⟩ := tail_octalAfter hd u
      refine ⟨_, rfl, tail_of_ne (by decide) (by decide) ?_⟩
      have hp : d ≠ 'p' := Text.ne_of_test hd (by decide)
      have hP : d ≠ 'P' := Text.ne_of_test hd (by decide)
      rw [Tail, opensName_of_ne hp hP, if_neg (by simp)] at ht
      rw [hk, Nat.add_comm, List.take_succ_cons]
      intro x hx
      rcases List.mem_cons.1 hx with rfl | hx
      · exact isTail_of_isOctal hd
      · exact ht.1 x hx
    · exact ⟨0, rfl, tail_zero (opensName_of_ne (by decide) (by decide) _)⟩
  · next d u _ h =>
    obtain ⟨rfl, rfl⟩ := List.cons.inj h
    split
    · next hd =>
      simp only [Bool.and_eq_true] at hd
      have hp : c ≠ 'p' := Text.ne_of_test hd.1 (by decide)
      have hP : c ≠ 'P' := Text.ne_of_test hd.1 (by decide)
      exact ⟨_, rfl, tail_of_ne hp hP (forall_take_run (fun _ => isTail_of_isDigit) r)⟩
    · exact tail_commonEscape c r

/-- An escape outside classes leaves nothing open, when no brace comes next to the letter of a
property. -/
theorem openings_escape {c : Char} {r a u : Text} {k : Nat} (h : Tail c r k) (hr : r = a ++ u)
    (ha : a.length = k) {v : Text} (w : Option Nat)
    (hv : braced (· != '}') u = 0 → braced (· != '}') v ≠ 0 →
      openings (.name w) v = openings (Place.back w) v) :
    openings (.escaped w) (c :: (a ++ v)) = openings (Place.back w) v := by
  subst hr
  rw [Tail] at h
  split at h
  · next ho =>
    simp only [Place.opensName, Bool.and_eq_true, bne_iff_ne, ne_eq] at ho
    obtain ⟨name, after, hau, hname, hlen⟩ := exists_of_braced ho.2
    have heq : a ++ u = '\x7b' :: (name ++ ['}']) ++ after := by simpa using hau
    obtain ⟨rfl, rfl⟩ := List.append_inj heq (by simp [ha, h, hlen])
    have hopen : Place.opensName c ('\x7b' :: (name ++ ['}']) ++ v) = true := by
      simp only [List.cons_append, List.append_assoc, List.nil_append]
      rw [Place.opensName, braced_of_closed hname (by decide)]
      simpa using ho.1
    rw [openings_escaped, if_pos hopen]
    simpa using openings_braces w (fun c hc => by simpa using hname c hc) v
  · next ho =>
    obtain ⟨htail, hzero⟩ := h
    rw [← ha, List.take_left] at htail
    by_cases hc : c = 'p' ∨ c = 'P'
    · obtain rfl : a = [] := List.length_eq_zero_iff.1 (ha.trans (hzero hc))
      rw [List.nil_append, openings_escaped]
      split
      · next hopen =>
        refine hv ?_ ?_
        · rcases hc with rfl | rfl <;> simpa [Place.opensName] using ho
        · rcases hc with rfl | rfl <;> simpa [Place.opensName] using hopen
      · rfl
    · rw [not_or] at hc
      rw [openings_escaped_of_not_opensName (opensName_of_ne hc.1 hc.2 _)]
      exact openings_back w (fun x hx => isInert_of_test (p := isTail) (by decide) (htail x hx)) v

theorem exists_of_counted {t : Text} (h : counted t ≠ 0) : ∃ a r, t = '\x7b' :: (a ++ '}' :: r) ∧
    (∀ c ∈ a, c.isDigit = true ∨ c = ',') ∧ counted t = a.length + 2 := by
  unfold counted at h ⊢
  split at h
  · next u =>
    obtain ⟨a, b, rfl, ha, hb⟩ := Text.exists_run Char.isDigit u
    have hrun : run Char.isDigit (a ++ b) = a.length := by rw [run, Text.takeWhile_run ha hb]
    simp only [hrun, List.drop_left] at h ⊢
    split at h
    · exact absurd rfl h
    · next hn =>
      rw [if_neg hn]
      split at h
      · next r => exact ⟨a, r, rfl, fun c hc => .inl (ha c hc), rfl⟩
      · next v =>
        obtain ⟨d, e, rfl, hd, he⟩ := Text.exists_run Char.isDigit v
        have hrun' : run Char.isDigit (d ++ e) = d.length := by rw [run, Text.takeWhile_run hd he]
        simp only [hrun', List.drop_left] at h ⊢
        split at h
        · next r =>
          refine ⟨a ++ ',' :: d, r, by simp, fun c hc => ?_, by simp; omega⟩
          simp only [List.mem_append, List.mem_cons] at hc
          rcases hc with hc | rfl | hc
          · exact .inl (ha c hc)
          · exact .inr rfl
          · exact .inl (hd c hc)
        · exact absurd rfl h
      · exact absurd rfl h
  · exact absurd rfl h

theorem isInert_of_counted {a : Text} (h : ∀ c ∈ a, c.isDigit = true ∨ c = ',') :
    ∀ c ∈ a, isInert c = true := by
  intro c hc
  rcases h c hc with hd | rfl
  · exact isInert_of_test (p := Char.isDigit) (by decide) hd
  · decide

def isQuantifierSign (c : Char) : Bool :=
  isRepeatSign c || c.isDigit || c == '\x7b' || c == ',' || c == '}'

theorem isPlain_of_isQuantifierSign {c : Char} (h : isQuantifierSign c = true) : isPlain c = true :=
  isPlain_of_test (by decide) h

theorem isQuantifierSign_of_counted {a : Text} (h : ∀ c ∈ a, c.isDigit = true ∨ c = ',') :
    ∀ c ∈ '\x7b' :: (a ++ ['}']), isQuantifierSign c = true := by
  intro c hc
  simp only [List.mem_cons, List.mem_append, List.not_mem_nil, or_false] at hc
  rcases hc with rfl | hc | rfl
  · decide
  · rcases h c hc with hd | rfl
    · simp [isQuantifierSign, hd]
    · decide
  · decide

theorem le_withLazyMark (t : Text) (n : Nat) : n ≤ withLazyMark t n := by
  unfold withLazyMark
  split <;> omega

theorem mem_take_withLazyMark {t : Text} {n : Nat} {c : Char} (h : c ∈ t.take (withLazyMark t n)) :
    c ∈ t.take n ∨ c = '?' := by
  unfold withLazyMark at h
  split at h
  · next r hr =>
    rw [List.take_add, hr, List.take_succ_cons, List.take_zero, List.mem_append,
      List.mem_singleton] at h
    exact h
  · exact .inl h

/-- What is copied as a unit outside classes: an escape, an opener without a capture, or a
quantifier. -/
theorem outside_cases {t : Text} (h : outside t ≠ 0) :
    (∃ c r k, t = '\\' :: c :: r ∧ outside t = k + 2 ∧ Tail c r k) ∨
      (∃ c r, t = '(' :: '?' :: c :: r ∧ c ∈ [':', '=', '!'] ∧ outside t = 3) ∨
      ∀ c ∈ t.take (outside t), isQuantifierSign c = true := by
  unfold outside at h ⊢
  split at h
  · next r =>
    match r with
    | [] => exact absurd rfl h
    | c :: r =>
      obtain ⟨k, hk, ht⟩ := tail_outerEscape c r
      exact .inl ⟨c, r, k, rfl, by simp only [hk]; rw [if_neg (by simp)]; omega, ht⟩
  · next c r =>
    split at h
    · next hc =>
      refine .inr (.inl ⟨c, r, rfl, ?_, by rw [if_pos hc]⟩)
      simpa [or_assoc] using hc
    · exact absurd rfl h
  · next c r hne _ =>
    refine .inr (.inr fun d hd => ?_)
    split at hd
    · next hc =>
      rcases mem_take_withLazyMark hd with hd | rfl
      · rw [List.take_succ_cons, List.take_zero, List.mem_singleton] at hd
        subst hd
        simp [isQuantifierSign, hc]
      · decide
    · split at hd
      · next hc =>
        obtain ⟨a, u, hcr, ha, hlen⟩ := exists_of_counted (t := c :: r) (by simpa using hc)
        rcases mem_take_withLazyMark hd with hd | rfl
        · rw [hlen, hcr, show '\x7b' :: (a ++ '}' :: u) = '\x7b' :: (a ++ ['}']) ++ u by simp,
            List.take_left' (by simp)] at hd
          exact isQuantifierSign_of_counted ha d hd
        · decide
      · simp at hd
  · exact absurd rfl h

theorem inClass_cases {t : Text} (h : inClass t ≠ 0) :
    ∃ c r k, t = '\\' :: c :: r ∧ inClass t = k + 2 ∧ Tail c r k := by
  unfold inClass at h ⊢
  split at h
  · next r =>
    match r with
    | [] => exact absurd rfl h
    | c :: r =>
      obtain ⟨k, hk, ht⟩ := tail_classEscape c r
      exact ⟨c, r, k, rfl, by simp only [hk]; rw [if_neg (by simp)]; omega, ht⟩
  · exact absurd rfl h

end BaselineToken

namespace Segment

def declares (s : Segment) (after : Text) : Bool :=
  s.scope == .outsideClass && s.output == ['('] && (s.source != ['('] || after.head? != some '?')

theorem declares_of_output_ne {source output : Text} {byRule : Bool} {scope : Scope}
    (h : output ≠ ['('])
    (after : Text) : (Segment.mk source output byRule scope).declares after = false := by
  simp [declares, h]

/-- How many pieces declare a group and have a question mark next to it in the end. -/
def exposed : List Segment → Nat
  | [] => 0
  | s :: l =>
    (if s.declares (l.flatMap source) && (emitted l).head? == some '?' then 1 else 0) + exposed l

end Segment

open Baseline

/-- Whether a place of the emitted text fits the scope of the scan in front of a text. -/
def Baseline.Place.Fits (scope : Scope) (rest : Text) : Place → Prop
  | outside => scope = .outsideClass
  | inside 0 => scope = .insideClass
  | bracket => scope = .insideClass ∧ rest.head? ≠ some ']' ∧ ∀ u, rest ≠ '^' :: ']' :: u
  | caret => scope = .insideClass ∧ rest.head? ≠ some ']'
  | _ => False

/-- What is emitted for a text, or for the beginning of it, as far as an escape before it can
see. -/
structure Trails (rest emitted : Text) : Prop where
  nil : rest = [] → emitted = []
  bounds : BaselineToken.braced (· != '}') rest = 0 → BaselineToken.braced (· != '}') emitted ≠ 0 →
    ∃ a u, emitted = '\x7b' :: (a ++ '}' :: u) ∧ ∀ c ∈ a, c.isDigit = true ∨ c = ','

structure Follows (rest emitted : Text) : Prop extends Trails rest emitted where
  question : rest.head? = some '?' → emitted.head? = some '?'

/-- Braces that only come up in what is emitted hide no parenthesis. -/
theorem Trails.openings_name {rest emitted : Text} (h : Trails rest emitted)
    (h₁ : BaselineToken.braced (· != '}') rest = 0)
    (h₂ : BaselineToken.braced (· != '}') emitted ≠ 0)
    (k : Option Nat) : openings (.name k) emitted = openings (Place.back k) emitted := by
  obtain ⟨a, u, rfl, ha⟩ := h.bounds h₁ h₂
  have hno : ∀ c ∈ a, c ≠ '}' := by
    rintro c hc rfl
    exact absurd (ha _ hc) (by decide)
  have hall : ∀ c ∈ '\x7b' :: (a ++ ['}']), isInert c = true := by
    intro c hc
    simp only [List.mem_cons, List.mem_append, List.not_mem_nil, or_false] at hc
    rcases hc with rfl | hc | rfl
    · decide
    · exact BaselineToken.isInert_of_counted ha c hc
    · decide
  rw [openings_braces k hno, show '\x7b' :: (a ++ '}' :: u) = '\x7b' :: (a ++ ['}']) ++ u by simp,
    openings_back k hall]

namespace Baseline.Place.Fits

variable {p : Place} {rest : Text}

theorem eq_outside (h : p.Fits .outsideClass rest) : p = .outside := by
  match p with
  | .outside => rfl
  | .inside 0 => exact absurd h (by simp [Fits, Scope.outsideClass, Scope.insideClass])
  | .inside (_ + 1) | .escaped _ | .name _ => exact h.elim
  | .bracket | .caret => exact absurd h.1 (by simp [Scope.outsideClass, Scope.insideClass])

theorem cases_inside (h : p.Fits .insideClass rest) :
    p = .inside 0 ∨ p = .bracket ∨ p = .caret := by
  match p with
  | .outside => exact absurd h (by simp [Fits, Scope.outsideClass, Scope.insideClass])
  | .inside 0 => exact .inl rfl
  | .inside (_ + 1) | .escaped _ | .name _ => exact h.elim
  | .bracket => exact .inr (.inl rfl)
  | .caret => exact .inr (.inr rfl)

theorem openings_backslash (h : p.Fits .insideClass rest) (r : Text) :
    openings p ('\\' :: r) = openings (.escaped (some 0)) r := by
  rcases h.cases_inside with rfl | rfl | rfl <;> rfl

end Baseline.Place.Fits

namespace Builtin

variable {position : Nat} {context c : Context} {scope after : Scope}
  {source rest output E : Text} {p : Place}

theorem openings_emptyGroup (E : Text) :
    openings .outside (emptyGroup ++ E) = ('?' :: ':' :: ')' :: E) :: openings .outside E := rfl

theorem openings_separator (rest E : Text) : ∃ new,
    openings .outside (separator rest ++ E) = new ++ openings .outside E ∧
      new.countP Opening.isBare = 0 := by
  rw [separator]
  split
  · exact ⟨[], rfl, rfl⟩
  · exact ⟨[_], openings_emptyGroup E, rfl⟩

theorem openings_anyCharacter (E : Text) :
    openings .outside (anyCharacter ++ E) = openings .outside E := rfl

theorem openings_noCharacter (E : Text) :
    openings .outside (noCharacter ++ E) = openings .outside E := rfl

theorem openings_refer (name rest : Text) (context : Context) (hn : ∀ d ∈ name, isNameChar d = true)
    (E : Text) :
    ∃ new, openings .outside (refer name rest context ++ E) = new ++ openings .outside E ∧
      new.countP Opening.isBare = 0 := by
  rcases refer_shapes name rest context with ⟨d, ds, a, hrefer, hdigit, ha⟩ | hrefer
  · have hd : d.isDigit = true := hdigit d (by simp)
    have hnumber : ∀ v, openings .outside ('\\' :: d :: ds ++ v) = openings .outside v := by
      intro v
      have hname :=
        opensName_of_ne (Text.ne_of_test hd (by decide)) (Text.ne_of_test hd (by decide)) (ds ++ v)
      simp only [List.cons_append, openings_outside_backslash,
        openings_escaped_of_not_opensName hname]
      exact openings_plain
        (fun x hx => isPlain_of_test (p := Char.isDigit) (by decide) (hdigit x (by simp [hx]))) v
    rw [hrefer, List.append_assoc, hnumber]
    rcases ha with rfl | rfl
    · exact ⟨[], rfl, rfl⟩
    · exact ⟨[_], openings_emptyGroup E, rfl⟩
  · refine ⟨[], ?_, rfl⟩
    rw [hrefer]
    refine openings_plain (fun x hx => ?_) E
    simp only [List.mem_append, List.mem_cons, List.not_mem_nil, or_false] at hx
    rcases hx with ((rfl | rfl) | hx) | rfl
    · decide
    · decide
    · exact isPlain_of_test (p := isNameChar) (by decide) (hn x hx)
    · decide

theorem openings_unit_outside (hn : source ≠ [])
    (hl : BaselineToken.outside (source ++ rest) = source.length)
    (ha : Follows rest E) : ∃ new, openings .outside (source ++ E) = new ++ openings .outside E ∧
      new.countP Opening.isBare = 0 := by
  have hpos := List.length_pos_iff.2 hn
  have hs : (source ++ rest).take (BaselineToken.outside (source ++ rest)) = source := by
    rw [hl, List.take_left]
  rcases BaselineToken.outside_cases (t := source ++ rest) (by omega) with
    ⟨d, r, k, ht, hk, htail⟩ | ⟨d, r, ht, hd, hk⟩ | h
  · rw [hk, ht, List.take_succ_cons, List.take_succ_cons] at hs
    subst hs
    obtain hr : r.take k ++ rest = r := by simpa using ht
    refine ⟨[], ?_, rfl⟩
    simp only [List.cons_append, openings_outside_backslash, List.nil_append]
    refine BaselineToken.openings_escape htail hr.symm ?_ none fun h₁ h₂ =>
      ha.openings_name h₁ h₂ none
    simp only [List.length_cons] at hl
    omega
  · rw [hk, ht] at hs
    subst hs
    refine ⟨['?' :: d :: E], ?_, rfl⟩
    have hplain : isPlain d = true := by
      simp only [List.mem_cons, List.not_mem_nil, or_false] at hd
      rcases hd with rfl | rfl | rfl <;> decide
    simp only [List.take_succ_cons, List.take_zero, List.cons_append, List.nil_append,
      openings_parenthesis]
    rw [openings_plain_cons (by decide), openings_plain_cons hplain]
  · rw [hs] at h
    exact ⟨[], openings_plain (fun d hd => BaselineToken.isPlain_of_isQuantifierSign (h d hd)) E,
      rfl⟩

theorem openings_unit_inside (hn : source ≠ [])
    (hl : BaselineToken.inClass (source ++ rest) = source.length)
    (hp : p.Fits .insideClass (source ++ rest)) (ha : Follows rest E) :
    openings p (source ++ E) = openings (.inside 0) E := by
  have hpos := List.length_pos_iff.2 hn
  have hs : (source ++ rest).take (BaselineToken.inClass (source ++ rest)) = source := by
    rw [hl, List.take_left]
  obtain ⟨d, r, k, ht, hk, htail⟩ := BaselineToken.inClass_cases (t := source ++ rest) (by omega)
  rw [hk, ht, List.take_succ_cons, List.take_succ_cons] at hs
  subst hs
  obtain hr : r.take k ++ rest = r := by simpa using ht
  simp only [List.cons_append, hp.openings_backslash]
  refine BaselineToken.openings_escape htail hr.symm ?_ (some 0) fun h₁ h₂ =>
    ha.openings_name h₁ h₂ (some 0)
  simp only [List.length_cons] at hl
  omega

theorem ne_parenthesis_of_not_firing {d : Char}
    (h : firing? (d :: rest) .outsideClass context = none) : d ≠ '(' := by
  rintro rfl
  have hg := firing?_eq_none_iff.1 h group
  rw [recognizeIn_outside.2 ⟨by decide, rfl, rfl⟩] at hg
  exact absurd hg (by simp)

theorem ne_bracket_of_not_firing {d : Char} (h : firing? (d :: rest) .insideClass context = none) :
    d ≠ '[' := by
  rintro rfl
  have hg := firing?_eq_none_iff.1 h classSign
  rw [recognizeIn_inside.2 ⟨rfl, rfl⟩] at hg
  exact absurd hg (by simp)

theorem fits_bracket_of_not_firing (h : firing? ('[' :: rest) .outsideClass context = none) :
    Place.Fits .insideClass rest .bracket := by
  refine ⟨rfl, fun hr => ?_, fun u hr => ?_⟩
  · obtain ⟨u, rfl⟩ : ∃ u, rest = ']' :: u := by
      cases rest with
      | nil => simp at hr
      | cons d u => exact ⟨u, by simpa using hr⟩
    have hf := @firing?_emptyClass u context ['[', ']'] (.inl rfl)
    rw [List.cons_append, List.singleton_append, h] at hf
    exact absurd hf (by simp)
  · subst hr
    have hf := @firing?_emptyClass u context ['[', '^', ']'] (.inr rfl)
    rw [List.cons_append, List.cons_append, List.singleton_append, h] at hf
    exact absurd hf (by simp)

theorem eq_nil_of_outside {r : Text} (h : BaselineToken.outside ('\\' :: r) = 0) : r = [] := by
  cases r with
  | nil => rfl
  | cons d r =>
    obtain ⟨k, hk, -⟩ := BaselineToken.tail_outerEscape d r
    simp [BaselineToken.outside, hk] at h

theorem eq_nil_of_inClass {r : Text} (h : BaselineToken.inClass ('\\' :: r) = 0) : r = [] := by
  cases r with
  | nil => rfl
  | cons d r =>
    obtain ⟨k, hk, -⟩ := BaselineToken.tail_classEscape d r
    simp [BaselineToken.inClass, hk] at h

/-- A single character outside classes: nothing special, a bracket that opens a class, or a
backslash at the end. -/
theorem openings_char_outside {d : Char} (hr : firing? (d :: rest) .outsideClass context = none)
    (hl : BaselineToken.length .outsideClass (d :: rest) = 0) (ha : Follows rest E) :
    ∃ q : Place, q.Fits (Scope.outsideClass.after d) rest ∧ openings .outside ([d] ++ E) =
      openings q E := by
  have hp := ne_parenthesis_of_not_firing hr
  by_cases ho : d = '['
  · subst ho
    exact ⟨.bracket, fits_bracket_of_not_firing hr, rfl⟩
  · have hafter : Scope.outsideClass.after d = .outsideClass := by simp [Scope.after, ho]
    rw [hafter]
    refine ⟨.outside, rfl, ?_⟩
    by_cases hb : d = '\\'
    · subst hb
      rw [ha.nil (eq_nil_of_outside (by simpa using hl))]
      rfl
    · exact openings_plain_cons (by simp [Baseline.isPlain, hp, ho, hb]) E

theorem openings_char_inside {d : Char} (hr : firing? (d :: rest) .insideClass context = none)
    (hl : BaselineToken.length .insideClass (d :: rest) = 0)
    (hp : p.Fits .insideClass ([d] ++ rest)) (ha : Follows rest E) :
    ∃ q : Place, q.Fits (Scope.insideClass.after d) rest ∧ openings p ([d] ++ E) =
      openings q E := by
  have ho := ne_bracket_of_not_firing hr
  have hout : p ≠ .outside := by rcases hp.cases_inside with rfl | rfl | rfl <;> simp
  have hstep : openings p ([d] ++ E) = openings (p.next d E) E := openings_cons (.inl hout)
  by_cases hb : d = '\\'
  · subst hb
    obtain rfl := eq_nil_of_inClass (by simpa using hl)
    rw [ha.nil rfl]
    exact ⟨.inside 0, rfl, hp.openings_backslash []⟩
  · have hitem : Place.item 0 d = .inside 0 := by simp [Place.item, hb, ho]
    rw [hstep]
    by_cases hc : d = ']'
    · subst hc
      rcases hp.cases_inside with rfl | rfl | rfl
      · exact ⟨.outside, rfl, rfl⟩
      · exact absurd rfl hp.2.1
      · exact absurd rfl hp.2
    · have hafter : Scope.insideClass.after d = .insideClass := by simp [Scope.after, ho, hc]
      rw [hafter]
      rcases hp.cases_inside with rfl | rfl | rfl
      · exact ⟨.inside 0, rfl, by simp [Place.next, hc, hitem]⟩
      · by_cases hcaret : d = '^'
        · subst hcaret
          refine ⟨.caret, ⟨rfl, fun h => ?_⟩, by simp [Place.next]⟩
          cases rest with
          | nil => simp at h
          | cons e u =>
            obtain rfl : e = ']' := by simpa using h
            exact hp.2.2 u rfl
        · exact ⟨.inside 0, rfl, by simp [Place.next, hcaret, hitem]⟩
      · exact ⟨.inside 0, rfl, by simp [Place.next, hitem]⟩

theorem separator_ne (rest : Text) : separator rest ≠ ['('] := by
  rw [separator]
  split <;> decide

theorem refer_ne (name rest : Text) (context : Context) : refer name rest context ≠ ['('] := by
  rcases refer_shapes name rest context with ⟨d, ds, a, hrefer, -, -⟩ | hrefer <;> simp [hrefer]

theorem countP_parenthesis (E : Text) (b : Bool) (hb : b = true) :
    [E].countP Opening.isBare + (if b && E.head? == some '?' then 1 else 0) = 1 := by
  subst hb
  by_cases h : E.head? = some '?' <;> simp [Opening.isBare, h]

/-- A piece that emits no parenthesis, and no bare opening, declares no group. -/
theorem count_of_output_ne {new : List Text} (hne : output ≠ ['('])
    (hb : new.countP Opening.isBare = 0) (byRule : Bool) (n : Nat) : new.countP Opening.isBare +
      (if (Segment.mk source output byRule scope).declares rest && E.head? == some '?' then 1
        else 0) + n = n := by
  rw [Segment.declares_of_output_ne hne, hb]
  simp

/-- One round keeps the count: a group is declared when the text emitted has a bare opening or an
exposed one. -/
theorem Reads.openings_eq (h : Reads position context scope source rest output after c)
    (hs : scope = .insideClass ∨ scope = .outsideClass) (hp : p.Fits scope (source ++ rest))
    (ha : Follows rest E)
    (byRule : Bool) : ∃ q new, q.Fits after rest ∧ openings p (output ++ E) = new ++ openings q E ∧
      new.countP Opening.isBare +
        (if (Segment.mk source output byRule scope).declares rest && E.head? == some '?' then 1
          else 0) + context.names.length = c.names.length := by
  cases h with
  | dot | anyCharacter =>
    obtain rfl := hp.eq_outside
    exact ⟨.outside, [], rfl, openings_anyCharacter E, count_of_output_ne (by decide) rfl byRule _⟩
  | noCharacter =>
    obtain rfl := hp.eq_outside
    exact ⟨.outside, [], rfl, openings_noCharacter E, count_of_output_ne (by decide) rfl byRule _⟩
  | spacing | comment =>
    obtain rfl := hp.eq_outside
    obtain ⟨new, ho, hb⟩ := openings_separator rest E
    exact ⟨.outside, new, rfl, ho, count_of_output_ne (separator_ne rest) hb byRule _⟩
  | @reference name _ hn hc =>
    obtain rfl := hp.eq_outside
    obtain ⟨new, ho, hb⟩ := openings_refer name rest context hc E
    exact ⟨.outside, new, rfl, ho, count_of_output_ne (refer_ne name rest context) hb byRule _⟩
  | leadingModifier hn hl hp' =>
    obtain rfl := hp.eq_outside
    exact ⟨.outside, [], rfl, rfl, count_of_output_ne (by decide) rfl byRule _⟩
  | @laterModifier letters _ hn hl hp' =>
    obtain rfl := hp.eq_outside
    refine ⟨.outside, ['?' :: (letters ++ ')' :: E)], rfl, ?_,
      count_of_output_ne (by simp) rfl byRule _⟩
    simp only [List.cons_append, List.nil_append, List.append_assoc, openings_parenthesis]
    have hplain : ∀ d ∈ letters, isPlain d = true :=
      fun d hd => isPlain_of_test (by decide) (hl d hd)
    rw [openings_plain_cons (by decide), openings_plain hplain, openings_plain_cons (by decide)]
  | @named tag name _ ht hn hc hd =>
    obtain rfl := hp.eq_outside
    have hdecl : (Segment.mk (tag ++ name ++ ['>']) ['('] byRule .outsideClass).declares rest =
        true := by
      rcases ht with rfl | rfl <;> simp [Segment.declares]
    have h := countP_parenthesis E _ hdecl
    exact ⟨.outside, [E], rfl, rfl, by rw [h]; simp [Context.push]; omega⟩
  | special he =>
    obtain rfl := hp.eq_outside
    have hE := ha.question rfl
    exact ⟨.outside, [E], rfl, rfl, by simp [Segment.declares, Opening.isBare, hE]⟩
  | uncaptured hr hf =>
    obtain rfl := hp.eq_outside
    exact ⟨.outside, ['?' :: ':' :: E], rfl, rfl, count_of_output_ne (by decide) rfl byRule _⟩
  | group hr hf =>
    obtain rfl := hp.eq_outside
    have hdecl : (Segment.mk ['('] ['('] byRule .outsideClass).declares rest = true := by
      simpa [Segment.declares] using hr
    have h := countP_parenthesis E _ hdecl
    exact ⟨.outside, [E], rfl, rfl, by rw [h]; simp [Context.push]; omega⟩
  | sign hs' =>
    refine ⟨.inside 0, [], rfl, ?_, ?_⟩
    · rcases hs' with rfl | rfl | rfl <;> exact hp.openings_backslash _
    · refine count_of_output_ne ?_ rfl byRule _
      rcases hs' with rfl | rfl | rfl <;> decide
  | unit hr hn hl =>
    rcases hs with rfl | rfl
    · rw [BaselineToken.length_insideClass] at hl
      exact ⟨.inside 0, [], rfl, openings_unit_inside hn hl hp ha,
        by simp [Segment.declares, Scope.insideClass, Scope.outsideClass]⟩
    · obtain rfl := hp.eq_outside
      rw [BaselineToken.length_outsideClass] at hl
      obtain ⟨new, ho, hb⟩ := openings_unit_outside hn hl ha
      refine ⟨.outside, new, rfl, ho, count_of_output_ne ?_ hb byRule _⟩
      rintro rfl
      exact ne_parenthesis_of_not_firing hr rfl
  | @char _ d _ hr hl =>
    rcases hs with rfl | rfl
    · obtain ⟨q, hq, ho⟩ := openings_char_inside hr hl hp ha
      exact ⟨q, [], hq, ho, by simp [Segment.declares, Scope.insideClass, Scope.outsideClass]⟩
    · obtain rfl := hp.eq_outside
      obtain ⟨q, hq, ho⟩ := openings_char_outside hr hl ha
      exact ⟨q, [], hq, ho, count_of_output_ne (by simpa using ne_parenthesis_of_not_firing hr)
        rfl byRule _⟩

theorem Reads.output_eq (h : Reads position context scope source rest output after c)
    {d : Char} {t : Text} (ht : source ++ rest = d :: t) (hb : Unicode.isBlank d = false)
    (hd : d ∉ ['(', '[', '\\', '.', '#', '&', '~']) :
    output = source ∧ (BaselineToken.length scope (source ++ rest) = source.length ∨
      BaselineToken.length scope (source ++ rest) = 0) := by
  have hne : ∀ e ∈ ['(', '[', '\\', '.', '#', '&', '~'], ∀ u v : Text, e :: u ++ v ≠ d :: t := by
    intro e he u v heq
    obtain ⟨rfl, -⟩ := List.cons.inj heq
    exact hd he
  cases h with
  | unit hr hn hl => exact ⟨rfl, .inl hl⟩
  | char hr hl => exact ⟨rfl, .inr hl⟩
  | spacing hx hn hl =>
    rw [ht, spacingLength_of_not_blank hb (by rintro rfl; simp at hd)] at hl
    exact absurd hl.symm (by simpa using hn)
  | dot | leadingModifier | laterModifier | noCharacter | anyCharacter | reference | comment
    | special | uncaptured | group => exact absurd ht (hne _ (by simp) _ _)
  | named ht' =>
    rcases ht' with rfl | rfl
    · exact absurd ht (hne _ (by simp) _ _)
    · exact absurd ht (hne _ (by simp) _ _)
  | sign hs =>
    rcases hs with rfl | rfl | rfl
    · exact absurd ht (hne _ (by simp) _ _)
    · exact absurd ht (hne _ (by simp) _ _)
    · exact absurd ht (hne _ (by simp) _ _)

/-- Only elided syntax in front of a quantifier lets a character come next that was not next before,
when it is none of those that the rules begin their output with. -/
theorem Reads.of_head (h : Reads position context scope source rest output after c)
    (hp : position ≠ 0) {d : Char}
    (hd : d ∉ ['(', '[', '\\', 'k']) (hE : (output ++ E).head? = some d) :
    output = source ∨ output = [] ∧ after = .outsideClass ∧
      BaselineToken.startsWithQuantifier rest = true := by
  have written : ∀ e ∈ ['(', '[', '\\', 'k'], ∀ u : Text, (e :: u ++ E).head? ≠ some d := by
    rintro e he u hu
    obtain rfl : e = d := by simpa using hu
    exact hd he
  cases h with
  | unit | char => exact .inl rfl
  | spacing | comment =>
    rw [separator] at hE ⊢
    split at hE
    · next hq => exact .inr ⟨if_pos hq, rfl, hq⟩
    · exact absurd hE (written _ (by simp) _)
  | leadingModifier _ _ hp' => exact absurd hp' hp
  | laterModifier => exact .inl rfl
  | @reference name =>
    rcases refer_shapes name rest context with ⟨_, _, _, hrefer, -, -⟩ | hrefer
    · exact absurd (hrefer ▸ hE) (written _ (by simp) _)
    · exact absurd (hrefer ▸ hE) (written _ (by simp) _)
  | sign hs =>
    rcases hs with rfl | rfl | rfl
    · exact absurd hE (written _ (by simp) _)
    · exact absurd hE (written _ (by simp) _)
    · exact absurd hE (written _ (by simp) _)
  | dot | noCharacter | anyCharacter | named | special | uncaptured | group =>
    exact absurd hE (written _ (by simp) _)

theorem Reads.mem_source (h : Reads position context scope source rest output after c)
    (hm : '}' ∈ output) :
    '}' ∈ source := by
  have hsep : '}' ∉ separator rest := by
    rw [separator]
    split <;> decide
  cases h with
  | unit | char | laterModifier => exact hm
  | spacing | comment => exact absurd hm hsep
  | @reference name =>
    rcases refer_shapes name rest context with ⟨d, ds, a, hrefer, hdigit, ha⟩ | hrefer
    · rw [hrefer, List.cons_append, List.mem_cons, List.mem_append] at hm
      rcases hm with hm | hm | hm
      · exact absurd hm (by decide)
      · exact absurd (hdigit _ hm) (by decide)
      · rcases ha with rfl | rfl <;> exact absurd hm (by decide)
    · rw [hrefer] at hm
      simp only [List.mem_append, List.mem_cons, List.not_mem_nil, or_false] at hm ⊢
      rcases hm with ((hm | hm) | hm) | hm
      · exact absurd hm (by decide)
      · exact absurd hm (by decide)
      · exact .inl (.inr hm)
      · exact absurd hm (by decide)
  | sign hs => rcases hs with rfl | rfl | rfl <;> exact absurd hm (by decide)
  | dot | noCharacter | anyCharacter | leadingModifier | named | special | uncaptured | group =>
    exact absurd hm (by simp [Builtin.anyCharacter, Builtin.noCharacter])

end Builtin

namespace BaselineToken

theorem outside_repeat {c : Char} (hc : isRepeatSign c = true) (v : Text) :
    outside (c :: v) = withLazyMark (c :: v) 1 := by
  simp only [isRepeatSign, Bool.or_eq_true, beq_iff_eq] at hc
  rcases hc with (rfl | rfl) | rfl <;> rfl

theorem counted_le_outside {t : Text} (h : counted t ≠ 0) : counted t ≤ outside t := by
  obtain ⟨a, r, heq, -, -⟩ := exists_of_counted h
  have hout : outside t = withLazyMark t (counted t) := by
    generalize a ++ '}' :: r = u at heq
    subst heq
    simp [outside, isRepeatSign, h]
  rw [hout]
  exact le_withLazyMark _ _

theorem not_mem_of_braced {r : Text} (h : braced (· != '}') ('\x7b' :: r) = 0) : '}' ∉ r := by
  intro hm
  obtain ⟨a, b, rfl, ha, hb⟩ := Text.exists_run (· != '}') r
  cases b with
  | nil => simpa using ha '}' (by simpa using hm)
  | cons d b =>
    obtain rfl : d = '}' := by simpa using hb
    rw [braced_of_closed ha (by decide)] at h
    exact absurd h (by simp)

end BaselineToken

open BaselineToken in
theorem Builtin.Reads.of_quantifier {position : Nat} {context c : Context}
    {source rest output : Text} {after : Scope}
    (h : Reads position context .outsideClass source rest output after c) (hn : source ≠ [])
    (hq : startsWithQuantifier (source ++ rest) = true) :
    output = source ∧ outside (source ++ rest) = source.length ∧ after = .outsideClass := by
  obtain ⟨d, r, rfl⟩ := List.exists_cons_of_ne_nil hn
  have hafter := h.scopeAfter_eq (.inr rfl) false
  have hd : outside (d :: r ++ rest) ≠ 0 ∧ d ∈ ['?', '*', '+', '\x7b'] := by
    simp only [List.cons_append, startsWithQuantifier, Bool.or_eq_true, bne_iff_ne, ne_eq] at hq ⊢
    rcases hq with hq | hq
    · have hle := le_withLazyMark (d :: (r ++ rest)) 1
      rw [← outside_repeat hq] at hle
      simp only [isRepeatSign, Bool.or_eq_true, beq_iff_eq, or_assoc] at hq
      exact ⟨by omega, by rcases hq with rfl | rfl | rfl <;> simp⟩
    · have hle := counted_le_outside hq
      obtain ⟨_, _, heq, -, -⟩ := exists_of_counted hq
      exact ⟨by omega, by simp [(List.cons.inj heq).1]⟩
  obtain ⟨hpos, hd⟩ := hd
  have hsign : Unicode.isBlank d = false ∧ d ∉ ['(', '[', '\\', '.', '#', '&', '~'] ∧
      Scope.outsideClass.after d = .outsideClass := by
    simp only [List.mem_cons, List.not_mem_nil, or_false] at hd
    rcases hd with rfl | rfl | rfl | rfl <;> decide
  obtain ⟨hout, hlen⟩ := h.output_eq (t := r ++ rest) rfl hsign.1 hsign.2.1
  rw [length_outsideClass] at hlen
  refine ⟨hout, hlen.resolve_right hpos, ?_⟩
  rw [hafter]
  cases r with
  | nil => exact hsign.2.2
  | cons => rfl

namespace Run

variable {pattern : Text} {s t : ScanState} {l : List Segment}

theorem emitted_of_nil (run : Run Builtin.lookup pattern s l t) (h : s.rest = []) :
    Segment.emitted l = [] := by
  cases run with
  | done => rfl
  | round hs _ =>
    have hr := rest_of_step hs
    rw [h] at hr
    exact absurd (List.append_eq_nil_iff.1 hr.1).1 hr.2.1

/-- Bounds in braces that a piece of the scan starts with are copied. -/
theorem emitted_of_quantifier (run : Run Builtin.lookup pattern s l t)
    (hs : s.scope = .outsideClass) (hq : BaselineToken.startsWithQuantifier s.rest = true)
    (hb : (Segment.emitted l).head? = some '\x7b') :
    ∃ a u, Segment.emitted l = '\x7b' :: (a ++ '}' :: u) ∧ ∀ c ∈ a, c.isDigit = true ∨ c = ',' := by
  cases run with
  | done => simp [Segment.emitted] at hb
  | @round _ s' _ piece l' hstep run =>
    obtain ⟨hrest, hne, -, hscope⟩ := rest_of_step hstep
    obtain ⟨hreads, -⟩ := Builtin.reads_of_step (.inr hs) hstep
    rw [hs] at hreads
    obtain ⟨hout, hlen, -⟩ := hreads.of_quantifier hne (by rw [hrest]; exact hq)
    obtain ⟨d, r, hsource⟩ := List.exists_cons_of_ne_nil hne
    obtain rfl : d = '\x7b' := by simpa [Segment.emitted, hout, hsource] using hb
    have hc : BaselineToken.counted s.rest ≠ 0 := by
      rw [← hrest, hsource, List.cons_append] at hq ⊢
      simpa [BaselineToken.startsWithQuantifier, show BaselineToken.isRepeatSign '\x7b' =
        false by decide] using hq
    obtain ⟨a, u, heq, ha, hk⟩ := BaselineToken.exists_of_counted hc
    have hle := BaselineToken.counted_le_outside hc
    rw [hrest] at hlen
    have hprefix : '\x7b' :: (a ++ ['}']) <+: piece.source := by
      have hbraces : '\x7b' :: (a ++ ['}']) <+: s.rest := ⟨u, by simp [heq]⟩
      refine List.prefix_of_prefix_length_le hbraces ⟨_, hrest⟩ ?_
      simp only [List.length_cons, List.length_append, List.length_nil]
      omega
    obtain ⟨v, hv⟩ := hprefix
    exact ⟨a, v ++ Segment.emitted l', by simp [Segment.emitted, hout, ← hv], ha⟩

theorem mem_of_mem_emitted (run : Run Builtin.lookup pattern s l t)
    (hs : s.scope = .insideClass ∨ s.scope = .outsideClass) (h : '}' ∈ Segment.emitted l) :
      '}' ∈ s.rest := by
  induction run with
  | done => exact absurd h (by simp [Segment.emitted])
  | round hstep _ ih =>
    obtain ⟨hrest, -⟩ := rest_of_step hstep
    obtain ⟨hreads, -⟩ := Builtin.reads_of_step hs hstep
    rw [Segment.emitted, List.flatMap_cons, List.mem_append] at h
    rw [← hrest, List.mem_append]
    exact h.imp hreads.mem_source (ih (hreads.scope_after hs))

/-- Braces that only come up in what a run emits are the bounds of a quantifier. -/
theorem bounds_of_braced (run : Run Builtin.lookup pattern s l t)
    (hs : s.scope = .insideClass ∨ s.scope = .outsideClass) (hp : s.position ≠ 0)
    (h₀ : BaselineToken.braced (· != '}') s.rest = 0)
    (h : BaselineToken.braced (· != '}') (Segment.emitted l) ≠ 0) :
    ∃ a u, Segment.emitted l = '\x7b' :: (a ++ '}' :: u) ∧ ∀ c ∈ a, c.isDigit = true ∨ c = ',' := by
  obtain ⟨name, after, heq, -, -⟩ := exists_of_braced h
  cases run with
  | done => simp [Segment.emitted] at heq
  | @round _ s' _ piece l' hstep run =>
    obtain ⟨hrest, hne, -⟩ := rest_of_step hstep
    obtain ⟨hreads, -⟩ := Builtin.reads_of_step hs hstep
    have hhead : (piece.output ++ Segment.emitted l').head? = some '\x7b' := by
      have h := congrArg List.head? heq
      simpa [Segment.emitted] using h
    rcases hreads.of_head hp (by decide) hhead with hout | ⟨hout, hscope, hq⟩
    · -- The brace was next before, so no brace after it closes it.
      obtain ⟨d, r, hsource⟩ := List.exists_cons_of_ne_nil hne
      obtain rfl : d = '\x7b' := by simpa [hout, hsource] using hhead
      have hmem := (Run.round hstep run).mem_of_mem_emitted hs (by rw [heq]; simp)
      rw [← hrest, hsource] at h₀ hmem
      exact absurd (by simpa using hmem) (BaselineToken.not_mem_of_braced h₀)
    · have hemit : Segment.emitted (piece :: l') = Segment.emitted l' := by
        simp [Segment.emitted, hout]
      rw [hemit]
      rw [hout, List.nil_append] at hhead
      exact run.emitted_of_quantifier hscope hq hhead

theorem trails (run : Run Builtin.lookup pattern s l t)
    (hs : s.scope = .insideClass ∨ s.scope = .outsideClass)
    (hp : s.position ≠ 0) : Trails s.rest (Segment.emitted l) where
  nil := run.emitted_of_nil
  bounds := run.bounds_of_braced hs hp

end Run

end RegexDialect
