import RegexDialect.Proofs.Blanks
import RegexDialect.Proofs.Rounds

/-! How far a piece of the scan looks ahead. In front of a character that elided syntax or a
quantifier starts with, a text is taken apart as it is on its own, unless it ends in the middle of
something. -/
namespace RegexDialect
namespace BaselineToken

def isStop (d : Char) : Bool :=
  d == '(' || d == '#' || d == '\x7b' || isRepeatSign d || Unicode.isBlank d

theorem ne_of_isStop {c d : Char} (hd : isStop d = true) (hc : isStop c = false) :
    d ≠ c := Text.ne_of_test hd hc

theorem isWord_of_isStop {d : Char} (h : isStop d = true) : Unicode.isWord d = false := by
  simp only [isStop, isRepeatSign, Bool.or_eq_true, beq_iff_eq] at h
  rcases h with (((rfl | rfl) | rfl) | (rfl | rfl) | rfl) | h
  · decide
  · decide
  · decide
  · decide
  · decide
  · decide
  · exact Unicode.isWord_of_isBlank h

theorem isNameChar_of_isStop {d : Char} (h : isStop d = true) : Builtin.isNameChar d = false := by
  have hd : d ≠ '$' := ne_of_isStop h (by decide)
  simp [Builtin.isNameChar, hd, isWord_of_isStop h]

theorem isAlphanum_iff {c : Char} : c.isAlphanum = true ↔
    (65 ≤ c.toNat ∧ c.toNat ≤ 90) ∨ (97 ≤ c.toNat ∧ c.toNat ≤ 122) ∨
      (48 ≤ c.toNat ∧ c.toNat ≤ 57) := by
  have hupper : c.isUpper = decide ('A'.val ≤ c.val ∧ c.val ≤ 'Z'.val) := rfl
  have hlower : c.isLower = (decide ('a'.val ≤ c.val) && decide (c.val ≤ 'z'.val)) := rfl
  have hall : c.isAlphanum = (c.isUpper || c.isLower || c.isDigit) := rfl
  rw [hall, hupper, hlower]
  simp only [Bool.or_eq_true, Bool.and_eq_true, decide_eq_true_eq, UInt32.le_iff_toNat_le, or_assoc,
    Char.isDigit_iff_toNat]
  rfl

theorem toNat_lt_of_isAlphanum {c : Char} (h : c.isAlphanum = true) : c.toNat < 128 := by
  have := isAlphanum_iff.1 h
  omega

theorem isAlphanum_of_isStop {d : Char} (h : isStop d = true) : d.isAlphanum = false := by
  have hw := isWord_of_isStop h
  cases hd : d.isAlphanum with
  | false => rfl
  | true =>
    rw [Unicode.isWord_of_ascii (toNat_lt_of_isAlphanum hd), hd] at hw
    exact absurd hw (by simp)

theorem isAlphanum_of_isHexDigit {c : Char} (h : Text.isHexDigit c = true) :
    c.isAlphanum = true := by
  simp only [Text.isHexDigit, Bool.or_eq_true, Bool.and_eq_true, decide_eq_true_eq, Char.le_def,
    UInt32.le_iff_toNat_le, Char.isDigit_iff_toNat] at h
  have hc : c.toNat = c.val.toNat := rfl
  have h0 : '0'.toNat = 48 := rfl
  have h9 : '9'.toNat = 57 := rfl
  have ha : 'a'.val.toNat = 97 := rfl
  have hf : 'f'.val.toNat = 102 := rfl
  have hA : 'A'.val.toNat = 65 := rfl
  have hF : 'F'.val.toNat = 70 := rfl
  rw [isAlphanum_iff]
  omega

theorem isDigit_of_isOctal {c : Char} (h : isOctal c = true) : c.isDigit = true := by
  have h7 : '7'.val.toNat = 55 := rfl
  have h9 : '9'.val.toNat = 57 := rfl
  simp only [isOctal, Bool.and_eq_true, decide_eq_true_eq, Char.le_def, UInt32.le_iff_toNat_le] at h
  simp only [Char.isDigit, Bool.and_eq_true, decide_eq_true_eq, UInt32.le_iff_toNat_le, ge_iff_le]
  exact ⟨h.1, by omega⟩

theorem not_in_run_of_isStop {d : Char} (h : isStop d = true) :
    d.isDigit = false ∧ d.isAlpha = false ∧ isOctal d = false ∧ Text.isHexDigit d = false := by
  have ha := isAlphanum_of_isStop h
  have ho : isOctal d = false := by
    cases hd : isOctal d with
    | false => rfl
    | true => simp [Char.isAlphanum, isDigit_of_isOctal hd] at ha
  have hx : Text.isHexDigit d = false := by
    cases hd : Text.isHexDigit d with
    | false => rfl
    | true => simp [isAlphanum_of_isHexDigit hd] at ha
  simp only [Char.isAlphanum, Bool.or_eq_false_iff] at ha
  exact ⟨ha.2, ha.1, ho, hx⟩

theorem isModifier_of_isStop {d : Char} (h : isStop d = true) : Builtin.isModifier d = false := by
  have ha := (not_in_run_of_isStop h).2.1
  cases hm : Builtin.isModifier d with
  | false => rfl
  | true => simp [Builtin.isAlpha_of_isModifier hm] at ha

section Append

variable {p : Char → Bool} {d : Char} {t u : Text}

theorem run_append (h : p d = false) (t u : Text) : run p (t ++ d :: u) = run p t := by
  induction t with
  | nil => simp [run, h]
  | cons c t ih =>
    simp only [run] at ih
    by_cases hc : p c = true <;> simp [run, hc, ih]

theorem runUpTo_append (h : p d = false) (n : Nat) (t u : Text) :
    runUpTo n p (t ++ d :: u) = runUpTo n p t := by
  induction t generalizing n with
  | nil => cases n <;> simp [runUpTo, run, h]
  | cons c t ih =>
    cases n with
    | zero => rfl
    | succ n =>
      have ih := ih n
      simp only [runUpTo, run] at ih
      by_cases hc : p c = true <;> simp [runUpTo, run, hc, ih]

theorem octalAfter_append (hd : isStop d = true) (c : Char) (t u : Text) :
    octalAfter c (t ++ d :: u) = octalAfter c t := by
  have h := (not_in_run_of_isStop hd).2.2.1
  simp only [octalAfter, runUpTo_append h]

theorem braced_append (h : p d = false) (hd : isStop d = true) (hn : t ≠ []) (u : Text) :
    braced p (t ++ d :: u) = braced p t := by
  obtain ⟨c, t, rfl⟩ := List.exists_cons_of_ne_nil hn
  by_cases hc : c = '\x7b'
  · subst hc
    have hb := ne_of_isStop hd (show isStop '}' = false by decide)
    have hle : run p t ≤ t.length := run_le p t
    simp only [List.cons_append, braced, run_append h, List.drop_append_of_le_length hle]
    cases hdrop : t.drop (run p t) with
    | nil => simp [hb]
    | cons e r => by_cases he : e = '}' <;> simp [he]
  · simp [braced, hc]

theorem braced_append_of_ne_zero (hp : p '}' = false) (hb : braced p t ≠ 0) (v : Text) :
    braced p (t ++ v) = braced p t := by
  unfold braced at hb
  split at hb
  · next r =>
    obtain ⟨a, b, rfl, ha, hb'⟩ := Text.exists_run p r
    have hrun : run p (a ++ b) = a.length := by rw [run, Text.takeWhile_run ha hb']
    simp only [hrun, List.drop_left] at hb
    split at hb
    · next b' =>
      have hrun' : run p (a ++ '}' :: b' ++ v) = a.length := by
        rw [run, List.append_assoc, Text.takeWhile_run ha (by simpa using hp)]
      simp only [List.cons_append, braced, hrun, hrun']
      simp [List.append_assoc]
    · exact absurd rfl hb
  · exact absurd rfl hb

/-- An escape reads as far as before, when it does not wait for a brace. -/
theorem commonEscape_append {c : Char} (hd : isStop d = true)
    (hw : c ∈ ['p', 'P', 'x'] → commonEscape (c :: t) = 1 → t ≠ [] ∧ t.head? ≠ some '\x7b')
    (u : Text) :
    commonEscape (c :: t ++ d :: u) = commonEscape (c :: t) := by
  obtain ⟨-, halpha, -, hhex⟩ := not_in_run_of_isStop hd
  have hx₁ := @runUpTo_append _ _ hhex 2 t u
  have hx₂ := @runUpTo_append _ _ hhex 4 t u
  have hx₃ := @runUpTo_append _ _ halpha 1 t u
  by_cases hp : c = 'p' ∨ c = 'P'
  · by_cases hb : braced (· != '}') t = 0
    · have hone : commonEscape (c :: t) = 1 := by
        rcases hp with rfl | rfl <;> simp [commonEscape, hb]
      obtain ⟨hn, hh⟩ := hw (by rcases hp with rfl | rfl <;> simp) hone
      obtain ⟨e, r, rfl⟩ := List.exists_cons_of_ne_nil hn
      have he : e ≠ '\x7b' := by simpa using hh
      have hb' : braced (· != '}') (e :: r ++ d :: u) = 0 := by simp [braced, he]
      rw [hone]
      rcases hp with rfl | rfl <;> simp_all [commonEscape]
    · have hb' := braced_append_of_ne_zero (by decide) hb (d :: u)
      rcases hp with rfl | rfl <;> simp [commonEscape, hb, hb']
  · rw [not_or] at hp
    by_cases hx : c = 'x'
    · subst hx
      have hn : t ≠ [] := by
        rintro rfl
        exact (hw (by simp) (by decide)).1 rfl
      have hb := braced_append hhex hd hn u
      simp [commonEscape, hb, hx₁]
    · simp [commonEscape, hp, hx, hx₂, hx₃]

theorem classEscape_append {c : Char} (hd : isStop d = true)
    (hw : c ∈ ['p', 'P', 'x'] → classEscape (c :: t) = 1 → t ≠ [] ∧ t.head? ≠ some '\x7b')
    (u : Text) :
    classEscape (c :: t ++ d :: u) = classEscape (c :: t) := by
  by_cases ho : isOctal c = true
  · simp [classEscape, ho, octalAfter_append hd]
  · simp only [List.cons_append, classEscape, ho] at hw ⊢
    exact commonEscape_append hd hw u

theorem outerEscape_append {c : Char} (hd : isStop d = true)
    (hw : c ∈ ['p', 'P', 'x'] → outerEscape (c :: t) = 1 → t ≠ [] ∧ t.head? ≠ some '\x7b')
    (u : Text) :
    outerEscape (c :: t ++ d :: u) = outerEscape (c :: t) := by
  obtain ⟨hdigit, -, hoctal, -⟩ := not_in_run_of_isStop hd
  by_cases h0 : c = '0'
  · subst h0
    cases t with
    | nil => simp [outerEscape, hoctal]; decide
    | cons e r => simp [outerEscape, octalAfter_append hd]
  · have hout : ∀ v, outerEscape (c :: v) =
        if c.isDigit && c != '0' then 1 + run Char.isDigit v else commonEscape (c :: v) := by
      intro v
      rw [outerEscape]
      rintro - - h
      exact absurd h h0
    rw [List.cons_append, hout, hout]
    rw [hout] at hw
    by_cases hc : c.isDigit = true
    · simp [hc, h0, run_append hdigit]
    · simp only [hc, Bool.false_and, Bool.false_eq_true, if_false] at hw ⊢
      exact commonEscape_append hd hw u

theorem counted_append (hd : isStop d = true) (hn : t ≠ []) (u : Text) :
    counted (t ++ d :: u) = counted t := by
  obtain ⟨hdigit, -⟩ := not_in_run_of_isStop hd
  have hb := ne_of_isStop hd (show isStop '}' = false by decide)
  have hc := ne_of_isStop hd (show isStop ',' = false by decide)
  obtain ⟨c, t, rfl⟩ := List.exists_cons_of_ne_nil hn
  by_cases hbrace : c = '\x7b'
  · subst hbrace
    have hle : run Char.isDigit t ≤ t.length := run_le _ t
    simp only [List.cons_append, counted, run_append hdigit, List.drop_append_of_le_length hle]
    cases hdrop : t.drop (run Char.isDigit t) with
    | nil => simp [hb, hc]
    | cons e r =>
      by_cases he : e = ','
      · subst he
        have hle : run Char.isDigit r ≤ r.length := run_le _ r
        simp only [List.cons_append, run_append hdigit, List.drop_append_of_le_length hle]
        cases hdrop' : r.drop (run Char.isDigit r) with
        | nil => simp [hb]
        | cons f r' => by_cases hf : f = '}' <;> simp [hf]
      · by_cases hf : e = '}' <;> simp [he, hf]
  · simp [counted, hbrace]

theorem startsWithQuantifier_append (hd : isStop d = true) (hn : t ≠ []) (u : Text) :
    startsWithQuantifier (t ++ d :: u) = startsWithQuantifier t := by
  have hc := counted_append hd hn u
  obtain ⟨c, t, rfl⟩ := List.exists_cons_of_ne_nil hn
  simp only [List.cons_append] at hc
  simp [startsWithQuantifier, hc]

theorem withLazyMark_append {n : Nat} (hn : n < t.length) (v : Text) :
    withLazyMark (t ++ v) n = withLazyMark t n := by
  have hdrop : t.drop n ≠ [] := by simpa using hn
  rw [withLazyMark, withLazyMark, List.drop_append_of_le_length (Nat.le_of_lt hn)]
  cases hd : t.drop n with
  | nil => exact absurd hd hdrop
  | cons e r => by_cases he : e = '?' <;> simp [he]

end Append

end BaselineToken

namespace Segment

/-- Whether a piece can be the last one of a quantifiable atom: an escape, an empty class, or a
character other than an opening parenthesis and a quantifier. -/
def endsAtom (s : Segment) : Bool :=
  match s.source with
  | ['\\'] | ['\\', 'p'] | ['\\', 'P'] | ['\\', 'x'] => false
  | '\\' :: _ => true
  | [c] => (c == '.' || s.output == [c]) && c != '(' && !BaselineToken.isRepeatSign c
  | source => source == ['[', ']'] || source == ['[', '^', ']']

/-- Whether a piece starts something that the text after it does not close: an escape with braces or
a comment. -/
def leftOpen (s : Segment) (rest : Text) : Bool :=
  [['\\', 'p'], ['\\', 'P'], ['\\', 'x']].contains s.source && rest.head? == some '\x7b' ||
    s.source == ['('] && s.scope == .outsideClass &&
      (Text.startsWith rest ['?', '#'] || rest == ['?'])

def mayGrow (s : Segment) (rest : Text) : Bool :=
  if rest.isEmpty then !s.endsAtom else s.leftOpen rest

end Segment

namespace Builtin

open BaselineToken

variable {d : Char} {t u : Text} {context : Context}

theorem exists_append_of_not_mem {token after : Text} (h : t ++ d :: u = token ++ after)
    (hd : d ∉ token) :
    ∃ m, t = token ++ m ∧ after = m ++ d :: u := by
  rcases List.append_eq_append_iff.1 h with ⟨m, ht, hm⟩ | ⟨m, ht, hm⟩
  · cases m with
    | nil => exact ⟨[], by simpa using ht.symm, by simpa using hm.symm⟩
    | cons e m =>
      obtain ⟨rfl, -⟩ := List.cons.inj hm
      exact absurd (by simp [ht]) hd
  · exact ⟨m, ht, hm⟩

theorem not_mem_of_forall {p : Char → Bool} {name : Text} (hd : p d = false)
    (h : ∀ c ∈ name, p c = true) :
    d ∉ name := fun hm => by simp [h d hm] at hd

theorem spacingLength_append {inComment : Bool} (h : spacingLength inComment t < t.length)
    (v : Text) :
    spacingLength inComment (t ++ v) = spacingLength inComment t := by
  induction t generalizing inComment with
  | nil => simp at h
  | cons c t ih =>
    cases inComment with
    | true =>
      simp only [spacingLength, List.length_cons, List.cons_append] at h ⊢
      rw [ih (by omega)]
    | false =>
      simp only [spacingLength, List.length_cons, List.cons_append] at h ⊢
      split
      · next hb =>
        rw [if_pos hb] at h
        rw [ih (by omega)]
      · next hb =>
        rw [if_neg hb] at h
        split
        · next hc =>
          rw [if_pos hc] at h
          rw [ih (by omega)]
        · rfl

theorem recognizeRun_append {p : Char → Bool} {head : Text} {closing : Char}
    (hp : p closing = false) (hd : p d = false) (hc : d ≠ closing) (hh : d ∉ head)
    (h : recognizeRun head p closing t = none) :
    recognizeRun head p closing (t ++ d :: u) = none := by
  rw [Option.eq_none_iff_forall_not_mem]
  intro r hr
  obtain ⟨name, after, ht, hn, hname, rfl⟩ := (recognizeRun_eq_some_iff hp).1 (Option.mem_def.1 hr)
  have hnot : d ∉ head ++ name ++ [closing] := by simp [hh, hc, not_mem_of_forall hd hname]
  obtain ⟨m, rfl, -⟩ :=
    @exists_append_of_not_mem d t u (head ++ name ++ [closing]) after (by simpa using ht) hnot
  rw [(recognizeRun_eq_some_iff hp).2 ⟨name, m, by simp, hn, hname, rfl⟩] at h
  exact absurd h (by simp)

theorem recognizeRun_append_of_head {p : Char → Bool} {head : Text} {closing : Char}
    (hp : p closing = false)
    (hd : p d = false) (hc : d ≠ closing) (h : recognizeRun head p closing (head ++ t) = none) :
    recognizeRun head p closing (head ++ (t ++ d :: u)) = none := by
  rw [Option.eq_none_iff_forall_not_mem]
  intro r hr
  obtain ⟨name, after, ht, hn, hname, rfl⟩ := (recognizeRun_eq_some_iff hp).1 (Option.mem_def.1 hr)
  have hnot : d ∉ name ++ [closing] := by simp [hc, not_mem_of_forall hd hname]
  have ht := List.append_cancel_left ht
  obtain ⟨m, rfl, -⟩ :=
    @exists_append_of_not_mem d t u (name ++ [closing]) after (by simpa using ht) hnot
  rw [(recognizeRun_eq_some_iff hp).2 ⟨name, m, by simp, hn, hname, rfl⟩] at h
  exact absurd h (by simp)

/-- A class that is not empty is not empty with more text after a stop. -/
theorem recognize_emptyClass_append (hd : isStop d = true) (hn : t ≠ [])
    (h : emptyClass.recognize t = none) (u : Text) : emptyClass.recognize (t ++ d :: u) = none := by
  have h₁ := ne_of_isStop hd (show isStop ']' = false by decide)
  have h₂ := ne_of_isStop hd (show isStop '^' = false by decide)
  obtain ⟨c, t, rfl⟩ := List.exists_cons_of_ne_nil hn
  by_cases hc : c = '['
  · subst hc
    rcases t with _ | ⟨e, _ | ⟨f, t⟩⟩
    · simp [recognize, h₁, h₂]
    · by_cases he : e = ']'
      · subst he
        simp [recognize] at h
      · simp [recognize, he, h₁]
    · by_cases he : e = ']'
      · subst he
        simp [recognize] at h
      · by_cases hf : e = '^' ∧ f = ']'
        · obtain ⟨rfl, rfl⟩ := hf
          simp [recognize] at h
        · simp [recognize, he]
          grind
  · simp [recognize, hc]

/-- Where no rule fires, none fires with more text after a stop. -/
theorem firing?_append_outside (hd : isStop d = true) (hn : t ≠ [])
    (h : firing? t .outsideClass context = none) (u : Text) :
    firing? (t ++ d :: u) .outsideClass context = none := by
  have hnone := firing?_eq_none_iff.1 h
  obtain ⟨c, t, rfl⟩ := List.exists_cons_of_ne_nil hn
  have off : ∀ b : Builtin, b ≠ classSign → b.awaits.all context.hasFlag = true →
      b.recognize (c :: t) = none := by
    intro b hb ha
    have hr := hnone b
    rwa [recognizeIn, isActive_outside, if_pos (by simp [hb, ha])] at hr
  have hp : c ≠ '(' := by
    rintro rfl
    exact absurd (off group (by decide) rfl) (by simp [recognize])
  refine firing?_eq_none_iff.2 fun b => ?_
  rw [recognizeIn, isActive_outside]
  split
  · next ha =>
    simp only [Bool.and_eq_true, bne_iff_ne] at ha
    have hoff := off b ha.1 ha.2
    cases b with
    | classSign => exact absurd rfl ha.1
    | group => simp [recognize, hp]
    | comment => simp [recognize, commentLength?, Text.dropHead?, hp.symm]
    | namedGroup => exact recognizeRun_of_not_opening (by simp [Text.dropHead?, hp.symm])
    | taggedGroup => exact recognizeRun_of_not_opening (by simp [Text.dropHead?, hp.symm])
    | modifier => exact recognizeRun_of_not_opening (by simp [Text.dropHead?, hp.symm])
    | dot =>
      have hc : c ≠ '.' := by
        rintro rfl
        simp [recognize] at hoff
      simp [recognize, hc]
    | spacing =>
      have hlen : spacingLength false (c :: t) = 0 := by simpa [recognize] using hoff
      have happ := @spacingLength_append (c :: t) false (by simp [hlen]) (d :: u)
      simp only [recognize, happ, hlen]
      rfl
    | emptyClass => exact recognize_emptyClass_append hd (by simp) hoff u
    | reference =>
      refine recognizeRun_append rfl (isNameChar_of_isStop hd) (ne_of_isStop hd (by decide)) ?_ hoff
      have h₁ := ne_of_isStop hd (show isStop '\\' = false by decide)
      have h₂ := ne_of_isStop hd (show isStop 'k' = false by decide)
      have h₃ := ne_of_isStop hd (show isStop '<' = false by decide)
      simp [h₁, h₂, h₃]
  · rfl

theorem firing?_append_inside (hd : isStop d = true) (hn : t ≠ [])
    (h : firing? t .insideClass context = none)
    (u : Text) : firing? (t ++ d :: u) .insideClass context = none := by
  have h₁ := ne_of_isStop hd (show isStop '&' = false by decide)
  have h₂ := ne_of_isStop hd (show isStop '~' = false by decide)
  have hoff : classSign.recognize t = none := by
    have hr := firing?_eq_none_iff.1 h classSign
    rwa [recognizeIn, isActive_inside, if_pos (by decide)] at hr
  refine firing?_eq_none_iff.2 fun b => ?_
  rw [recognizeIn, isActive_inside]
  split
  · next hb =>
    obtain rfl : b = classSign := by simpa using hb
    rcases t with _ | ⟨c, _ | ⟨e, t⟩⟩
    · exact absurd rfl hn
    · have hc : c ≠ '[' := by
        rintro rfl
        simp [recognize] at hoff
      simp [recognize, hc, h₁, h₂]
    · have hc : c ≠ '[' := by
        rintro rfl
        simp [recognize] at hoff
      have ha : ¬(c = '&' ∧ e = '&') := by
        rintro ⟨rfl, rfl⟩
        simp [recognize] at hoff
      have ht : ¬(c = '~' ∧ e = '~') := by
        rintro ⟨rfl, rfl⟩
        simp [recognize] at hoff
      simp only [List.cons_append, recognize]
      split <;> simp_all
  · rfl

end Builtin

namespace BaselineToken

variable {d : Char} {source rest u : Text}

/-- An escape that waits for a brace has text after it, and no brace. -/
theorem of_mayGrow_escape {c : Char} {t : Text} {byRule : Bool} {scope : Scope}
    (h : source ++ rest = '\\' :: c :: t) (hlen : source.length = 2)
    (hg : (Segment.mk source source byRule scope).mayGrow rest = false) (hc : c ∈ ['p', 'P', 'x']) :
    t ≠ [] ∧ t.head? ≠ some '\x7b' := by
  obtain ⟨a, b, rfl⟩ : ∃ a b, source = [a, b] := by
    cases source with
    | nil => exact absurd hlen (by simp)
    | cons a t =>
      obtain ⟨b, rfl⟩ := List.length_eq_one_iff.1 (Nat.succ.inj hlen)
      exact ⟨a, b, rfl⟩
  simp only [List.cons_append, List.nil_append, List.cons.injEq] at h
  obtain ⟨rfl, rfl, rfl⟩ := h
  simp only [List.mem_cons, List.not_mem_nil, or_false] at hc
  cases rest with
  | nil => rcases hc with rfl | rfl | rfl <;> simp [Segment.mayGrow, Segment.endsAtom] at hg
  | cons e r =>
    rcases hc with rfl | rfl | rfl <;> simpa [Segment.mayGrow, Segment.leftOpen] using hg

theorem ne_backslash_of_mayGrow {byRule : Bool} {scope : Scope} (hn : source ≠ [])
    (hg : (Segment.mk source source byRule scope).mayGrow rest = false) :
      source ++ rest ≠ ['\\'] := by
  intro h
  obtain ⟨a, t, rfl⟩ := List.exists_cons_of_ne_nil hn
  simp only [List.cons_append, List.cons.injEq, List.append_eq_nil_iff] at h
  obtain ⟨rfl, rfl, rfl⟩ := h
  simp [Segment.mayGrow, Segment.endsAtom] at hg

theorem outerEscape_pos (c : Char) (t : Text) : 0 < outerEscape (c :: t) := by
  have hcommon : ∀ v, 0 < commonEscape (c :: v) := by
    intro v
    simp only [commonEscape]
    repeat' split
    all_goals omega
  unfold outerEscape
  split
  · next h => simp at h
  · split <;> omega
  · next e r _ h =>
    obtain ⟨rfl, rfl⟩ := List.cons.inj h
    split
    · omega
    · exact hcommon _

theorem classEscape_pos (c : Char) (t : Text) : 0 < classEscape (c :: t) := by
  simp only [classEscape, octalAfter, commonEscape]
  repeat' split
  all_goals omega

theorem outside_backslash (c : Char) (v : Text) :
    outside ('\\' :: c :: v) = 1 + outerEscape (c :: v) := by
  have := outerEscape_pos c v
  simp only [outside]
  split <;> simp_all

theorem inClass_backslash (c : Char) (v : Text) :
    inClass ('\\' :: c :: v) = 1 + classEscape (c :: v) := by
  have := classEscape_pos c v
  simp only [inClass]
  split <;> simp_all

theorem inClass_append {byRule : Bool} (hd : isStop d = true) (hn : source ≠ [])
    (hl : inClass (source ++ rest) = source.length ∨ inClass (source ++ rest) = 0 ∧
      source.length = 1)
    (hg : (Segment.mk source source byRule .insideClass).mayGrow rest = false) (u : Text) :
    inClass (source ++ rest ++ d :: u) = inClass (source ++ rest) := by
  obtain ⟨a, t, ht⟩ := List.exists_cons_of_ne_nil (l := source ++ rest) (by simp [hn])
  by_cases ha : a = '\\'
  · subst ha
    cases t with
    | nil => exact absurd ht (ne_backslash_of_mayGrow hn hg)
    | cons c t =>
      have happ : classEscape (c :: t ++ d :: u) = classEscape (c :: t) := by
        refine classEscape_append hd (fun hc h1 => of_mayGrow_escape ht ?_ hg hc) u
        rw [ht, inClass_backslash, h1] at hl
        omega
      rw [ht, inClass_backslash, ← happ]
      exact inClass_backslash c (t ++ d :: u)
  · rw [ht]
    simp [inClass, ha]

/-- A quantifier that is all of the text would take a question mark after it; then its piece may
grow. -/
theorem withLazyMark_append_of_mayGrow {byRule : Bool} {a : Char} {t : Text} {n : Nat}
    (ht : source ++ rest = a :: t)
    (hlen : source.length = withLazyMark (a :: t) n ∨ source.length = 1 ∧
      withLazyMark (a :: t) n = 0)
    (h0 : 0 < n) (hle : n ≤ (a :: t).length)
    (hsign : isRepeatSign a = true ∧ n = 1 ∨ a = '\x7b' ∧ n ≠ 1)
    (hg : (Segment.mk source source byRule .outsideClass).mayGrow rest = false) (v : Text) :
    withLazyMark (a :: t ++ v) n = withLazyMark (a :: t) n := by
  refine withLazyMark_append (Nat.lt_of_le_of_ne hle fun hn => ?_) v
  have hmark : withLazyMark (a :: t) n = n := by
    rw [withLazyMark, List.drop_of_length_le (Nat.le_of_eq hn.symm)]
  obtain ⟨rfl, rfl⟩ : source = a :: t ∧ rest = [] := by
    have hlength := congrArg List.length ht
    rw [List.length_append] at hlength
    have hrest : rest = [] := List.length_eq_zero_iff.1 (by omega)
    subst hrest
    exact ⟨by simpa using ht, rfl⟩
  rcases hsign with ⟨hsign, h1⟩ | ⟨rfl, h1⟩
  · obtain rfl : t = [] := List.length_eq_zero_iff.1 (by simp only [List.length_cons] at hn; omega)
    have ha : a ≠ '\\' := Text.ne_of_test hsign (by decide)
    simp [Segment.mayGrow, Segment.endsAtom, hsign] at hg
  · cases t with
    | nil => exact h1 (by simpa using hn)
    | cons e r => simp [Segment.mayGrow, Segment.endsAtom] at hg

theorem counted_ne_one (t : Text) : counted t ≠ 1 := by
  unfold counted
  dsimp only
  repeat' split
  all_goals omega

theorem outside_append {byRule : Bool} (hd : isStop d = true) (hn : source ≠ [])
    (hp : (source ++ rest).head? ≠ some '(')
    (hl : outside (source ++ rest) = source.length ∨ outside (source ++ rest) = 0 ∧
      source.length = 1)
    (hg : (Segment.mk source source byRule .outsideClass).mayGrow rest = false) (u : Text) :
    outside (source ++ rest ++ d :: u) = outside (source ++ rest) := by
  obtain ⟨a, t, ht⟩ := List.exists_cons_of_ne_nil (l := source ++ rest) (by simp [hn])
  by_cases ha : a = '\\'
  · subst ha
    cases t with
    | nil => exact absurd ht (ne_backslash_of_mayGrow hn hg)
    | cons c t =>
      have happ : outerEscape (c :: t ++ d :: u) = outerEscape (c :: t) := by
        refine outerEscape_append hd (fun hc h1 => of_mayGrow_escape ht ?_ hg hc) u
        rw [ht, outside_backslash, h1] at hl
        omega
      rw [ht, outside_backslash, ← happ]
      exact outside_backslash c (t ++ d :: u)
  · have hq : a ≠ '(' := by simpa [ht] using hp
    have hout : ∀ v, outside (a :: v) = if isRepeatSign a then withLazyMark (a :: v) 1
        else if counted (a :: v) != 0 then withLazyMark (a :: v) (counted (a :: v)) else 0 := by
      intro v
      simp [outside, hq]
    have hcounted := @counted_append d (a :: t) hd (by simp) u
    rw [List.cons_append] at hcounted
    have lazy : ∀ n, outside (a :: t) = withLazyMark (a :: t) n → 0 < n → n ≤ (a :: t).length →
        (isRepeatSign a = true ∧ n = 1 ∨ a = '\x7b' ∧ n ≠ 1) →
        withLazyMark (a :: t ++ d :: u) n = withLazyMark (a :: t) n := by
      intro n hlen h0 hle hsign
      rw [ht, hlen] at hl
      exact withLazyMark_append_of_mayGrow ht (hl.imp Eq.symm And.symm) h0 hle hsign hg (d :: u)
    rw [ht, List.cons_append, hout, hout, hcounted]
    by_cases hr : isRepeatSign a = true
    · simp only [hr, if_true]
      exact lazy 1 (by rw [hout, if_pos hr]) (by omega) (by simp) (.inl ⟨hr, rfl⟩)
    · by_cases hc : counted (a :: t) = 0
      · simp [hr, hc]
      · have hbrace : a = '\x7b' := by
          apply Decidable.byContradiction
          intro hne
          exact hc (by simp [counted, hne])
        simp only [hr, bne_iff_ne, ne_eq, hc, not_false_eq_true, if_true]
        exact lazy _ (by simp [hout, hr, hc]) (Nat.pos_of_ne_zero hc) (counted_le _)
          (.inr ⟨hbrace, counted_ne_one (a :: t)⟩)

end BaselineToken

namespace Builtin

open BaselineToken

variable {d : Char} {source rest output : Text} {position : Nat} {scope after : Scope}
  {context c : Context}

theorem firing?_append {t : Text} (hs : scope = .insideClass ∨ scope = .outsideClass)
    (hd : isStop d = true) (hn : t ≠ []) (h : firing? t scope context = none) (u : Text) :
      firing? (t ++ d :: u) scope context = none := by
  rcases hs with rfl | rfl
  · exact firing?_append_inside hd hn h u
  · exact firing?_append_outside hd hn h u

theorem length_append {byRule : Bool} (hs : scope = .insideClass ∨ scope = .outsideClass)
    (hd : isStop d = true) (hn : source ≠ []) (hr : firing? (source ++ rest) scope context = none)
    (hl : length scope (source ++ rest) = source.length ∨ length scope (source ++ rest) = 0 ∧
      source.length = 1)
    (hg : (Segment.mk source source byRule scope).mayGrow rest = false) (u : Text) :
    length scope (source ++ rest ++ d :: u) = length scope (source ++ rest) := by
  rcases hs with rfl | rfl
  · exact inClass_append hd hn hl hg u
  · refine outside_append hd hn ?_ hl hg u
    intro hp
    have hoff := firing?_eq_none_iff.1 hr group
    rw [recognizeIn, isActive_outside, if_pos (by rfl)] at hoff
    cases ht : source ++ rest with
    | nil => simp [ht] at hp
    | cons a t =>
      obtain rfl : a = '(' := by simpa [ht] using hp
      simp [ht, recognize] at hoff

/-- A special opener that no rule takes stays one, unless it is about to open a comment. -/
theorem special_append (hd : isStop d = true) (hn : rest ≠ []) (hc : rest.head? ≠ some '#')
    (h : ∀ b ∈ group.earlier, b.recognizeIn ('(' :: '?' :: rest) .outsideClass context = none)
    (u : Text) :
    ∀ b ∈ group.earlier, b.recognizeIn ('(' :: '?' :: (rest ++ d :: u)) .outsideClass context =
      none := by
  intro b hb
  have hoff := h b hb
  simp only [recognizeIn, isActive_outside] at hoff ⊢
  split
  · next ha =>
    rw [if_pos ha] at hoff
    simp only [Bool.and_eq_true, bne_iff_ne] at ha
    cases b with
    | classSign => exact absurd rfl ha.1
    | group => exact absurd hb (by decide)
    | dot => exact (recognize_of_opening (.inl rfl)).1
    | spacing => exact (recognize_of_opening (.inl rfl)).2
    | emptyClass => simp [recognize]
    | reference => exact recognizeRun_of_not_opening (by simp [Text.dropHead?])
    | comment =>
      obtain ⟨e, r, rfl⟩ := List.exists_cons_of_ne_nil hn
      have he : '#' ≠ e := fun he => hc (by simp [← he])
      simp [recognize, commentLength?, Text.dropHead?, he]
    | modifier =>
      exact @recognizeRun_append_of_head d rest u isModifier ['(', '?'] ')' rfl
        (isModifier_of_isStop hd) (ne_of_isStop hd (by decide)) hoff
    | namedGroup =>
      obtain ⟨e, r, rfl⟩ := List.exists_cons_of_ne_nil hn
      by_cases he : e = '<'
      · subst he
        exact @recognizeRun_append_of_head d r u isNameChar ['(', '?', '<'] '>' rfl
          (isNameChar_of_isStop hd) (ne_of_isStop hd (by decide)) hoff
      · exact recognizeRun_of_not_opening (by simp [Text.dropHead?, Ne.symm he])
    | taggedGroup =>
      have hlt := ne_of_isStop hd (show isStop '<' = false by decide)
      rcases rest with _ | ⟨e, _ | ⟨f, r⟩⟩
      · exact absurd rfl hn
      · exact recognizeRun_of_not_opening (by simp [Text.dropHead?, hlt.symm])
      · by_cases he : e = 'P' ∧ f = '<'
        · obtain ⟨rfl, rfl⟩ := he
          exact @recognizeRun_append_of_head d r u isNameChar ['(', '?', 'P', '<'] '>' rfl
            (isNameChar_of_isStop hd) (ne_of_isStop hd (by decide)) hoff
        · refine recognizeRun_of_not_opening ?_
          simp only [List.cons_append, Text.dropHead?]
          grind
  · rfl

/-- Elided syntax that is all of the text may grow. -/
theorem ne_nil_of_spacing {byRule : Bool} (hn : source ≠ [])
    (hl : spacingLength false (source ++ rest) = source.length)
    (hg : (Segment.mk source (separator rest) byRule .outsideClass).mayGrow rest = false) :
      rest ≠ [] := by
  rintro rfl
  obtain ⟨a, t, rfl⟩ := List.exists_cons_of_ne_nil hn
  have ha : a ∉ ['.', '\\', '['] := by
    intro ha
    have hb : ∀ e ∈ ['.', '\\', '['], Unicode.isBlank e = false ∧ e ≠ '#' :=
      Text.forall_mem_of_all (by decide)
    rw [List.cons_append, spacingLength_of_not_blank (hb a ha).1 (hb a ha).2] at hl
    exact absurd hl (by simp)
  simp only [List.mem_cons, List.not_mem_nil, or_false, not_or] at ha
  cases t <;> simp [Segment.mayGrow, Segment.endsAtom, ha, separator, startsWithQuantifier,
    emptyGroup] at hg

/-- What a piece is and does is the same with more text after a stop, unless the piece may grow. -/
theorem Reads.append (h : Reads position context scope source rest output after c)
    (hs : scope = .insideClass ∨ scope = .outsideClass) (hd : isStop d = true) {byRule : Bool}
    (hg : (Segment.mk source output byRule scope).mayGrow rest = false) (u : Text) :
    Reads position context scope source (rest ++ d :: u) output after c := by
  have hq := @startsWithQuantifier_append d rest hd
  cases h with
  | dot h => exact .dot h
  | spacing hx hn hl =>
    have hne := ne_nil_of_spacing hn hl hg
    have hlt : spacingLength false (source ++ rest) < (source ++ rest).length := by
      rw [hl]
      have hpos := List.length_pos_iff.2 hne
      rw [List.length_append]
      omega
    have happ := spacingLength_append hlt (d :: u)
    rw [separator, ← hq hne u]
    exact .spacing hx hn (by rw [← List.append_assoc, happ, hl])
  | leadingModifier hn hl hp => exact .leadingModifier hn hl hp
  | laterModifier hn hl hp => exact .laterModifier hn hl hp
  | noCharacter => exact .noCharacter
  | anyCharacter => exact .anyCharacter
  | @reference name _ hn hc =>
    have hrefer : refer name (rest ++ d :: u) context = refer name rest context := by
      cases rest with
      | nil => simp [refer, (not_in_run_of_isStop hd).1]
      | cons e r => rfl
    rw [← hrefer]
    exact .reference hn hc
  | named ht hn hc hd => exact .named ht hn hc hd
  | comment hb =>
    have hne : rest ≠ [] := by
      rintro rfl
      simp [Segment.mayGrow, Segment.endsAtom] at hg
    rw [separator, ← hq hne u]
    exact .comment hb
  | @special rest h =>
    simp only [Segment.mayGrow, Segment.leftOpen, List.isEmpty_cons] at hg
    have hne : rest ≠ [] := by
      rintro rfl
      simp at hg
    have hc : rest.head? ≠ some '#' := by
      cases rest with
      | nil => simp
      | cons e r =>
        intro he
        obtain rfl : e = '#' := by simpa using he
        simp [Text.startsWith, Text.dropHead?] at hg
    exact .special (special_append hd hne hc h u)
  | uncaptured h hf =>
    cases rest with
    | nil => simp [Segment.mayGrow, Segment.endsAtom] at hg
    | cons e r => exact .uncaptured h hf
  | group h hf =>
    cases rest with
    | nil => simp [Segment.mayGrow, Segment.endsAtom] at hg
    | cons e r => exact .group h hf
  | sign h => exact .sign h
  | unit hr hn hl =>
    have hlen : length scope (source ++ rest ++ d :: u) = length scope (source ++ rest) :=
      length_append hs hd hn hr (.inl hl) hg u
    have hf : firing? (source ++ rest ++ d :: u) scope context = none :=
      firing?_append hs hd (by simp [hn]) hr u
    exact .unit (by simpa using hf) hn (by rw [← List.append_assoc, hlen, hl])
  | @char _ a _ hr hl =>
    have hlen : length scope ([a] ++ rest ++ d :: u) = length scope ([a] ++ rest) :=
      length_append hs hd (by simp) hr (.inr ⟨hl, rfl⟩) hg u
    have hf : firing? ([a] ++ rest ++ d :: u) scope context = none :=
      firing?_append hs hd (by simp) hr u
    exact .char hf (hlen.trans hl)

end Builtin

namespace Segment

def scopeAfter (s : Segment) : Scope :=
  match s.source with
  | [c] => s.scope.after c
  | _ => s.scope

/-- Whether pieces end with a quantifiable atom, outside classes and with nothing left open before
it. -/
def endInAtom : List Segment → Bool
  | [] => false
  | [s] => s.endsAtom && s.scopeAfter == .outsideClass
  | s :: l => !s.leftOpen (l.flatMap source) && endInAtom l

end Segment

theorem Builtin.Reads.scopeAfter_eq {position : Nat} {context c : Context} {scope after : Scope}
    {source rest output : Text}
    (h : Builtin.Reads position context scope source rest output after c)
    (hs : scope = .insideClass ∨ scope = .outsideClass) (byRule : Bool) :
    after = (Segment.mk source output byRule scope).scopeAfter := by
  have keep : source ≠ [] → source.head? ≠ some '[' → source.head? ≠ some ']' →
      scope = (Segment.mk source output byRule scope).scopeAfter := by
    intro hn ho hc
    obtain ⟨a, t, rfl⟩ := List.exists_cons_of_ne_nil hn
    cases t with
    | nil =>
      have ha : a ≠ '[' ∧ a ≠ ']' := ⟨by simpa using ho, by simpa using hc⟩
      simp [Segment.scopeAfter, Scope.after, ha]
    | cons b t => rfl
  cases h with
  | char => rfl
  | spacing hx hn hl =>
    obtain ⟨a, t, rfl⟩ := List.exists_cons_of_ne_nil hn
    refine keep hn ?_ ?_
    · rintro ⟨⟩
      simp [Builtin.spacingLength, show Unicode.isBlank '[' = false by decide] at hl
    · rintro ⟨⟩
      simp [Builtin.spacingLength, show Unicode.isBlank ']' = false by decide] at hl
  | unit hr hn hl =>
    obtain ⟨a, t, rfl⟩ := List.exists_cons_of_ne_nil hn
    refine keep hn ?_ ?_
    · rintro ⟨⟩
      rcases hs with rfl | rfl
      · simp [BaselineToken.inClass] at hl
      · simp [BaselineToken.outside_of_other] at hl
    · rintro ⟨⟩
      rcases hs with rfl | rfl
      · simp [BaselineToken.inClass] at hl
      · simp [BaselineToken.outside_of_other] at hl
  | sign h => rcases h with rfl | rfl | rfl <;> rfl
  | named ht hn => rcases ht with rfl | rfl <;> rfl
  | _ => rfl

/-- Pieces that end with a quantifiable atom are read in the same way with more text after them,
when that begins with a stop. -/
theorem Scans.of_run {pattern pattern' u : Text} {d : Char} {s t : ScanState} {l : List Segment}
    (run : Run Builtin.lookup pattern s l t) (hs : s.scope = .insideClass ∨ s.scope = .outsideClass)
    (ht : t.rest = []) (hl : Segment.endInAtom l = true) (hd : BaselineToken.isStop d = true) :
    Scans pattern' { s with rest := s.rest ++ d :: u } (Segment.emitted l)
      { t with rest := d :: u } ∧ t.scope = .outsideClass := by
  induction run with
  | done s => simp [Segment.endInAtom] at hl
  | @round s s' t piece l hstep run ih =>
    obtain ⟨hrest, -, hposition, hscope⟩ := rest_of_step hstep
    obtain ⟨hreads, hturn⟩ := Builtin.reads_of_step hs hstep
    have hsources : l.flatMap Segment.source = s'.rest := by
      have h := run.sources
      rwa [ht, List.append_nil] at h
    have hgrow :
        (Segment.mk piece.source piece.output piece.byRule s.scope).mayGrow s'.rest = false := by
      rw [← hscope]
      cases l with
      | nil =>
        simp only [List.flatMap_nil] at hsources
        simp only [Segment.endInAtom, Bool.and_eq_true] at hl
        simp [Segment.mayGrow, ← hsources, hl.1]
      | cons p l =>
        have hne : s'.rest ≠ [] := by
          cases run with
          | round h _ =>
            intro hnil
            exact (rest_of_step h).2.1 (List.append_eq_nil_iff.1 ((rest_of_step h).1.trans hnil)).1
        simp only [Segment.endInAtom, Bool.and_eq_true, Bool.not_eq_true', hsources] at hl
        simp [Segment.mayGrow, hne, hl.1]
    have first := @Scans.of_reads pattern' _ _ _ _ _ _ _ _ (hreads.append hs hd hgrow u)
    have hstate : { s' with rest := s'.rest ++ d :: u } =
        ScanState.mk (s.position + Text.bytes piece.source)
        (s'.rest ++ d :: u) s'.scope { s.turn with context := s'.turn.context } := by
      obtain ⟨position, rest, scope, context, inHandler⟩ := s'
      simp only at hposition hturn
      simp [hposition, hturn]
    rw [← List.append_assoc, hrest, ← hstate] at first
    cases l with
    | nil =>
      cases run
      have hlast : s'.scope = .outsideClass := by
        rw [hreads.scopeAfter_eq hs piece.byRule, ← hscope]
        simp only [Segment.endInAtom, Bool.and_eq_true, beq_iff_eq] at hl
        exact hl.2
      exact ⟨by simpa [Segment.emitted, ht] using first, hlast⟩
    | cons p l =>
      simp only [Segment.endInAtom, Bool.and_eq_true] at hl
      obtain ⟨more, hlast⟩ := ih (hreads.scope_after hs) ht hl.2
      exact ⟨by simpa [Segment.emitted] using first.append more, hlast⟩

end RegexDialect
