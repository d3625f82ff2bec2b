import RegexDialect.Proofs.Lookahead

/-! Elided syntax between an atom and its quantifier. Every piece of it asks whether a quantifier
follows right away, so all pieces but the last leave an empty group behind, which then takes the
quantifier. -/
namespace RegexDialect

structure Numeral where
  digits : Text
  nonempty : digits ≠ []
  decimal : ∀ c ∈ digits, c.isDigit = true

inductive Quantifier
  | optional
  | star
  | plus
  | exactly (n : Numeral)
  | atLeast (n : Numeral)
  | between (n m : Numeral)
  | atMost (m : Numeral)

namespace Quantifier

def text : Quantifier → Text
  | optional => ['?']
  | star => ['*']
  | plus => ['+']
  | exactly n => '\x7b' :: (n.digits ++ ['}'])
  | atLeast n => '\x7b' :: (n.digits ++ [',', '}'])
  | between n m => '\x7b' :: (n.digits ++ ',' :: (m.digits ++ ['}']))
  | atMost m => '\x7b' :: ',' :: (m.digits ++ ['}'])

theorem head_text (q : Quantifier) : ∃ d u, q.text = d :: u ∧ BaselineToken.isStop d = true := by
  cases q <;> exact ⟨_, _, rfl, by decide⟩

def isAtMost : Quantifier → Bool
  | atMost _ => true
  | _ => false

end Quantifier

/-- Syntax that leaves no trace: an inline comment, a blank, or a comment to the end of its line. -/
inductive Elided
  | comment (body : Text) (h : ∀ c ∈ body, c ≠ ')')
  | blank (c : Char) (h : Unicode.isBlank c = true)
  | line (body : Text) (h : ∀ c ∈ body, c ≠ '\n')

namespace Elided

def text : Elided → Text
  | comment body _ => ['(', '?', '#'] ++ body ++ [')']
  | blank c _ => [c]
  | line body _ => '#' :: (body ++ ['\n'])

def isSpacing : Elided → Bool
  | comment _ _ => false
  | _ => true

def texts (l : List Elided) : Text := l.flatMap text

/-- Number of pieces that the scan makes of a run of elided tokens: blanks and line comments
join. -/
def pieces : List Elided → Nat
  | [] => 0
  | e :: l => if e.isSpacing && l.head?.any isSpacing then pieces l else pieces l + 1

@[simp] theorem texts_nil : texts [] = [] := rfl

@[simp] theorem texts_cons (e : Elided) (l : List Elided) :
    texts (e :: l) = e.text ++ texts l := rfl

@[simp] theorem texts_append (k l : List Elided) : texts (k ++ l) = texts k ++ texts l := by
  simp [texts]

theorem pieces_pos {l : List Elided} (h : l ≠ []) : 0 < pieces l := by
  induction l with
  | nil => exact absurd rfl h
  | cons e l ih =>
    simp only [pieces]
    split
    · next hs =>
      refine ih ?_
      rintro rfl
      simp at hs
    · omega

/-- Blanks and line comments make one piece with all those that follow them. -/
theorem pieces_append {k l : List Elided} (hk : k ≠ []) (hs : ∀ e ∈ k, e.isSpacing = true)
    (hl : l.head?.any isSpacing = false) : pieces (k ++ l) = pieces l + 1 := by
  induction k with
  | nil => exact absurd rfl hk
  | cons e k ih =>
    have he := hs e (by simp)
    cases k with
    | nil => simp [pieces, hl]
    | cons f k =>
      have hf := hs f (by simp)
      have ih := ih (by simp) fun g hg => hs g (by simp [hg])
      simpa [pieces, he, hf] using ih

/-- No elided token could be taken for a quantifier. -/
theorem head_text (e : Elided) : ∃ d u, e.text = d :: u ∧ BaselineToken.isStop d = true ∧
    BaselineToken.isRepeatSign d = false ∧ d ≠ '\x7b' := by
  cases e with
  | comment body _ => exact ⟨'(', _, rfl, by decide, by decide, by decide⟩
  | line body _ => exact ⟨'#', _, rfl, by decide, by decide, by decide⟩
  | blank c h =>
    have hc : ∀ d ∈ ['?', '*', '+', '\x7b'], c ≠ d := by
      rintro d hd rfl
      have hblank : ∀ d ∈ ['?', '*', '+', '\x7b'], Unicode.isBlank d = false :=
        Text.forall_mem_of_all (by decide)
      exact absurd (hblank c hd) (by simp [h])
    refine ⟨c, [], rfl, by simp [BaselineToken.isStop, h], ?_, hc _ (by simp)⟩
    simp [BaselineToken.isRepeatSign, hc '?' (by simp), hc '*' (by simp), hc '+' (by simp)]

theorem startsWithQuantifier_text (e : Elided) (v : Text) :
    BaselineToken.startsWithQuantifier (e.text ++ v) = false := by
  obtain ⟨d, u, he, -, hr, hb⟩ := e.head_text
  rw [he, List.cons_append]
  simp [BaselineToken.startsWithQuantifier, hr, BaselineToken.counted, hb]

theorem spacingLength_line {body : Text} (h : ∀ c ∈ body, c ≠ '\n') (v : Text) :
    Builtin.spacingLength true (body ++ '\n' :: v) =
      body.length + 1 + Builtin.spacingLength false v := by
  induction body with
  | nil => simp [Builtin.spacingLength]
  | cons c body ih =>
    have hc : (c != '\n') = true := by simpa using h c (by simp)
    have ih := ih fun d hd => h d (by simp [hd])
    simp only [List.cons_append, Builtin.spacingLength, hc, ih, List.length_cons]
    omega

/-- In front of text that is no spacing, the tokens of a run of spacing are one token of the
scan. -/
theorem spacingLength_texts {l : List Elided} (hs : ∀ e ∈ l, e.isSpacing = true) {v : Text}
    (hv : Builtin.spacingLength false v = 0) :
    Builtin.spacingLength false (texts l ++ v) = (texts l).length := by
  induction l with
  | nil => simpa using hv
  | cons e l ih =>
    have ih := ih fun f hf => hs f (by simp [hf])
    have he := hs e (by simp)
    cases e with
    | comment => simp [isSpacing] at he
    | blank c h => simp [text, Builtin.spacingLength, h, ih, Nat.add_comm]
    | line body h =>
      have hash : Unicode.isBlank '#' = false := by decide
      simp only [texts_cons, text, List.cons_append, List.append_assoc, Builtin.spacingLength, hash,
        List.nil_append, spacingLength_line h, ih]
      simp
      omega

end Elided

namespace Scans

variable {pattern rest : Text} {position : Nat} {turn : Turn}

def IsPlain (c : Char) : Prop :=
  Unicode.isBlank c = false ∧ c ∉ ['(', '\\', '[', ']', '.', '#', '?', '*', '+']

instance (c : Char) : Decidable (IsPlain c) := inferInstanceAs (Decidable (_ ∧ _))

theorem of_plain {c : Char} (h : IsPlain c) (hc : BaselineToken.counted (c :: rest) = 0) :
    Scans pattern ⟨position, c :: rest, .outsideClass, turn⟩ [c]
      ⟨position + c.utf8Size, rest, .outsideClass, turn⟩ := by
  obtain ⟨hb, hn⟩ := h
  have hf : Builtin.firing? (c :: rest) .outsideClass turn.context = none :=
    Builtin.firing?_eq_none_of_recognize fun b hs => Builtin.recognize_of_other hb (by simp_all) hs
  have hl : BaselineToken.length .outsideClass (c :: rest) = 0 := by
    have hq : BaselineToken.isRepeatSign c = false := by simp_all [BaselineToken.isRepeatSign]
    simp_all [BaselineToken.outside]
  have hs : Scope.outsideClass.after c = .outsideClass := by simp_all [Scope.after]
  have hr := @Builtin.Reads.char position turn.context .outsideClass c rest hf hl
  rw [hs] at hr
  simpa using @of_reads pattern [c] rest [c] position .outsideClass .outsideClass turn
    turn.context hr

theorem isPlain_of_isDigit {c : Char} (h : c.isDigit = true) : IsPlain c := by
  constructor
  · cases hb : Unicode.isBlank c with
    | false => rfl
    | true =>
      have hw := Unicode.isWord_of_isBlank hb
      have ha : c.isAlphanum = true := by simp [Char.isAlphanum, h]
      rw [Unicode.isWord_of_ascii (BaselineToken.toNat_lt_of_isAlphanum ha), ha] at hw
      exact absurd hw (by simp)
  · intro hc
    have hsigns : ∀ d ∈ ['(', '\\', '[', ']', '.', '#', '?', '*', '+'], d.isDigit = false :=
      Text.forall_mem_of_all (by decide)
    rw [hsigns c hc] at h
    exact absurd h (by simp)

theorem of_digits {digits : Text} (h : ∀ c ∈ digits, c.isDigit = true) :
    Scans pattern ⟨position, digits ++ rest, .outsideClass, turn⟩ digits
      ⟨position + Text.bytes digits, rest, .outsideClass, turn⟩ := by
  induction digits generalizing position with
  | nil => exact .nothing _ _
  | cons c digits ih =>
    have hc := h c (by simp)
    have hbrace : c ≠ '\x7b' := by
      rintro rfl
      simp at hc
    have first := @of_plain pattern (digits ++ rest) position turn c (isPlain_of_isDigit hc)
      (by simp [BaselineToken.counted, hbrace])
    have more := @ih (position + c.utf8Size) fun d hd => h d (by simp [hd])
    rw [Nat.add_assoc] at more
    exact first.append more

theorem run_digits (n : Numeral) {v : Text} (hv : ∀ c ∈ v.head?, c.isDigit = false) :
    BaselineToken.run Char.isDigit (n.digits ++ v) = n.digits.length := by
  rw [BaselineToken.run, Text.takeWhile_run n.decimal hv]

theorem counted_exactly (n : Numeral) :
    BaselineToken.counted ('\x7b' :: (n.digits ++ ['}'])) = (n.digits ++ ['}']).length + 1 := by
  have hrun := run_digits n (show ∀ c ∈ ['}'].head?, c.isDigit = false by simp)
  simp [BaselineToken.counted, hrun, n.nonempty]

theorem counted_atLeast (n : Numeral) :
    BaselineToken.counted ('\x7b' :: (n.digits ++ [',', '}'])) =
      (n.digits ++ [',', '}']).length + 1 := by
  have hrun := run_digits n (show ∀ c ∈ [',', '}'].head?, c.isDigit = false by simp)
  have hend : BaselineToken.run Char.isDigit ['}'] = 0 := by decide
  simp [BaselineToken.counted, hrun, n.nonempty, hend]

theorem counted_between (n m : Numeral) :
    BaselineToken.counted ('\x7b' :: (n.digits ++ ',' :: (m.digits ++ ['}']))) =
      (n.digits ++ ',' :: (m.digits ++ ['}'])).length + 1 := by
  have hrun := @run_digits n (',' :: (m.digits ++ ['}'])) (by simp)
  have hend := run_digits m (show ∀ c ∈ ['}'].head?, c.isDigit = false by simp)
  simp [BaselineToken.counted, hrun, n.nonempty, hend]
  omega

theorem counted_atMost (m : Numeral) :
    BaselineToken.counted ('\x7b' :: ',' :: (m.digits ++ ['}'])) = 0 := by
  simp [BaselineToken.counted, BaselineToken.run]

theorem outside_of_counted {t : Text} (h : BaselineToken.counted ('\x7b' :: t) = t.length + 1) :
    BaselineToken.outside ('\x7b' :: t) = t.length + 1 := by
  simp [BaselineToken.outside, BaselineToken.isRepeatSign, h, BaselineToken.withLazyMark]

theorem of_unit {t : Text} (hn : t ≠ [])
    (h : ∀ c ∈ t.head?, Unicode.isBlank c = false ∧ c ∉ ['(', '\\', '[', '.', '#'])
    (hl : BaselineToken.outside t = t.length) :
    Scans pattern ⟨position, t, .outsideClass, turn⟩ t
      ⟨position + Text.bytes t, [], .outsideClass, turn⟩ := by
  obtain ⟨c, r, rfl⟩ := List.exists_cons_of_ne_nil hn
  obtain ⟨hb, hc⟩ := h c rfl
  have hf : Builtin.firing? (c :: r ++ []) .outsideClass turn.context = none := by
    rw [List.append_nil]
    exact Builtin.firing?_eq_none_of_recognize fun b hs => Builtin.recognize_of_other hb hc hs
  have hr :=
    @Builtin.Reads.unit position turn.context .outsideClass (c :: r) [] hf (by simp)
      (by simpa using hl)
  simpa using @of_reads pattern (c :: r) [] (c :: r) position .outsideClass .outsideClass turn
    turn.context hr

/-- The engine's quantifiers are copied. -/
theorem of_quantifier (q : Quantifier) :
    Scans pattern ⟨position, q.text, .outsideClass, turn⟩ q.text
      ⟨position + Text.bytes q.text, [], .outsideClass, turn⟩ := by
  have hbrace : ∀ r : Text, ∀ c ∈ ('\x7b' :: r).head?, Unicode.isBlank c = false ∧
      c ∉ ['(', '\\', '[', '.', '#'] := by
    intro r c hc
    obtain rfl : '\x7b' = c := by simpa using hc
    decide
  cases q with
  | optional => exact of_unit (by simp [Quantifier.text]) (by rintro _ ⟨⟩; decide) rfl
  | star => exact of_unit (by simp [Quantifier.text]) (by rintro _ ⟨⟩; decide) rfl
  | plus => exact of_unit (by simp [Quantifier.text]) (by rintro _ ⟨⟩; decide) rfl
  | exactly n =>
    exact of_unit (by simp [Quantifier.text]) (hbrace _) (outside_of_counted (counted_exactly n))
  | atLeast n =>
    exact of_unit (by simp [Quantifier.text]) (hbrace _) (outside_of_counted (counted_atLeast n))
  | between n m =>
    exact of_unit (by simp [Quantifier.text]) (hbrace _) (outside_of_counted (counted_between n m))
  | atMost m =>
    have opening := @of_plain pattern _ position turn '\x7b' (by decide) (counted_atMost m)
    have comma :=
      @of_plain pattern (m.digits ++ ['}']) (position + Char.utf8Size '\x7b') turn ','
        (by decide) rfl
    have digits :=
      @of_digits pattern ['}'] (position + Char.utf8Size '\x7b' + Char.utf8Size ',')
        turn _ m.decimal
    have closing :=
      @of_plain pattern []
        (position + Char.utf8Size '\x7b' + Char.utf8Size ',' + Text.bytes m.digits)
      turn '}' (by decide) rfl
    have all := opening.append (comma.append (digits.append closing))
    simpa [Quantifier.text, Nat.add_assoc] using all

theorem spacingLength_quantifier (q : Quantifier) : Builtin.spacingLength false q.text = 0 := by
  cases q <;> exact Builtin.spacingLength_of_not_blank (by decide) (by decide)

theorem separator_quantifier (q : Quantifier) :
    Builtin.separator q.text = if q.isAtMost then Builtin.emptyGroup else [] := by
  cases q with
  | exactly n =>
    simp [Builtin.separator, Quantifier.text, BaselineToken.startsWithQuantifier, counted_exactly,
      Quantifier.isAtMost]
  | atLeast n =>
    simp [Builtin.separator, Quantifier.text, BaselineToken.startsWithQuantifier, counted_atLeast,
      Quantifier.isAtMost]
  | between n m =>
    simp [Builtin.separator, Quantifier.text, BaselineToken.startsWithQuantifier, counted_between,
      Quantifier.isAtMost]
  | atMost m =>
    simp [Builtin.separator, Quantifier.text, BaselineToken.startsWithQuantifier, counted_atMost,
      Quantifier.isAtMost, BaselineToken.isRepeatSign]
  | _ => rfl

open Elided in
/-- The first piece that the scan makes of elided tokens before a quantifier. -/
theorem exists_piece {l : List Elided} (hl : l ≠ []) {context : Context}
    (hx : (∃ e ∈ l, e.isSpacing = true) → context.hasFlag 'x' = true) (q : Quantifier) :
    ∃ k m, l = k ++ m ∧ k ≠ [] ∧ pieces l = pieces m + 1 ∧ ∀ position,
      Builtin.Reads position context .outsideClass (texts k) (texts m ++ q.text)
        (Builtin.separator (texts m ++ q.text)) .outsideClass context := by
  obtain ⟨e, r, rfl⟩ := List.exists_cons_of_ne_nil hl
  cases he : e.isSpacing with
  | false =>
    refine ⟨[e], r, rfl, by simp, by simp [pieces, he], fun position => ?_⟩
    cases e with
    | comment body h =>
      have hr := @Builtin.Reads.comment position context body (texts r ++ q.text) h
      simpa [texts, text] using hr
    | blank | line => simp [isSpacing] at he
  | true =>
    have hsplit : (e :: r).takeWhile isSpacing ++ (e :: r).dropWhile isSpacing = e :: r :=
      List.takeWhile_append_dropWhile
    have hk : (e :: r).takeWhile isSpacing ≠ [] := by simp [he]
    have hspacing : ∀ f ∈ (e :: r).takeWhile isSpacing, f.isSpacing = true :=
      fun f hf => List.all_eq_true.1 List.all_takeWhile f hf
    have hm : ((e :: r).dropWhile isSpacing).head?.any isSpacing = false := by
      have h := List.head?_dropWhile_not isSpacing (e :: r)
      revert h
      cases ((e :: r).dropWhile isSpacing).head? <;> simp
    generalize (e :: r).takeWhile isSpacing = k at *
    generalize (e :: r).dropWhile isSpacing = m at *
    refine ⟨k, m, hsplit.symm, hk, hsplit ▸ pieces_append hk hspacing hm, fun position => ?_⟩
    have hrest : Builtin.spacingLength false (texts m ++ q.text) = 0 := by
      cases m with
      | nil => exact spacingLength_quantifier q
      | cons f m =>
        cases f with
        | comment body h => exact Builtin.spacingLength_of_not_blank (by decide) (by decide)
        | blank | line => simp [isSpacing] at hm
    have hne : texts k ≠ [] := by
      obtain ⟨f, k, rfl⟩ := List.exists_cons_of_ne_nil hk
      obtain ⟨d, u, hf, -⟩ := f.head_text
      simp [hf]
    exact .spacing (hx ⟨e, by simp, he⟩) hne (spacingLength_texts hspacing hrest)

open Elided in
/-- Elided tokens before a quantifier: each piece but the last leaves an empty group. -/
theorem of_elided {l : List Elided} (hl : l ≠ [])
    (hx : (∃ e ∈ l, e.isSpacing = true) → turn.context.hasFlag 'x' = true) (q : Quantifier) :
    Scans pattern ⟨position, texts l ++ q.text, .outsideClass, turn⟩
      ((List.replicate (pieces l - 1) Builtin.emptyGroup).flatten ++ Builtin.separator q.text)
      ⟨position + Text.bytes (texts l), q.text, .outsideClass, turn⟩ := by
  induction hn : l.length using Nat.strongRecOn generalizing l position with
  | ind n ih =>
    obtain ⟨k, m, rfl, hk, hpieces, hreads⟩ := exists_piece hl hx q
    have first := @of_reads pattern _ _ _ position _ _ turn _ (hreads position)
    by_cases hm : m = []
    · subst hm
      have hone : pieces k = 1 := by simpa [pieces] using hpieces
      simpa [hone] using first
    · have hlt : m.length < n := by
        have := List.length_pos_iff.2 hk
        simp only [List.length_append] at hn
        omega
      have hsep : Builtin.separator (texts m ++ q.text) = Builtin.emptyGroup := by
        obtain ⟨f, m, rfl⟩ := List.exists_cons_of_ne_nil hm
        rw [Builtin.separator, texts_cons, List.append_assoc, startsWithQuantifier_text,
          if_neg (by simp)]
      have more := @ih m.length hlt (position + Text.bytes (texts k)) m hm
        (fun h => hx (by obtain ⟨e, he, hs⟩ := h; exact ⟨e, by simp [he], hs⟩)) rfl
      have hcount : pieces (k ++ m) - 1 = (pieces m - 1) + 1 := by
        have := pieces_pos hm
        omega
      rw [hsep] at first
      have all := first.append more
      simpa [hcount, List.replicate_succ, Nat.add_assoc] using all

end Scans

/-- Whether a pattern ends with a quantifiable atom: an escape, a class, a group or a character,
with nothing left open before it. -/
def endsInAtom (a : Text) (flags : Flags) : Bool :=
  match (scan Builtin.lookup a ⟨.start flags, false⟩).1 with
  | .ok l => Segment.endInAtom l
  | .error _ => false

example :
    endsInAtom "(a|[b-d\\]])".toList .empty = true ∧
      endsInAtom "\\p\x7bLu\x7d".toList .empty = true ∧
    endsInAtom "[]".toList .empty = true ∧ endsInAtom "x".toList .empty = true := by decide

theorem scans_of_endsInAtom {a pattern u : Text} {d : Char} {flags : Flags} {c : Compiled}
    (ha : endsInAtom a flags = true) (hc : Registry.builtin.compile a flags = .ok c)
    (hd : BaselineToken.isStop d = true) : ∃ position,
      Scans pattern (.start (a ++ d :: u) ⟨.start flags, false⟩) c.rewritten
        ⟨position, d :: u, .outsideClass, ⟨c.context, false⟩⟩ := by
  rw [Registry.compile_builtin] at hc
  rcases hs : scan Builtin.lookup a ⟨.start flags, false⟩ with ⟨e | l, turn⟩
  · simp [endsInAtom, hs] at ha
  · simp only [hs, Except.ok.injEq] at hc
    simp only [endsInAtom, hs] at ha
    obtain ⟨t, run, ht, rfl⟩ :=
      (@scan_eq_ok_iff Builtin.lookup a (.start a ⟨.start flags, false⟩) l turn).1 hs
    obtain ⟨h, hscope⟩ := @Scans.of_run _ pattern u d _ _ _ run (.inr rfl) ht ha hd
    have hmark := (run.scope_and_mark (.inr rfl)).2
    obtain ⟨position, rest, scope, context, inHandler⟩ := t
    simp only [ScanState.start] at hscope hmark
    subst hc hscope hmark
    exact ⟨position, h⟩

open Elided in
/-- Elided syntax between a quantifiable atom and its quantifier: all its pieces but the last leave
an empty group, and so does the last one in front of a quantifier without a lower bound. The
quantifier therefore repeats the atom, as it does without the elided syntax, exactly when there is
one piece and the quantifier has a lower bound. -/
theorem compile_elided_before_quantifier {a : Text} {flags : Flags} {c : Compiled}
    (ha : endsInAtom a flags = true) (hc : Registry.builtin.compile a flags = .ok c)
    {l : List Elided} (hl : l ≠ [])
    (hx : (∃ e ∈ l, e.isSpacing = true) → c.context.hasFlag 'x' = true) (q : Quantifier) :
    Registry.builtin.compile (a ++ q.text) flags = .ok ⟨c.rewritten ++ q.text, c.context⟩ ∧
    Registry.builtin.compile (a ++ texts l ++ q.text) flags =
      .ok ⟨c.rewritten ++ (List.replicate (pieces l - 1) Builtin.emptyGroup).flatten ++
        (if q.isAtMost then Builtin.emptyGroup else []) ++ q.text, c.context⟩ ∧
    (Registry.builtin.compile (a ++ texts l ++ q.text) flags =
      Registry.builtin.compile (a ++ q.text) flags ↔ pieces l = 1 ∧ q.isAtMost = false) := by
  have plain : Registry.builtin.compile (a ++ q.text) flags =
      .ok ⟨c.rewritten ++ q.text, c.context⟩ := by
    obtain ⟨d, u, hq, hd⟩ := q.head_text
    obtain ⟨position, hscan⟩ := @scans_of_endsInAtom a (a ++ q.text) u d flags c ha hc hd
    rw [← hq] at hscan
    exact Registry.compile_of_scans (hscan.append (.of_quantifier q)) rfl
  have elided : Registry.builtin.compile (a ++ texts l ++ q.text) flags =
      .ok ⟨c.rewritten ++ (List.replicate (pieces l - 1) Builtin.emptyGroup).flatten ++
        (if q.isAtMost then Builtin.emptyGroup else []) ++ q.text, c.context⟩ := by
    obtain ⟨e, r, rfl⟩ := List.exists_cons_of_ne_nil hl
    obtain ⟨d, u, he, hd, -⟩ := e.head_text
    obtain ⟨position, hscan⟩ :=
      @scans_of_endsInAtom a (a ++ texts (e :: r) ++ q.text)
        (u ++ texts r ++ q.text) d flags c ha hc hd
    have htext : d :: (u ++ texts r ++ q.text) = texts (e :: r) ++ q.text := by simp [he]
    rw [htext, ← List.append_assoc] at hscan
    have hrun :=
      @Scans.of_elided (a ++ texts (e :: r) ++ q.text) position ⟨c.context, false⟩ _ hl hx q
    have h := Registry.compile_of_scans (hscan.append (hrun.append (.of_quantifier q))) rfl
    rw [h, Scans.separator_quantifier]
    simp
  have hpos := pieces_pos hl
  have hgroups : (List.replicate (pieces l - 1) Builtin.emptyGroup).flatten = [] ↔
      pieces l = 1 := by
    simp only [List.flatten_eq_nil_iff, List.mem_replicate]
    constructor
    · intro h
      apply Decidable.byContradiction
      intro hne
      exact absurd (h Builtin.emptyGroup ⟨by omega, rfl⟩) (by decide)
    · rintro h _ ⟨hne, -⟩
      exact absurd h (by omega)
  refine ⟨plain, elided, ?_⟩
  rw [elided, plain]
  simp only [Except.ok.injEq, Compiled.mk.injEq, and_true]
  rw [List.append_assoc c.rewritten, List.append_assoc c.rewritten, List.append_cancel_left_eq,
    List.append_left_eq_self, List.append_eq_nil_iff, hgroups]
  cases q.isAtMost <;> simp [Builtin.emptyGroup]

open Elided in
/-- Two comments between `a` and `+`: the plus repeats the empty group that the first comment
left. -/
theorem compile_two_comments_before_plus :
    endsInAtom ['a'] .empty = true ∧
    Registry.builtin.compile ['a'] .empty = .ok ⟨['a'], .start .empty⟩ ∧
    Registry.builtin.compile
      (['a'] ++ texts [comment ['b'] (by simp), comment ['c'] (by simp)] ++ ['+']) .empty =
      .ok ⟨['a'] ++ Builtin.emptyGroup ++ ['+'], .start .empty⟩ := by
  have ha : endsInAtom ['a'] .empty = true := by decide
  have hc : Registry.builtin.compile ['a'] .empty = .ok ⟨['a'], .start .empty⟩ := by
    rw [Registry.compile_builtin]
    rfl
  obtain ⟨-, h, -⟩ := @compile_elided_before_quantifier ['a'] .empty _ ha hc
    [comment ['b'] (by simp), comment ['c'] (by simp)] (by simp) (by simp [isSpacing]) .plus
  exact ⟨ha, hc, h⟩

end RegexDialect
