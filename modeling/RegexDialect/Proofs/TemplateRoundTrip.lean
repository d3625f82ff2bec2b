import Mathlib.Data.List.Chain
import RegexDialect.Proofs.TemplateNames

/-! Templates and their written form. The parts that a template is read as are normal, and a normal
list of parts is read back from its written form; so both determine each other. -/
namespace RegexDialect

namespace TemplatePart

def doubled (t : Text) : Text := t.flatMap fun c => if c == '$' then ['$', '$'] else [c]

def IsReference : TemplatePart → Prop
  | literal _ => False
  | _ => True

/-- Parts that a template can have. -/
def IsNormal : TemplatePart → Prop
  | literal text => text ≠ []
  | numbered digits => (digits.length = 1 ∨ digits.length = 2) ∧ ∀ c ∈ digits, c.isDigit = true
  | braced name => name ≠ [] ∧ ∀ c ∈ name, c = '$' ∨ c = '_' ∨ Unicode.isAlphanumeric c = true
  | _ => True

/-- Whether a part can end before a text: a single digit would take a second one. -/
def EndsBefore (part : TemplatePart) (t : Text) : Prop :=
  ∀ d c, part = numbered [d] → t.head? = some c → c.isDigit = false

/-- Whether a part can stand directly before another: literals join. -/
def MayPrecede : TemplatePart → TemplatePart → Prop
  | literal _, literal _ => False
  | part, literal text => part.EndsBefore text
  | _, _ => True

/-- Parts that a template can have, in an order in which it can have them. -/
structure Normal (l : List TemplatePart) : Prop where
  parts : ∀ part ∈ l, part.IsNormal
  neighbours : l.IsChain MayPrecede

def written (part : TemplatePart) : Text := part.print.tail

variable {part other : TemplatePart} {s t text : Text} {n : Nat} {l : List TemplatePart}

theorem print_literal (text : Text) : (literal text).print = doubled text := rfl

theorem print_of_isReference (h : part.IsReference) : part.print = '$' :: part.written := by
  cases part with
  | literal text => exact h.elim
  | _ => rfl

theorem normal_cons_iff :
    Normal (part :: l) ↔ part.IsNormal ∧ (∀ other ∈ l.head?, part.MayPrecede other) ∧ Normal l := by
  constructor
  · rintro ⟨hparts, hchain⟩
    rw [List.forall_mem_cons] at hparts
    rw [List.isChain_cons] at hchain
    exact ⟨hparts.1, hchain.1, hparts.2, hchain.2⟩
  · rintro ⟨hpart, hnext, hl, hchain⟩
    exact ⟨List.forall_mem_cons.2 ⟨hpart, hl⟩, List.isChain_cons.2 ⟨hnext, hchain⟩⟩

theorem EndsBefore.congr (hs : part.EndsBefore s) (h : s.head? = t.head?) : part.EndsBefore t :=
  fun d c hd hc => hs d c hd (h.trans hc)

theorem endsBefore_nil (part : TemplatePart) : part.EndsBefore [] := by
  rintro d c - hc
  simp at hc

theorem endsBefore_dollar (part : TemplatePart) (t : Text) : part.EndsBefore ('$' :: t) := by
  rintro d c - hc
  obtain rfl := Option.some.inj hc
  rfl

theorem mayPrecede_of_isReference (h : other.IsReference) (part : TemplatePart) :
    part.MayPrecede other := by
  cases other with
  | literal text => exact h.elim
  | _ => cases part <;> trivial

theorem mayPrecede_literal (h : part.IsReference) :
    part.MayPrecede (literal text) ↔ part.EndsBefore text := by
  cases part with
  | literal text => exact h.elim
  | _ => rfl

theorem reference?_of_isDigit {c : Char} (hc : c.isDigit = true) (t : Text) :
    reference? (c :: t) = some (some (numbered (c :: (t.take 1).takeWhile Char.isDigit)),
      ((t.take 1).takeWhile Char.isDigit).length + 1) := by
  have hne : ∀ d : Char, d.isDigit = false → c ≠ d := by
    rintro d hd rfl
    exact absurd (hc.symm.trans hd) (by simp)
  have h₁ := hne '$' rfl
  have h₂ := hne '&' rfl
  have h₃ := hne '\x60' rfl
  have h₄ := hne '\x27' rfl
  have h₅ := hne '\x7b' rfl
  simp [reference?, *]

theorem isNameChar_iff {c : Char} :
    isNameChar c = true ↔ c = '$' ∨ c = '_' ∨ Unicode.isAlphanumeric c = true := by
  simp [isNameChar, or_assoc]

theorem reference?_written (hr : part.IsReference) (hn : part.IsNormal) (ht : part.EndsBefore t) :
    reference? (part.written ++ t) = some (some part, part.written.length) := by
  cases part with
  | literal text => exact hr.elim
  | wholeMatch => rfl
  | before => rfl
  | after => rfl
  | numbered digits =>
    obtain ⟨hlength, hdigits⟩ := hn
    rcases digits with _ | ⟨c, _ | ⟨d, _ | ⟨e, r⟩⟩⟩
    · simp at hlength
    · have hnone : (t.take 1).takeWhile Char.isDigit = [] := by
        cases t with
        | nil => rfl
        | cons d t => simp [ht c d rfl rfl]
      have hread := reference?_of_isDigit (hdigits c (by simp)) t
      rw [hnone] at hread
      exact hread
    · have hread := reference?_of_isDigit (hdigits c (by simp)) (d :: t)
      simp only [List.take_succ_cons, List.take_zero, List.takeWhile_cons,
        hdigits d (by simp), if_true, List.takeWhile_nil] at hread
      exact hread
    · simp at hlength
  | braced name =>
    obtain ⟨hne, hchars⟩ := hn
    have hname : name.all isNameChar = true :=
      List.all_eq_true.2 fun c hc => isNameChar_iff.2 (hchars c hc)
    have hbrace : ∀ c ∈ name, c ≠ '}' := by
      rintro c hc rfl
      exact absurd (isNameChar_iff.2 (hchars _ hc)) (by decide +kernel)
    have hread := bracedName?_of_braces hne hbrace t
    rw [if_pos hname] at hread
    have hwritten : (braced name).written ++ t = '\x7b' :: (name ++ '}' :: t) := by
      simp [written, print]
    rw [hwritten, reference?, hread]
    simp [written, print]

theorem exists_of_bracedName? {c : Char} {name : Text} (h : bracedName? (c :: t) = some name) :
    (braced name).IsNormal ∧ ∃ rest, t = name ++ '}' :: rest := by
  obtain ⟨a, b, rfl, ha, hb⟩ := Text.exists_run (· != '}') t
  have hinner : (a ++ b).takeWhile (· != '}') = a := Text.takeWhile_run ha hb
  rw [bracedName?, List.tail_cons, hinner] at h
  split at h
  · exact absurd h (by simp)
  · next hok =>
    obtain rfl := Option.some.inj h
    simp only [List.drop_left, Bool.or_eq_true, not_or, Bool.not_eq_true, Bool.not_eq_false',
      List.isEmpty_eq_false_iff, List.all_eq_true] at hok
    obtain ⟨⟨hclosed, hne⟩, hchars⟩ := hok
    refine ⟨⟨hne, fun c hc => isNameChar_iff.1 (hchars c hc)⟩, ?_⟩
    obtain ⟨d, rest, rfl⟩ := List.exists_cons_of_ne_nil hclosed
    have hd := hb d rfl
    simp at hd
    exact ⟨rest, by rw [hd]⟩

theorem numbered_of_isDigit {c : Char} (hc : c.isDigit = true) (t : Text) :
    (numbered (c :: (t.take 1).takeWhile Char.isDigit)).IsNormal ∧
      ∃ rest, t = (t.take 1).takeWhile Char.isDigit ++ rest ∧
        (numbered (c :: (t.take 1).takeWhile Char.isDigit)).EndsBefore rest := by
  cases t with
  | nil => exact ⟨⟨.inl rfl, by simpa using hc⟩, [], rfl, endsBefore_nil _⟩
  | cons d t =>
    cases hd : d.isDigit with
    | true => exact ⟨by simp [IsNormal, hc, hd], t, by simp [hd], by simp [EndsBefore, hd]⟩
    | false => exact ⟨by simp [IsNormal, hc, hd], d :: t, by simp [hd], by simp [EndsBefore, hd]⟩

/-- Whatever is read as a reference is the written form of one, before a text that it can end
before. -/
theorem exists_of_reference? (h : reference? t = some (some part, n)) :
    part.IsReference ∧ part.IsNormal ∧
      ∃ rest, t = part.written ++ rest ∧ n = part.written.length ∧ part.EndsBefore rest := by
  cases t with
  | nil => simp [reference?] at h
  | cons c t =>
    cases hc : c.isDigit with
    | true =>
      rw [reference?_of_isDigit hc] at h
      simp only [Option.some.injEq, Prod.mk.injEq] at h
      obtain ⟨rfl, rfl⟩ := h
      obtain ⟨hnormal, rest, ht, hends⟩ := numbered_of_isDigit hc t
      exact ⟨trivial, hnormal, rest, congrArg (c :: ·) ht, rfl, hends⟩
    | false =>
      unfold reference? at h
      split at h
      case h_1 => simp at h
      case h_2 heq | h_3 heq | h_4 heq =>
        obtain ⟨rfl, rfl⟩ := List.cons.inj heq
        simp only [Option.some.injEq, Prod.mk.injEq] at h
        obtain ⟨rfl, rfl⟩ := h
        exact ⟨trivial, trivial, t, rfl, rfl, by simp [EndsBefore]⟩
      case h_5 heq =>
        obtain ⟨rfl, rfl⟩ := List.cons.inj heq
        obtain ⟨name, hname, he⟩ := Option.map_eq_some_iff.1 h
        simp only [Option.some.injEq, Prod.mk.injEq] at he
        obtain ⟨rfl, rfl⟩ := he
        obtain ⟨hnormal, rest, rfl⟩ := exists_of_bracedName? hname
        exact ⟨trivial, hnormal, rest, by simp [written, print], by simp [written, print],
          by simp [EndsBefore]⟩
      case h_6 => simp [hc] at h

theorem parseFrom_written (hr : part.IsReference) (hn : part.IsNormal) (ht : part.EndsBefore t)
    (reversed : Text) :
    parseFrom 0 reversed (part.print ++ t) = ofLiteral reversed ++ part :: parseFrom 0 [] t := by
  rw [print_of_isReference hr, List.cons_append, parseFrom, if_pos (by simp),
    reference?_written hr hn ht]
  simp only
  rw [parseFrom_length]

theorem parseFrom_doubled (text reversed t : Text) :
    parseFrom 0 reversed (doubled text ++ t) = parseFrom 0 (text.reverse ++ reversed) t := by
  induction text generalizing reversed with
  | nil => rfl
  | cons c text ih =>
    have hcons : doubled (c :: text) = (if c == '$' then ['$', '$'] else [c]) ++ doubled text := rfl
    rw [hcons, List.reverse_cons, List.append_assoc, List.append_assoc, List.singleton_append, ← ih]
    by_cases hc : c = '$'
    · simp [hc, parseFrom, reference?]
    · simp [hc, parseFrom]

theorem head?_doubled_append (h : text ≠ []) (t : Text) :
    (doubled text ++ t).head? = text.head? := by
  obtain ⟨c, r, rfl⟩ := List.exists_cons_of_ne_nil h
  by_cases hc : c = '$' <;> simp [doubled, hc]

theorem endsBefore_print (h : Normal (part :: l)) (hr : part.IsReference) :
    part.EndsBefore (l.flatMap print) := by
  obtain ⟨-, hnext, hl⟩ := normal_cons_iff.1 h
  cases l with
  | nil => exact endsBefore_nil part
  | cons other l =>
    have hother : other.IsNormal := (normal_cons_iff.1 hl).1
    rw [List.flatMap_cons]
    cases other with
    | literal text =>
      exact ((mayPrecede_literal hr).1 (hnext _ rfl)).congr (head?_doubled_append hother _).symm
    | _ => exact endsBefore_dollar part _

/-- A list of parts is read back from its written form, behind a literal that its first part does
not join. -/
theorem parseFrom_print (h : Normal l) {reversed : Text}
    (hjoin : reversed = [] ∨ ∀ part ∈ l.head?, part.IsReference) :
    parseFrom 0 reversed (l.flatMap print) = ofLiteral reversed ++ l := by
  induction l generalizing reversed with
  | nil => simp [parseFrom]
  | cons part l ih =>
    obtain ⟨hpart, hnext, hl⟩ := normal_cons_iff.1 h
    rw [List.flatMap_cons]
    by_cases hr : part.IsReference
    · rw [parseFrom_written hr hpart (endsBefore_print h hr), ih hl (.inl rfl)]
      rfl
    · cases part with
      | literal text =>
        obtain rfl : reversed = [] := hjoin.resolve_right fun hhead => hr (hhead _ rfl)
        have hfirst : ∀ other ∈ l.head?, other.IsReference := by
          intro other hother
          have := hnext other hother
          cases other with
          | literal text => exact this
          | _ => trivial
        rw [print_literal, parseFrom_doubled, ih hl (.inr hfirst)]
        have htext : text ≠ [] := hpart
        simp [ofLiteral, htext]
      | _ => exact absurd trivial hr

/-- A literal and a reference behind a reference that ends before them. -/
theorem Normal.of_literal (hr : part.IsReference) (hn : part.IsNormal) {reversed : Text}
    (hends : part.EndsBefore (reversed.reverse ++ t)) (hl : Normal l)
    (hfirst : ∀ other ∈ l.head?, other.IsReference) :
    Normal (part :: (ofLiteral reversed ++ l)) := by
  cases reversed with
  | nil =>
    exact normal_cons_iff.2 ⟨hn, fun other h => mayPrecede_of_isReference (hfirst other h) part, hl⟩
  | cons c reversed =>
    have hliteral : Normal (literal (c :: reversed).reverse :: l) :=
      normal_cons_iff.2
        ⟨by simp [IsNormal], fun other h => mayPrecede_of_isReference (hfirst other h) _, hl⟩
    refine normal_cons_iff.2 ⟨hn, fun other hother => ?_, hliteral⟩
    obtain rfl : literal (c :: reversed).reverse = other := Option.some.inj hother
    exact (mayPrecede_literal hr).2 (hends.congr (List.head?_append_of_ne_nil _ (by simp)))

/-- Reading goes on with a normal list behind a reference that ends before the text gathered and
what is left to read. The induction is on the text, with the characters to pass over, the text
gathered and the reference before it left free. -/
theorem normal_parseFrom (taken : Nat) (reversed t : Text) (hr : part.IsReference)
    (hn : part.IsNormal) (hends : part.EndsBefore (reversed.reverse ++ t.drop taken)) :
      Normal (part :: parseFrom taken reversed t) := by
  induction t generalizing taken reversed part with
  | nil =>
    have hnil : parseFrom taken reversed [] = ofLiteral reversed ++ [] := by
      cases taken <;> simp [parseFrom]
    rw [hnil]
    exact .of_literal hr hn hends ⟨by simp, .nil⟩ (by simp)
  | cons c t ih =>
    cases taken with
    | succ taken => exact ih taken reversed hr hn hends
    | zero =>
      rw [List.drop_zero] at hends
      have hgather : part.EndsBefore ((c :: reversed).reverse ++ t) := by simpa using hends
      simp only [parseFrom]
      split
      · next hc =>
        obtain rfl : c = '$' := by simpa using hc
        split
        · next other n href =>
          obtain ⟨hother, hnormal, rest, rfl, rfl, hrest⟩ := exists_of_reference? href
          have htail :
              Normal (other :: parseFrom other.written.length [] (other.written ++ rest)) :=
            ih other.written.length [] hother hnormal (by simpa using hrest)
          refine .of_literal hr hn hends htail fun first hfirst => ?_
          obtain rfl := Option.some.inj hfirst
          exact hother
        · exact ih _ _ hr hn (hgather.congr (by cases reversed <;> simp))
        · exact ih _ _ hr hn hgather
      · exact ih _ _ hr hn hgather

/-- Reading and writing templates are inverse to each other on normal lists of parts. What is read
is always normal, a normal list is read back from its written form, and a text with its dollar signs
doubled stands for that text whatever the match is. -/
theorem parse_print :
    (∀ t, Normal (parse t)) ∧ (∀ l, Normal l → parse (l.flatMap print) = l) ∧
      ∀ (t : Text) (m : Match), renderTemplate m (doubled t) = t := by
  refine ⟨fun t => ?_, fun l h => parseFrom_print h (.inl rfl), fun t m => ?_⟩
  · exact (normal_cons_iff.1
      (@normal_parseFrom wholeMatch 0 [] t trivial trivial (by simp [EndsBefore]))).2.2
  · have hread := parseFrom_doubled t [] []
    rw [List.append_nil, List.append_nil] at hread
    rw [renderTemplate, parse, hread, flatMap_render_parseFrom]
    simp [parseFrom, ofLiteral]

/-- Digits behind references, dollar signs around them and in braces. -/
theorem parse_print_digits :
    Normal [literal ['$', '1', '\x7b'], numbered ['1'], braced ['$', '_', 'é'], numbered ['0', '2'],
      literal ['3'],
        numbered ['4'], literal ['$', '5'], before, literal ['$']] ∧
      parse "$$1\x7b$1$\x7b$_é\x7d$023$4$$5$\x60$$".toList =
        [literal ['$', '1', '\x7b'], numbered ['1'], braced ['$', '_', 'é'], numbered ['0', '2'],
          literal ['3'], numbered ['4'], literal ['$', '5'], before, literal ['$']] := by
  have hnormal :
      Normal [literal ['$', '1', '\x7b'], numbered ['1'], braced ['$', '_', 'é'],
        numbered ['0', '2'],
      literal ['3'], numbered ['4'], literal ['$', '5'], before, literal ['$']] := by
    have hletter : Unicode.isAlphanumeric 'é' = true := by decide +kernel
    exact ⟨by simp [IsNormal, hletter], by simp [MayPrecede, EndsBefore]⟩
  exact ⟨hnormal, parse_print.2.1 _ hnormal⟩

end TemplatePart
end RegexDialect
