import RegexDialect.Proofs.FlagIndependence
import RegexDialect.Proofs.Modes
import RegexDialect.Proofs.NativePatterns

/-! The only error of a compilation with the built-in rules. It is decided by a plain reading of the
pattern, which knows of classes, escapes and comments and of nothing else: the leftmost named opener
whose name is a number. -/
namespace RegexDialect

open Baseline

namespace PlainReading

def braces : Text → Nat
  | '\x7b' :: r => if r.contains '}' then (r.takeWhile (· != '}')).length + 2 else 0
  | _ => 0

/-- What belongs to a comment or to an empty class, behind its first character: a closed comment in
parentheses, and under free spacing what is left of the line behind a number sign. -/
def elided (spacing : Bool) : Text → Nat
  | '(' :: '?' :: '#' :: r => if r.contains ')' then (r.takeWhile (· != ')')).length + 3 else 0
  | '[' :: ']' :: _ => 1
  | '[' :: '^' :: ']' :: _ => 2
  | '#' :: r => if spacing then (r.takeWhile (· != '\n')).length else 0
  | _ => 0

/-- How many characters behind the first one of a text are not read on their own: what a backslash
escapes, with the braces of a property, and outside of classes comments and empty classes. -/
def covered (spacing : Bool) (scope : Scope) : Text → Nat
  | '\\' :: c :: r => 1 + if c = 'p' ∨ c = 'P' then braces r else 0
  | t => if scope = .outsideClass then elided spacing t else 0

/-- What is left of a text at each of its places outside of classes, escapes and comments; the first
`skip` characters belong to what stands before them. -/
def places (spacing : Bool) : Scope → (skip : Nat) → Text → List Text
  | _, _, [] => []
  | scope, skip + 1, _ :: r => places spacing scope skip r
  | scope, 0, c :: r =>
    match covered spacing scope (c :: r) with
    | 0 =>
      (if scope = .outsideClass then [c :: r] else []) ++ places spacing (scopeBehind scope c) 0 r
    | n + 1 => places spacing scope (n + 1) r

def Encloses (opening : Text) (p : Char → Bool) (closing : Char) (name t : Text) : Prop :=
  name ≠ [] ∧ (∀ c ∈ name, p c = true) ∧ ∃ after, t = opening ++ name ++ [closing] ++ after

/-- A text begins with a named opener whose name is the given number. -/
def Numbered (name t : Text) : Prop :=
  ∃ tag ∈ [['(', '?', '<'], ['(', '?', 'P', '<']], Encloses tag Char.isDigit '>' name t

/-- The first of some texts that begins with a numbered opener, and the number. -/
def FirstNumbered (name : Text) (l : List Text) : Prop :=
  ∃ before t after, l = before ++ t :: after ∧ (∀ u ∈ before, ∀ other, ¬Numbered other u) ∧
    Numbered name t

def isMode (c : Char) : Bool := ['i', 'm', 'n', 's', 'x'].contains c

/-- Number signs begin comments in a pattern: the flag `x` is given, or a mode modifier at the start
sets it. -/
def Spaced (pattern : Text) (flags : Flags) : Prop :=
  flags.has 'x' = true ∨ ∃ letters, Encloses ['(', '?'] isMode ')' letters pattern ∧ 'x' ∈ letters

section Enclosed

variable {opening name t : Text} {p : Char → Bool} {closing c : Char}

def enclosed? (opening : Text) (p : Char → Bool) (closing : Char) (t : Text) : Option Text :=
  let name := (t.drop opening.length).takeWhile p
  if name ≠ [] ∧ opening ++ name ++ [closing] <+: t then some name else none

theorem enclosed?_eq_some_iff (hp : p closing = false) :
    enclosed? opening p closing t = some name ↔ Encloses opening p closing name t := by
  simp only [enclosed?, Option.ite_none_right_eq_some, Option.some.injEq]
  constructor
  · rintro ⟨⟨hn, after, ht⟩, rfl⟩
    exact ⟨hn, List.all_eq_true.1 List.all_takeWhile, after, ht.symm⟩
  · rintro ⟨hn, hc, after, rfl⟩
    have hname :
        ((opening ++ name ++ [closing] ++ after).drop opening.length).takeWhile p = name := by
      rw [List.append_assoc, List.append_assoc, List.drop_left]
      exact Text.takeWhile_run hc (by simpa using hp)
    rw [hname]
    exact ⟨⟨hn, List.prefix_append _ after⟩, rfl⟩

theorem enclosed?_eq_none (h : ¬opening <+: t) : enclosed? opening p closing t = none := by
  refine if_neg fun hname => h ?_
  exact ((List.prefix_append opening _).trans (List.prefix_append _ _)).trans hname.2

def numberedName? (t : Text) : Option Text :=
  (enclosed? ['(', '?', '<'] Char.isDigit '>' t).or
    (enclosed? ['(', '?', 'P', '<'] Char.isDigit '>' t)

/-- A numbered opener begins a text in one way only. -/
theorem numberedName?_eq_some_iff : numberedName? t = some name ↔ Numbered name t := by
  have hp : Char.isDigit '>' = false := rfl
  simp only [numberedName?, Option.or_eq_some_iff, Numbered, List.exists_mem_cons_iff,
    List.not_mem_nil, false_and, exists_false, or_false, enclosed?_eq_some_iff hp]
  constructor
  · rintro (h | ⟨-, h⟩)
    · exact .inl h
    · exact .inr h
  · rintro (h | ⟨hn, hd, after, rfl⟩)
    · exact .inl h
    · exact .inr ⟨enclosed?_eq_none (by simp), hn, hd, after, rfl⟩

theorem numberedName?_eq_none_iff : numberedName? t = none ↔ ∀ name, ¬Numbered name t := by
  rw [Option.eq_none_iff_forall_ne_some]
  exact forall_congr' fun name => not_congr numberedName?_eq_some_iff

def leadingModes (t : Text) : Text := (enclosed? ['(', '?'] isMode ')' t).getD []

theorem spaced_iff {pattern : Text} {flags : Flags} :
    Spaced pattern flags ↔ flags.has 'x' = true ∨ 'x' ∈ leadingModes pattern := by
  refine or_congr_right ⟨?_, fun hx => ?_⟩
  · rintro ⟨letters, hletters, hx⟩
    rwa [leadingModes, (enclosed?_eq_some_iff rfl).2 hletters, Option.getD_some]
  · rw [leadingModes] at hx
    rcases hread : enclosed? ['(', '?'] isMode ')' pattern with _ | letters
    · rw [hread] at hx
      exact absurd hx (by simp)
    · rw [hread, Option.getD_some] at hx
      exact ⟨letters, (enclosed?_eq_some_iff rfl).1 hread, hx⟩

instance (pattern : Text) (flags : Flags) :
    Decidable (Spaced pattern flags) := decidable_of_iff' _ spaced_iff

end Enclosed

def firstNumber? (spacing : Bool) (scope : Scope) (t : Text) : Option Text :=
  (places spacing scope 0 t).findSome? numberedName?

theorem firstNumber?_eq_some_iff {spacing : Bool} {scope : Scope} {name t : Text} :
    firstNumber? spacing scope t = some name ↔ FirstNumbered name (places spacing scope 0 t) := by
  simp only [firstNumber?, List.findSome?_eq_some_iff, FirstNumbered, numberedName?_eq_some_iff,
    numberedName?_eq_none_iff]
  grind

variable {spacing : Bool} {scope : Scope} {c : Char} {a name rest t : Text}

theorem numberedName?_of_ne (h : c ≠ '(') (t : Text) : numberedName? (c :: t) = none := by
  rw [numberedName?, enclosed?_eq_none (by simp [Ne.symm h]),
    enclosed?_eq_none (by simp [Ne.symm h])]
  rfl

section Steps

theorem elided_of_other (h : c ∉ ['(', '[']) (hs : spacing = true → c ≠ '#') (t : Text) :
    elided spacing (c :: t) = 0 := by
  simp only [List.mem_cons, List.not_mem_nil, or_false, not_or] at h
  unfold elided
  split
  · next heq => exact absurd (List.cons.inj heq).1 h.1
  · next heq => exact absurd (List.cons.inj heq).1 h.2
  · next heq => exact absurd (List.cons.inj heq).1 h.2
  · next heq => exact if_neg fun hx => hs hx (List.cons.inj heq).1
  · rfl

theorem covered_of_ne (h : c ≠ '\\') (t : Text) :
    covered spacing scope (c :: t) = if scope = .outsideClass then
      elided spacing (c :: t) else 0 := by
  unfold covered
  split
  · next heq => exact absurd (List.cons.inj heq).1 h
  · rfl

theorem firstNumber?_bare (h : covered spacing scope (c :: t) = 0)
    (hn : scope = .outsideClass → numberedName? (c :: t) = none) :
    firstNumber? spacing scope (c :: t) = firstNumber? spacing (scopeBehind scope c) t := by
  rw [firstNumber?, places, h]
  dsimp only
  split
  · next hs => rw [List.singleton_append, List.findSome?_cons, hn hs]; rfl
  · rfl

@[simp] theorem places_nil (spacing : Bool) (scope : Scope) (skip : Nat) :
    places spacing scope skip [] = [] := by
  cases skip <;> rfl

theorem places_skip (spacing : Bool) (scope : Scope) (a t : Text) :
    places spacing scope a.length (a ++ t) = places spacing scope 0 t := by
  induction a with
  | nil => rfl
  | cons c a ih => exact ih

theorem firstNumber?_covered (ha : a ≠ []) (h : covered spacing scope (c :: (a ++ t)) = a.length) :
    firstNumber? spacing scope (c :: (a ++ t)) = firstNumber? spacing scope t := by
  obtain ⟨n, hn⟩ := Nat.exists_eq_succ_of_ne_zero (List.length_pos_iff.2 ha).ne'
  rw [firstNumber?, places, h, hn]
  dsimp only
  rw [← Nat.succ_eq_add_one, ← hn, places_skip, firstNumber?]

def starters : Text := ['\\', '(', '[', ']', '#']

/-- Characters that begin nothing and leave the scope as it is. -/
def IsIdle (spacing : Bool) (scope : Scope) (c : Char) : Prop :=
  c ≠ '\\' ∧ scopeBehind scope c = scope ∧
    (scope = .outsideClass → c ∉ ['(', '['] ∧ (spacing = true → c ≠ '#'))

theorem firstNumber?_idle (h : ∀ c ∈ a, IsIdle spacing scope c) (t : Text) :
    firstNumber? spacing scope (a ++ t) = firstNumber? spacing scope t := by
  induction a with
  | nil => rfl
  | cons c a ih =>
    obtain ⟨hb, hscope, hout⟩ := h c (by simp)
    have hcovered : covered spacing scope (c :: (a ++ t)) = 0 := by
      rw [covered_of_ne hb]
      split
      · next hs => exact elided_of_other (hout hs).1 (hout hs).2 _
      · rfl
    rw [List.cons_append, firstNumber?_bare hcovered, hscope]
    · exact ih fun d hd => h d (by simp [hd])
    · exact fun hs => numberedName?_of_ne (by rintro rfl; exact (hout hs).1 (by simp)) _

theorem isIdle_of_not_starter (h : starters.contains c = false) : IsIdle spacing scope c := by
  have hne : ∀ d ∈ ['\\', '(', '[', ']', '#'], c ≠ d := by
    rintro d hd rfl
    have hmem : starters.contains c = true := List.contains_iff_mem.2 hd
    exact absurd (hmem.symm.trans h) (by simp)
  have hscope : scopeBehind scope c = scope := scopeBehind_of_ne (hne _ (by simp)) (hne _ (by simp))
  refine ⟨hne _ (by simp), hscope, fun _ => ⟨?_, fun _ => hne _ (by simp)⟩⟩
  simpa using ⟨hne '(' (by simp), hne '[' (by simp)⟩

theorem isIdle_of_test {p : Char → Bool} (hp : (starters.all fun d => !p d) = true)
    (h : p c = true) :
    IsIdle spacing scope c := by
  refine isIdle_of_not_starter (Bool.eq_false_iff.2 fun hc => ?_)
  have hfails := List.all_eq_true.1 hp c (List.contains_iff_mem.1 hc)
  simp [h] at hfails

theorem firstNumber?_enclosed {p : Char → Bool} {opening : Text} {closing : Char}
    (hp : (starters.all fun d => !p d) = true)
    (ho : (opening.all fun c => !starters.contains c) = true)
    (hc : starters.contains closing = false) (h : ∀ c ∈ name, p c = true) (t : Text) :
    firstNumber? spacing scope (opening ++ name ++ [closing] ++ t) =
      firstNumber? spacing scope t := by
  have hopening : ∀ c ∈ opening, IsIdle spacing scope c := fun c hmem =>
    isIdle_of_not_starter (by simpa using List.all_eq_true.1 ho c hmem)
  refine firstNumber?_idle ?_ t
  simp only [List.forall_mem_append, List.forall_mem_singleton]
  exact ⟨⟨hopening, fun c hmem => isIdle_of_test hp (h c hmem)⟩, isIdle_of_not_starter hc⟩

theorem isIdle_of_isDull (h : isDull c = true) :
    IsIdle spacing scope c := isIdle_of_test (by decide) h

theorem braces_eq (t : Text) : braces t = BaselineToken.braced (· != '}') t := by
  unfold braces
  split
  · next r =>
    split
    · next hclosed =>
      obtain ⟨name, after, rfl, hname⟩ :=
        List.eq_append_cons_of_mem (List.contains_iff_mem.1 hclosed)
      have hrun : ∀ c ∈ name, (c != '}') = true :=
        fun c hc => bne_iff_ne.2 fun he => hname (he ▸ hc)
      rw [braced_of_closed hrun (by decide), Text.takeWhile_run hrun (by simp)]
    · next hopen =>
      refine (by_contra fun hne => hopen ?_)
      obtain ⟨name, after, hr, -, -⟩ := exists_of_braced (Ne.symm hne)
      simp [(List.cons.inj hr).2]
  · next hne =>
    refine (by_contra fun hn => ?_)
    obtain ⟨name, after, rfl, -, -⟩ := exists_of_braced (Ne.symm hn)
    exact hne _ rfl

theorem covered_backslash (c : Char) (r : Text) : covered spacing scope ('\\' :: c :: r) =
    1 + if Place.opensName c r then BaselineToken.braced (· != '}') r else 0 := by
  rw [covered, braces_eq, Place.opensName]
  grind

theorem firstNumber?_escape {rest : Text} (h : BaselineToken.Tail c (a ++ rest) a.length) :
    firstNumber? spacing scope ('\\' :: c :: (a ++ rest)) = firstNumber? spacing scope rest := by
  by_cases ho : Place.opensName c (a ++ rest) = true
  · rw [BaselineToken.Tail, if_pos ho] at h
    have hcovered : covered spacing scope ('\\' :: ((c :: a) ++ rest)) = (c :: a).length := by
      rw [List.cons_append, covered_backslash, if_pos ho, ← h, List.length_cons, Nat.add_comm]
    exact firstNumber?_covered (by simp) hcovered
  · rw [BaselineToken.Tail, if_neg ho, List.take_left] at h
    have hcovered : covered spacing scope ('\\' :: ([c] ++ (a ++ rest))) = [c].length := by
      rw [List.singleton_append, covered_backslash, if_neg ho]
      rfl
    exact (firstNumber?_covered (by simp) hcovered).trans
      (firstNumber?_idle (fun d hd => isIdle_of_isDull (isDull_of_isTail (h.1 d hd))) rest)

theorem isIdle_of_isBlank (h : Unicode.isBlank c = true) :
    IsIdle spacing scope c := isIdle_of_test (by decide) h

theorem firstNumber?_numberSign (t : Text) : firstNumber? true .outsideClass ('#' :: t) =
    (places true .outsideClass (BaselineToken.run (· != '\n') t) t).findSome? numberedName? := by
  have hcovered : covered true .outsideClass ('#' :: t) = BaselineToken.run (· != '\n') t := rfl
  cases hrun : BaselineToken.run (· != '\n') t with
  | zero => exact firstNumber?_bare (hcovered.trans hrun) fun _ => numberedName?_of_ne (by decide) t
  | succ n => rw [firstNumber?, places, hcovered, hrun]

/-- A run of blanks and comments is passed over; in a comment the rest of its line is covered
already. -/
theorem findSome?_places_spacing {inComment : Bool} {source rest : Text}
    (h : Builtin.spacingLength inComment (source ++ rest) = source.length) :
    (places true .outsideClass
      (if inComment then BaselineToken.run (· != '\n') (source ++ rest) else 0)
      (source ++ rest)).findSome? numberedName? = firstNumber? true .outsideClass rest := by
  induction source generalizing inComment with
  | nil =>
    cases inComment with
    | false => rfl
    | true =>
      cases rest with
      | nil => rfl
      | cons c rest => simp [Builtin.spacingLength] at h
  | cons c source ih =>
    have idle : Unicode.isBlank c = true → Builtin.spacingLength false (source ++ rest) =
        source.length →
        firstNumber? true .outsideClass (c :: (source ++ rest)) =
          firstNumber? true .outsideClass rest := by
      intro hc hl
      have hfirst :=
        @firstNumber?_idle true .outsideClass [c] (by simpa using isIdle_of_isBlank hc)
          (source ++ rest)
      exact hfirst.trans (ih hl)
    rw [List.cons_append, List.length_cons] at h
    cases inComment with
    | false =>
      rw [Builtin.spacingLength] at h
      split at h
      · next hc => exact idle hc (by omega)
      · split at h
        · next hc =>
          obtain rfl := beq_iff_eq.1 hc
          have hl : Builtin.spacingLength true (source ++ rest) = source.length := by omega
          exact (firstNumber?_numberSign _).trans (ih hl)
        · exact absurd h (by simp)
    | true =>
      rw [Builtin.spacingLength] at h
      -- a line feed ends the comment and is itself a blank
      by_cases hc : c = '\n'
      · subst hc
        rw [bne_self_eq_false] at h
        exact idle (by decide) (by omega)
      · have hline : (c != '\n') = true := bne_iff_ne.2 hc
        rw [hline] at h
        have hrun : BaselineToken.run (· != '\n') (c :: (source ++ rest)) =
            BaselineToken.run (· != '\n') (source ++ rest) + 1 := by simp [BaselineToken.run, hline]
        have hl : Builtin.spacingLength true (source ++ rest) = source.length := by omega
        rw [List.cons_append, if_pos rfl, hrun]
        exact ih hl

end Steps

end PlainReading

namespace Builtin

open PlainReading

variable {position : Nat} {context c : Context} {scope after : Scope} {source rest output : Text}

theorem isNameChar_of_isDigit {d : Char} (h : d.isDigit = true) : isNameChar d = true := by
  simp [isNameChar, Unicode.isWord_of_isDigit h]

theorem recognize_of_numberedName? {t name : Text} (h : numberedName? t = some name) :
    namedGroup.recognize t = some (runToken ['(', '?', '<'] name '>') ∨
      taggedGroup.recognize t = some (runToken ['(', '?', 'P', '<'] name '>') := by
  obtain ⟨tag, htag, hne, hd, after, rfl⟩ := numberedName?_eq_some_iff.1 h
  have hc : ∀ c ∈ name, isNameChar c = true := fun c hc => isNameChar_of_isDigit (hd c hc)
  have recognized : ∀ tag, recognizeRun tag isNameChar '>' (tag ++ name ++ ['>'] ++ after) =
      some (runToken tag name '>') := fun tag =>
    (recognizeRun_eq_some_iff rfl).2 ⟨name, after, by simp, hne, hc, rfl⟩
  simp only [List.mem_cons, List.not_mem_nil, or_false] at htag
  rcases htag with rfl | rfl
  · exact .inl (recognized _)
  · exact .inr (recognized _)

theorem numberedName?_of_recognize {t : Text} (h : namedGroup.recognize t = none)
    (ht : taggedGroup.recognize t = none) : numberedName? t = none := by
  refine Option.eq_none_iff_forall_ne_some.2 fun name hname => ?_
  rcases recognize_of_numberedName? hname with hr | hr
  · exact absurd (h.symm.trans hr) (by simp)
  · exact absurd (ht.symm.trans hr) (by simp)

/-- A parenthesis that opens neither a comment nor a numbered group is a place like any other. -/
theorem firstNumber?_paren (spacing : Bool) {t : Text} (hc : comment.recognize ('(' :: t) = none)
    (hn : numberedName? ('(' :: t) = none) :
    firstNumber? spacing .outsideClass ('(' :: t) = firstNumber? spacing .outsideClass t := by
  have helided : elided spacing ('(' :: t) = 0 := by
    unfold elided
    split
    · next r heq =>
      obtain rfl := (List.cons.inj heq).2
      refine if_neg fun hclosed => ?_
      obtain ⟨body, rest, rfl, hbody⟩ :=
        List.eq_append_cons_of_mem (List.contains_iff_mem.1 hclosed)
      have hlength :=
        commentLength?_eq_some_iff.2 ⟨body, rest, rfl, fun c hc he => hbody (he ▸ hc), rfl⟩
      simp [recognize, hlength] at hc
    all_goals first | rfl | next heq => simp at heq
  exact firstNumber?_bare ((covered_of_ne (by decide) t).trans helided) fun _ => hn

/-- Where no rule takes an opening parenthesis with a question mark behind it, it begins neither a
comment nor a named group. -/
theorem firstNumber?_special (spacing : Bool)
    (h : ∀ b ∈ group.earlier, b.recognizeIn ('(' :: '?' :: rest) .outsideClass context = none) :
    firstNumber? spacing .outsideClass ('(' :: '?' :: rest) =
      firstNumber? spacing .outsideClass ('?' :: rest) := by
  have off : ∀ b ∈ [comment, namedGroup, taggedGroup], b.recognize ('(' :: '?' :: rest) = none := by
    intro b hb
    simp only [List.mem_cons, List.not_mem_nil, or_false] at hb
    rcases hb with
      rfl | rfl | rfl <;> exact recognize_of_recognizeIn_none (by decide) rfl (h _ (by decide))
  exact firstNumber?_paren spacing (off _ (by simp))
    (numberedName?_of_recognize (off _ (by simp)) (off _ (by simp)))

theorem firstNumber?_group (spacing : Bool) (h : rest.head? ≠ some '?') :
    firstNumber? spacing .outsideClass ('(' :: rest) = firstNumber? spacing .outsideClass rest :=
  firstNumber?_paren spacing (recognize_of_paren h (by decide))
    (numberedName?_of_recognize (recognize_of_paren h (by decide))
      (recognize_of_paren h (by decide)))

theorem firstNumber?_modifier (spacing : Bool) {letters : Text} (hn : letters ≠ [])
    (hl : ∀ c ∈ letters, isModifier c = true) (rest : Text) :
    firstNumber? spacing .outsideClass (['(', '?'] ++ letters ++ [')'] ++ rest) =
      firstNumber? spacing .outsideClass rest := by
  have hbehind : firstNumber? spacing .outsideClass (['?'] ++ letters ++ [')'] ++ rest) =
      firstNumber? spacing .outsideClass rest :=
        firstNumber?_enclosed (by decide) (by decide) (by decide) hl rest
  obtain ⟨d, ds, rfl⟩ := List.exists_cons_of_ne_nil hn
  have hne : ∀ e : Char, isModifier e = false → e ≠ d := by
    rintro e he rfl
    exact absurd (hl e (by simp)) (by simp [he])
  have h₁ := hne '#' (by decide)
  have h₂ := hne '<' (by decide)
  have h₃ := hne 'P' (by decide)
  refine (firstNumber?_paren spacing ?_ (numberedName?_of_recognize ?_ ?_)).trans hbehind
  · simp [recognize, commentLength?, Text.dropHead?, h₁]
  · exact recognizeRun_of_not_opening (by simp [Text.dropHead?, h₂])
  · exact recognizeRun_of_not_opening (by simp [Text.dropHead?, h₃])

theorem numberedName?_of_named {tag name : Text}
    (ht : tag = ['(', '?', '<'] ∨ tag = ['(', '?', 'P', '<'])
    (hn : name ≠ []) (hc : ∀ c ∈ name, isNameChar c = true) (hd : name.all Char.isDigit = false)
    (rest : Text) :
    numberedName? (tag ++ name ++ ['>'] ++ rest) = none := by
  refine Option.eq_none_iff_forall_ne_some.2 fun other hother => ?_
  obtain ⟨tag', htag', hn', hd', after, heq⟩ := numberedName?_eq_some_iff.1 hother
  have hsame : tag' = tag := by
    simp only [List.mem_cons, List.not_mem_nil, or_false] at htag'
    rcases ht with rfl | rfl <;> rcases htag' with rfl | rfl <;> simp at heq ⊢
  subst hsame
  have hclosing : isNameChar '>' = false := rfl
  have hread : enclosed? tag' isNameChar '>' (tag' ++ name ++ ['>'] ++ rest) = some name :=
    (enclosed?_eq_some_iff hclosing).2 ⟨hn, hc, rest, rfl⟩
  have hread' :=
    (enclosed?_eq_some_iff hclosing).2
      ⟨hn', fun c hc => isNameChar_of_isDigit (hd' c hc), after, heq⟩
  obtain rfl := Option.some.inj (hread.symm.trans hread')
  exact absurd (List.all_eq_true.2 hd') (by simp [hd])

theorem firstNumber?_named (spacing : Bool) {tag name : Text}
    (ht : tag = ['(', '?', '<'] ∨ tag = ['(', '?', 'P', '<'])
    (hn : name ≠ []) (hc : ∀ c ∈ name, isNameChar c = true) (hd : name.all Char.isDigit = false)
    (rest : Text) :
    firstNumber? spacing .outsideClass (tag ++ name ++ ['>'] ++ rest) =
      firstNumber? spacing .outsideClass rest := by
  have hbehind : ∀ opening : Text, (opening.all fun c => !starters.contains c) = true →
      firstNumber? spacing .outsideClass (opening ++ name ++ ['>'] ++ rest) =
        firstNumber? spacing .outsideClass rest := fun opening ho =>
    firstNumber?_enclosed (by decide) ho (by decide) hc rest
  have hnumber := numberedName?_of_named ht hn hc hd rest
  rcases ht with rfl | rfl
  · refine (firstNumber?_paren spacing ?_ hnumber).trans (hbehind ['?', '<'] (by decide))
    simp [recognize, commentLength?, Text.dropHead?]
  · refine (firstNumber?_paren spacing ?_ hnumber).trans (hbehind ['?', 'P', '<'] (by decide))
    simp [recognize, commentLength?, Text.dropHead?]

theorem firstNumber?_reference (spacing : Bool) {name : Text} (hc : ∀ c ∈ name, isNameChar c = true)
    (rest : Text) :
    firstNumber? spacing .outsideClass (['\\', 'k', '<'] ++ name ++ ['>'] ++ rest) =
      firstNumber? spacing .outsideClass rest := by
  have hescape := @firstNumber?_escape spacing .outsideClass 'k' [] (['<'] ++ name ++ ['>'] ++ rest)
    (BaselineToken.tail_zero (opensName_of_ne (by decide) (by decide) _))
  exact hescape.trans (firstNumber?_enclosed (by decide) (by decide) (by decide) hc rest)

theorem firstNumber?_comment (spacing : Bool) {body : Text} (hb : ∀ c ∈ body, c ≠ ')')
    (rest : Text) :
    firstNumber? spacing .outsideClass (['(', '?', '#'] ++ body ++ [')'] ++ rest) =
      firstNumber? spacing .outsideClass rest := by
  have hbody : (body ++ ')' :: rest).takeWhile (· != ')') = body :=
    Text.takeWhile_run (fun c h => bne_iff_ne.2 (hb c h)) (by simp)
  have hcovered : covered spacing .outsideClass ('(' :: (('?' :: '#' :: (body ++ [')'])) ++ rest)) =
      ('?' :: '#' :: (body ++ [')'])).length := by
    simp [covered, elided, hbody]
  have hcomment := firstNumber?_covered (by simp) hcovered
  simpa using hcomment

theorem ne_paren_of_not_firing {d : Char} (h : firing? (d :: rest) .outsideClass context = none) :
    d ≠ '(' := by
  rintro rfl
  have hgroup := recognize_of_recognizeIn_none (by decide) rfl (firing?_eq_none_iff.1 h group)
  exact absurd hgroup (by simp [recognize])

theorem elided_of_not_firing {d : Char} (h : firing? (d :: rest) .outsideClass context = none) :
    elided (context.hasFlag 'x') (d :: rest) = 0 := by
  have hclass := recognize_of_recognizeIn_none (by decide) rfl (firing?_eq_none_iff.1 h emptyClass)
  unfold elided
  split
  · next heq => exact absurd (List.cons.inj heq).1 (ne_paren_of_not_firing h)
  · next heq => exact absurd hclass (by simp [heq, recognize])
  · next heq => exact absurd hclass (by simp [heq, recognize])
  · next heq => exact if_neg fun hx => ((keeps_of_not_firing h).1 hx).2 (List.cons.inj heq).1
  · rfl

theorem firstNumber?_char {d : Char} (hs : scope = .insideClass ∨ scope = .outsideClass)
    (hr : firing? (d :: rest) scope context = none)
    (hl : BaselineToken.length scope (d :: rest) = 0) :
    firstNumber? (context.hasFlag 'x') scope (d :: rest) =
      firstNumber? (context.hasFlag 'x') (scope.after d) rest := by
  have hcovered : covered (context.hasFlag 'x') scope (d :: rest) = 0 := by
    by_cases hd : d = '\\'
    · subst hd
      -- a backslash that begins no escape is the last character
      have hend : rest = [] := by
        rcases hs with rfl | rfl
        · exact eq_nil_of_inClass (by simpa using hl)
        · exact eq_nil_of_outside (by simpa using hl)
      simp [hend, covered, elided]
    · rw [covered_of_ne hd]
      split
      · next ho =>
        subst ho
        exact elided_of_not_firing hr
      · rfl
  rw [← scopeBehind_eq_after hs]
  refine firstNumber?_bare hcovered fun ho => ?_
  subst ho
  exact numberedName?_of_ne (ne_paren_of_not_firing hr) rest

theorem Reads.firstNumber?_eq (h : Reads position context scope source rest output after c)
    (hs : scope = .insideClass ∨ scope = .outsideClass) :
    firstNumber? (c.hasFlag 'x') scope (source ++ rest) =
      firstNumber? (c.hasFlag 'x') after rest := by
  cases h with
  | dot =>
    exact @firstNumber?_idle _ .outsideClass ['.']
      (by simpa using isIdle_of_not_starter (by decide)) rest
  | spacing hflag hn hl =>
    rw [hflag]
    exact findSome?_places_spacing hl
  | leadingModifier hn hl => exact firstNumber?_modifier _ hn hl rest
  | laterModifier hn hl => exact firstNumber?_modifier _ hn hl rest
  | noCharacter => exact @firstNumber?_covered _ .outsideClass '[' [']'] rest (by simp) rfl
  | anyCharacter => exact @firstNumber?_covered _ .outsideClass '[' ['^', ']'] rest (by simp) rfl
  | reference hn hc => exact firstNumber?_reference _ hc rest
  | named ht hn hc hd => exact firstNumber?_named _ ht hn hc hd rest
  | comment hb => exact firstNumber?_comment _ hb rest
  | special h => exact firstNumber?_special _ h
  | uncaptured h => exact firstNumber?_group _ h
  | group h => exact firstNumber?_group _ h
  | sign hsign =>
    have hsigns : ∀ d ∈ source, d ≠ '\\' ∧ scopeBehind .insideClass d = .insideClass := by
      rcases hsign with rfl | rfl | rfl <;> exact Text.forall_mem_of_all (by decide)
    exact firstNumber?_idle
      (fun d hd => ⟨(hsigns d hd).1, (hsigns d hd).2, fun ho => absurd ho (by decide)⟩) rest
  | unit hr hn hl =>
    rcases unit_shapes hs hn hl with ⟨d, a, rfl, htail⟩ | ⟨rfl, ⟨d, -, rfl⟩ | hsigns⟩
    · exact firstNumber?_escape htail
    · exact absurd rfl (ne_paren_of_not_firing hr)
    · exact firstNumber?_idle
        (fun d hd => isIdle_of_isDull (isDull_of_isQuantifierSign (hsigns d hd))) rest
  | char hr hl => exact firstNumber?_char hs hr hl

end Builtin

open PlainReading

section Modes

variable {letters t : Text}

theorem isMode_eq (c : Char) : isMode c = Builtin.isModifier c := by
  rw [Bool.eq_iff_iff, Builtin.isModifier_iff, isMode, List.contains_iff_mem]

theorem leadingModes_modifier (hn : letters ≠ []) (hl : ∀ c ∈ letters, Builtin.isModifier c = true)
    (rest : Text) :
    leadingModes (['(', '?'] ++ letters ++ [')'] ++ rest) = letters := by
  have hread : enclosed? ['(', '?'] isMode ')' (['(', '?'] ++ letters ++ [')'] ++ rest) =
      some letters :=
    (enclosed?_eq_some_iff rfl).2 ⟨hn, fun c hc => (isMode_eq c).trans (hl c hc), rest, rfl⟩
  rw [leadingModes, hread, Option.getD_some]

theorem leadingModes_of_not_modifier (h : ¬BeginsWithModifier t) : leadingModes t = [] := by
  have hread : enclosed? ['(', '?'] isMode ')' t = none := by
    refine Option.eq_none_iff_forall_ne_some.2 fun letters hletters => ?_
    obtain ⟨hn, hl, rest, ht⟩ := (enclosed?_eq_some_iff rfl).1 hletters
    exact h ⟨letters, rest, hn, fun c hc => (isMode_eq c).symm.trans (hl c hc), ht⟩
  rw [leadingModes, hread, Option.getD_none]

end Modes

namespace Run

variable {pattern : Text} {flags : Flags} {inHandler : Bool} {s t : ScanState} {l : List Segment}
  {piece : Segment}

theorem hasFlag_of_step
    (hstep : (ScanState.start pattern ⟨.start flags, inHandler⟩).step Builtin.lookup pattern =
    .ok (some (piece, s))) (run : Run Builtin.lookup pattern s l t) :
    t.turn.context.hasFlag 'x' = decide (Spaced pattern flags) := by
  rw [Context.hasFlag, run.flags_eq_of_step hstep (.inr rfl), Bool.eq_iff_iff,
    decide_eq_true_iff, spaced_iff]
  -- only the first round can change the flags, and it does when it reads a modifier
  by_cases hp : BeginsWithModifier pattern
  · obtain ⟨letters, rest, hn, hl, rfl⟩ := hp
    have hreads : Builtin.Reads 0 (.start flags) .outsideClass (['(', '?'] ++ letters ++ [')']) rest
        [] .outsideClass ((Context.start flags).withModes letters) := .leadingModifier hn hl rfl
    obtain ⟨byRule, hmodifier⟩ :=
      @Builtin.step_of_reads rest .outsideClass (['(', '?'] ++ letters ++ [')'] ++ rest)
      _ _ 0 ⟨.start flags, inHandler⟩ _ _ hreads
    have hsame := hstep.symm.trans hmodifier
    simp only [Except.ok.injEq, Option.some.injEq, Prod.mk.injEq] at hsame
    rw [hsame.2, leadingModes_modifier hn hl, ← List.contains_iff_mem, ← Bool.or_eq_true,
      Bool.or_comm]
    exact Bool.eq_iff_iff.1 (flags.has_foldl_add letters 'x')
  · obtain ⟨hreads, -⟩ := Builtin.reads_of_step (.inr rfl) hstep
    have hfirst : s.turn.context.flags = flags := hreads.flags_eq ((rest_of_step hstep).1 ▸ hp)
    rw [hfirst, leadingModes_of_not_modifier hp]
    simp

/-- What a run passes over holds no opener with a number for a name. -/
theorem firstNumber?_eq (run : Run Builtin.lookup pattern s l t)
    (hs : s.scope = .insideClass ∨ s.scope = .outsideClass) :
    firstNumber? (t.turn.context.hasFlag 'x') s.scope s.rest =
      firstNumber? (t.turn.context.hasFlag 'x') t.scope t.rest := by
  induction run with
  | done => rfl
  | @round s s' t piece l hstep run ih =>
    obtain ⟨hreads, -⟩ := Builtin.reads_of_step hs hstep
    have hflag : t.turn.context.hasFlag 'x' = s'.turn.context.hasFlag 'x' := by
      rw [Context.hasFlag, run.flags_eq_of_step hstep hs, Context.hasFlag]
    have hround := hreads.firstNumber?_eq hs
    rw [(rest_of_step hstep).1, ← hflag] at hround
    exact hround.trans (ih (hreads.scope_after hs))

theorem firstNumber?_start
    (run : Run Builtin.lookup pattern (.start pattern ⟨.start flags, inHandler⟩) l t) :
    firstNumber? (Spaced pattern flags) .outsideClass pattern =
      firstNumber? (Spaced pattern flags) t.scope t.rest := by
  cases run with
  | done => rfl
  | round hstep run =>
    rw [← run.hasFlag_of_step hstep]
    exact (Run.round hstep run).firstNumber?_eq (.inr rfl)

end Run

theorem PlainReading.firstNumber?_of_numbered {spacing : Bool} {name t : Text}
    (h : numberedName? t = some name) :
    firstNumber? spacing .outsideClass t = some name := by
  obtain ⟨tag, htag, -, -, after, ht⟩ := numberedName?_eq_some_iff.1 h
  simp only [List.mem_cons, List.not_mem_nil, or_false] at htag
  have hcovered : covered spacing .outsideClass t = 0 := by
    rcases htag with rfl | rfl <;> rw [ht] <;> rfl
  obtain ⟨c, r, rfl⟩ : ∃ c r, t = c :: r := by rcases htag with rfl | rfl <;> exact ⟨_, _, ht⟩
  rw [firstNumber?, places, hcovered]
  dsimp only
  rw [if_pos rfl, List.singleton_append, List.findSome?_cons, h]

/-- A compilation with the built-in rules fails at one thing only: a named group, outside of
classes, escapes and comments, whose name is a number. The error holds the name of the leftmost of
them. -/
theorem Registry.compile_eq_error_iff (pattern : Text) (flags : Flags) (e : Error) :
    Registry.builtin.compile pattern flags = .error e ↔
      ∃ name, FirstNumbered name (places (Spaced pattern flags) .outsideClass 0 pattern) ∧
        e = .integerCaptureName name := by
  simp only [← firstNumber?_eq_some_iff]
  obtain ⟨l, t, run, ⟨ht, -⟩ | ⟨found, turn, hstep, hscan⟩⟩ :=
    Run.exists_last Builtin.lookup pattern (.start pattern ⟨.start flags, false⟩)
  · have hc := compile_of_scans ⟨l, run, rfl⟩ ht
    have hfirst := run.firstNumber?_start
    rw [ht] at hfirst
    rw [hc, hfirst]
    simp [firstNumber?]
  · obtain ⟨hscope, tag, name, after, htag, hn, -, hd, hrest, rfl⟩ :=
      Builtin.named_of_step_error (run.scope_and_mark (.inr rfl)).1 hstep
    have hname := numberedName?_eq_some_iff.2 ⟨tag, htag, hn, List.all_eq_true.1 hd, after, hrest⟩
    have hfirst := run.firstNumber?_start
    rw [hscope, firstNumber?_of_numbered hname] at hfirst
    have hc : Registry.builtin.compile pattern flags = .error (.integerCaptureName name) := by
      rw [compile_builtin, ← ScanState.scan_start, hscan]
    rw [hc, hfirst]
    constructor
    · intro he
      exact ⟨name, rfl, (Except.error.inj he).symm⟩
    · rintro ⟨other, hother, rfl⟩
      rw [Option.some.inj hother]

/-- Numbers in a class, behind a backslash and in a comment are passed over, and the first of the
two behind them is named. With a modifier at the start that sets `x` a number sign hides the rest of
its line. -/
theorem Registry.compile_eq_error_iff_hidden :
    (FirstNumbered ['0', '4']
      (places (Spaced "[(?<1>]\\(?<2>(?#(?<3>)(?P<04>x)(?<5>y)".toList .empty) .outsideClass 0
        "[(?<1>]\\(?<2>(?#(?<3>)(?P<04>x)(?<5>y)".toList) ∧
      Registry.builtin.compile "[(?<1>]\\(?<2>(?#(?<3>)(?P<04>x)(?<5>y)".toList .empty =
        .error (.integerCaptureName ['0', '4'])) ∧
    Spaced "(?ix)#(?<7>".toList .empty ∧
      ∀ e, Registry.builtin.compile "(?ix)#(?<7>".toList .empty ≠ .error e := by
  have hfirst :
      FirstNumbered ['0', '4']
        (places (Spaced "[(?<1>]\\(?<2>(?#(?<3>)(?P<04>x)(?<5>y)".toList .empty)
      .outsideClass 0 "[(?<1>]\\(?<2>(?#(?<3>)(?P<04>x)(?<5>y)".toList) :=
    firstNumber?_eq_some_iff.1 (by decide +kernel)
  have hnone :
      firstNumber? (Spaced "(?ix)#(?<7>".toList .empty) .outsideClass "(?ix)#(?<7>".toList =
        none := by
    decide +kernel
  refine ⟨⟨hfirst, (compile_eq_error_iff _ _ _).2 ⟨_, hfirst, rfl⟩⟩, by decide +kernel,
    fun e he => ?_⟩
  obtain ⟨name, hname, -⟩ := (compile_eq_error_iff _ _ _).1 he
  rw [← firstNumber?_eq_some_iff, hnone] at hname
  exact absurd hname (by simp)

end RegexDialect
