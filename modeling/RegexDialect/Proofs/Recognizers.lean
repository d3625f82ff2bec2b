import RegexDialect.Proofs.Firing

/-! The tokens of the built-in rules: what a recognized token looks like, and at which texts which
rule fires. -/
namespace RegexDialect
namespace Builtin

variable {rest t : Text} {context : Context} {p : Char → Bool} {opening : Text} {closing : Char}

def runToken (opening name : Text) (closing : Char) : Recognition :=
  ⟨(opening ++ name ++ [closing]).length, [some (opening ++ name ++ [closing]), some name]⟩

theorem recognizeRun_run {name after : Text} (hp : p closing = false) (hne : name ≠ [])
    (hname : ∀ c ∈ name, p c = true) :
    recognizeRun opening p closing (opening ++ (name ++ closing :: after)) =
      some (runToken opening name closing) := by
  have hrun : (name ++ closing :: after).takeWhile p = name :=
    Text.takeWhile_run hname (by simpa using hp)
  have htake : (opening ++ (name ++ closing :: after)).take (opening.length + name.length + 1) =
      opening ++ name ++ [closing] := by
    rw [show opening ++ (name ++ closing :: after) = opening ++ name ++ [closing] ++ after by simp]
    exact List.take_left' (by simp [Nat.add_assoc])
  have hdrop : (name ++ closing :: after).drop name.length = closing :: after := List.drop_left
  simp only [recognizeRun, Text.dropHead?_append, Option.bind_eq_bind,
    Option.bind_some, hrun, hdrop, List.head?_cons, htake]
  simp [hne, runToken, Nat.add_assoc]

theorem recognizeRun_eq_some_iff {r : Recognition} (hp : p closing = false) :
    recognizeRun opening p closing t = some r ↔
      ∃ name after, t = opening ++ (name ++ closing :: after) ∧ name ≠ [] ∧
        (∀ c ∈ name, p c = true) ∧ r = runToken opening name closing := by
  constructor
  · intro h
    have h' := h
    simp only [recognizeRun, Option.bind_eq_bind, Option.bind_eq_some_iff] at h
    obtain ⟨u, hu, next, hnext, h⟩ := h
    obtain rfl := Text.eq_append_of_dropHead? hu
    obtain ⟨name, after, rfl, hname, hafter⟩ := Text.exists_run p u
    rw [Text.takeWhile_run hname hafter, List.drop_left] at hnext
    rw [Text.takeWhile_run hname hafter] at h
    obtain ⟨d, after, rfl⟩ := List.exists_cons_of_ne_nil (l := after) (by rintro rfl; simp at hnext)
    obtain rfl : d = next := by simpa using hnext
    split at h
    · next hc =>
      simp only [Bool.and_eq_true, Bool.not_eq_true', List.isEmpty_eq_false_iff, beq_iff_eq] at hc
      obtain ⟨hne, rfl⟩ := hc
      rw [recognizeRun_run hp hne hname] at h'
      exact ⟨name, after, rfl, hne, hname, (Option.some.inj h').symm⟩
    · exact absurd h (by simp)
  · rintro ⟨name, after, rfl, hne, hname, rfl⟩
    exact recognizeRun_run hp hne hname

theorem commentLength?_eq_some_iff {n : Nat} : commentLength? t = some n ↔
    ∃ body after, t = '(' :: '?' :: '#' :: (body ++ ')' :: after) ∧ (∀ c ∈ body, c ≠ ')') ∧
      n = body.length + 4 := by
  constructor
  · intro h
    simp only [commentLength?, Option.bind_eq_bind, Option.bind_eq_some_iff] at h
    obtain ⟨u, hu, h⟩ := h
    obtain rfl := Text.eq_append_of_dropHead? hu
    obtain ⟨body, after, rfl, hbody, hafter⟩ := Text.exists_run (· != ')') u
    rw [BaselineToken.run, Text.takeWhile_run hbody hafter, List.drop_left] at h
    cases after with
    | nil => simp at h
    | cons d after =>
      obtain rfl : d = ')' := by simpa using hafter d rfl
      exact ⟨body, after, rfl, by simpa using hbody, by simpa using h.symm⟩
  · rintro ⟨body, after, rfl, hbody, rfl⟩
    have hrun : (body ++ ')' :: after).takeWhile (· != ')') = body :=
      Text.takeWhile_run (by simpa using hbody) (by simp)
    simp [commentLength?, BaselineToken.run, Text.dropHead?, hrun]

theorem spacingLength_le :
    ∀ (inComment : Bool) (t : Text), spacingLength inComment t ≤ t.length := by
  intro inComment t
  induction t generalizing inComment with
  | nil => cases inComment <;> simp [spacingLength]
  | cons c r ih =>
    have h₁ := ih true
    have h₂ := ih false
    have h₃ := ih (c != '\n')
    cases inComment
    · simp only [spacingLength, List.length_cons]
      split
      · omega
      · split <;> omega
    · simp only [spacingLength, List.length_cons]
      omega

/-- The shapes of the tokens that the rules recognize. -/
theorem recognize_eq_some {b : Builtin} {r : Recognition} (h : b.recognize t = some r) :
    match b with
    | group => ∃ after, t = '(' :: after ∧ r = plain t 1
    | comment =>
      ∃ body after, t = ['(', '?', '#'] ++ body ++ [')'] ++ after ∧ (∀ c ∈ body, c ≠ ')') ∧
        r = plain t (body.length + 4)
    | namedGroup => ∃ name after, t = ['(', '?', '<'] ++ name ++ ['>'] ++ after ∧ name ≠ [] ∧
        (∀ c ∈ name, isNameChar c = true) ∧ r = runToken ['(', '?', '<'] name '>'
    | taggedGroup => ∃ name after, t = ['(', '?', 'P', '<'] ++ name ++ ['>'] ++ after ∧ name ≠ [] ∧
        (∀ c ∈ name, isNameChar c = true) ∧ r = runToken ['(', '?', 'P', '<'] name '>'
    | reference => ∃ name after, t = ['\\', 'k', '<'] ++ name ++ ['>'] ++ after ∧ name ≠ [] ∧
        (∀ c ∈ name, isNameChar c = true) ∧ r = runToken ['\\', 'k', '<'] name '>'
    | emptyClass =>
      ∃ after, (t = ['[', ']'] ++ after ∧ r = plain t 2) ∨
        (t = ['[', '^', ']'] ++ after ∧ r = plain t 3)
    | modifier => ∃ letters after, t = ['(', '?'] ++ letters ++ [')'] ++ after ∧ letters ≠ [] ∧
        (∀ c ∈ letters, isModifier c = true) ∧ r = runToken ['(', '?'] letters ')'
    | spacing =>
      ∃ source after, t = source ++ after ∧ source ≠ [] ∧ spacingLength false t = source.length ∧
        r = plain t source.length
    | dot => ∃ after, t = '.' :: after ∧ r = plain t 1
    | classSign => ∃ source after, t = source ++ after ∧
        (source = ['['] ∨ source = ['&', '&'] ∨ source = ['~', '~']) ∧
          r = plain t source.length := by
  have hname : isNameChar '>' = false := rfl
  cases b with
  | group =>
    simp only [recognize] at h
    split at h <;> simp_all
  | comment =>
    simp only [recognize, Option.map_eq_some_iff] at h
    obtain ⟨n, hn, rfl⟩ := h
    obtain ⟨body, after, rfl, hb, rfl⟩ := commentLength?_eq_some_iff.1 hn
    exact ⟨body, after, by simp, hb, rfl⟩
  | namedGroup =>
    obtain ⟨name, after, rfl, hn, hc, rfl⟩ := (recognizeRun_eq_some_iff hname).1 h
    exact ⟨name, after, by simp, hn, hc, rfl⟩
  | taggedGroup =>
    obtain ⟨name, after, rfl, hn, hc, rfl⟩ := (recognizeRun_eq_some_iff hname).1 h
    exact ⟨name, after, by simp, hn, hc, rfl⟩
  | reference =>
    obtain ⟨name, after, rfl, hn, hc, rfl⟩ := (recognizeRun_eq_some_iff hname).1 h
    exact ⟨name, after, by simp, hn, hc, rfl⟩
  | emptyClass =>
    simp only [recognize] at h
    split at h <;> simp_all
  | modifier =>
    obtain ⟨name, after, rfl, hn, hc, rfl⟩ := (recognizeRun_eq_some_iff rfl).1 h
    exact ⟨name, after, by simp, hn, hc, rfl⟩
  | spacing =>
    simp only [recognize, beq_iff_eq] at h
    split at h
    · exact absurd h (by simp)
    · next hn =>
      have hle := spacingLength_le false t
      refine ⟨t.take (spacingLength false t), t.drop (spacingLength false t), by simp, ?_, ?_, ?_⟩
      · simpa [List.take_eq_nil_iff, hn] using fun e => hn (by simp [e, spacingLength])
      · simp [hle]
      · simpa [hle] using (Option.some.inj h).symm
  | dot =>
    simp only [recognize] at h
    split at h <;> simp_all
  | classSign =>
    simp only [recognize] at h
    split at h <;> try contradiction
    · exact ⟨['['], _, rfl, by simp, (Option.some.inj h).symm⟩
    · exact ⟨['&', '&'], _, rfl, by simp, (Option.some.inj h).symm⟩
    · exact ⟨['~', '~'], _, rfl, by simp, (Option.some.inj h).symm⟩

def first? : Builtin → Option Char
  | group | comment | namedGroup | taggedGroup | modifier => some '('
  | reference => some '\\'
  | emptyClass => some '['
  | dot => some '.'
  | spacing | classSign => none

theorem recognize_of_first {b : Builtin} {c d : Char} (hb : b.first? = some d) (hc : c ≠ d) :
    b.recognize (c :: t) = none := by
  refine Option.eq_none_iff_forall_ne_some.2 fun r hr => ?_
  have h := recognize_eq_some hr
  cases b with
  | spacing | classSign => exact absurd hb (by simp [first?])
  | group | dot =>
    obtain ⟨after, heq, -⟩ := h
    exact hc ((List.cons.inj heq).1.trans (Option.some.inj hb))
  | comment | namedGroup | taggedGroup | reference | modifier =>
    obtain ⟨name, after, heq, -⟩ := h
    exact hc ((List.cons.inj heq).1.trans (Option.some.inj hb))
  | emptyClass =>
    obtain ⟨after, ⟨heq, -⟩ | ⟨heq, -⟩⟩ := h
    · exact hc ((List.cons.inj heq).1.trans (Option.some.inj hb))
    · exact hc ((List.cons.inj heq).1.trans (Option.some.inj hb))

theorem recognize_spacing (t : Text) : spacing.recognize t =
    if spacingLength false t == 0 then none else some (plain t (spacingLength false t)) := rfl

theorem recognizeRun_of_not_opening (h : Text.dropHead? opening t = none) :
    recognizeRun opening p closing t = none := by
  simp [recognizeRun, h]

theorem recognizeRun_of_empty (opening : Text) {c : Char} (h : p c = false) :
    recognizeRun opening p closing (opening ++ c :: t) = none := by
  simp only [recognizeRun, Text.dropHead?_append, Option.bind_eq_bind, Option.bind_some,
    List.takeWhile_cons, h, Option.bind_eq_none_iff]
  simp

theorem recognize_of_paren {b : Builtin} (h : rest.head? ≠ some '?') (hb : b ≠ group) :
    b.recognize ('(' :: rest) = none := by
  cases rest with
  | nil => cases b <;> first | rfl | exact absurd rfl hb
  | cons d rest =>
    have hd : '?' ≠ d := fun e => h (by simp [← e])
    have hs : spacingLength false ('(' :: d :: rest) = 0 := by
      simp only [spacingLength, show Unicode.isBlank '(' = false from by decide]
      rfl
    cases b <;> simp [recognize, recognizeRun, Text.dropHead?, commentLength?, hd, hs] at hb ⊢

theorem spacingLength_of_not_blank {c : Char} (hb : Unicode.isBlank c = false) (hc : c ≠ '#') :
    spacingLength false (c :: t) = 0 := by
  simp [spacingLength, hb, hc]

theorem firing?_spacing {source : Text} (hx : context.hasFlag 'x' = true) (hn : source ≠ [])
    (hl : spacingLength false (source ++ rest) = source.length) :
    firing? (source ++ rest) .outsideClass context =
      some (spacing, plain (source ++ rest) source.length) := by
  refine firing?_outside spacing (by decide) (by simpa [awaits] using hx)
    (by simp [recognize_spacing, hl, hn]) ?_
  simp only [earlier_eq, List.mem_cons, List.not_mem_nil, or_false]
  rintro a (rfl | rfl) ha
  · exact absurd rfl ha
  · obtain ⟨d, u, rfl⟩ := List.exists_cons_of_ne_nil hn
    by_cases hd : d = '.'
    · subst hd
      rw [List.cons_append, spacingLength_of_not_blank (by decide) (by decide)] at hl
      exact absurd hl (by simp)
    · exact recognize_of_first rfl hd

theorem recognize_of_opening {c : Char} (hc : c = '(' ∨ c = '[' ∨ c = '\\') :
    dot.recognize (c :: t) = none ∧ spacing.recognize (c :: t) = none := by
  have hs : spacingLength false (c :: t) = 0 := by
    rcases hc with rfl | rfl | rfl <;> exact spacingLength_of_not_blank (by decide) (by decide)
  refine ⟨recognize_of_first rfl ?_, by simp [recognize_spacing, hs]⟩
  rcases hc with rfl | rfl | rfl <;> decide

theorem firing?_modifier {letters : Text} (hn : letters ≠ [])
    (hl : ∀ c ∈ letters, isModifier c = true) :
    firing? (['(', '?'] ++ letters ++ [')'] ++ rest) .outsideClass context =
      some (modifier, runToken ['(', '?'] letters ')') := by
  have hr : modifier.recognize (['(', '?'] ++ letters ++ [')'] ++ rest) =
      some (runToken ['(', '?'] letters ')') :=
    (recognizeRun_eq_some_iff rfl).2 ⟨letters, rest, by simp, hn, hl, rfl⟩
  refine firing?_outside modifier (by decide) rfl hr ?_
  simp only [earlier_eq, List.mem_cons, List.not_mem_nil, or_false]
  rintro a (rfl | rfl | rfl) ha
  · exact absurd rfl ha
  · exact (recognize_of_opening (.inl rfl)).1
  · exact (recognize_of_opening (.inl rfl)).2

theorem firing?_emptyClass {source : Text} (h : source = ['[', ']'] ∨ source = ['[', '^', ']']) :
    firing? (source ++ rest) .outsideClass context =
      some (emptyClass, plain (source ++ rest) source.length) := by
  refine firing?_outside emptyClass (by decide) rfl (by rcases h with rfl | rfl <;> rfl) ?_
  obtain ⟨u, hu⟩ : ∃ u, source ++ rest = '[' :: u := by rcases h with rfl | rfl <;> exact ⟨_, rfl⟩
  simp only [earlier_eq, List.mem_cons, List.not_mem_nil, or_false, hu]
  rintro a (rfl | rfl | rfl | rfl) ha
  · exact absurd rfl ha
  · exact (recognize_of_opening (.inr (.inl rfl))).1
  · exact (recognize_of_opening (.inr (.inl rfl))).2
  · exact recognizeRun_of_not_opening (by simp [Text.dropHead?])

theorem firing?_reference {name : Text} (hn : name ≠ []) (hc : ∀ c ∈ name, isNameChar c = true) :
    firing? (['\\', 'k', '<'] ++ name ++ ['>'] ++ rest) .outsideClass context =
      some (reference, runToken ['\\', 'k', '<'] name '>') := by
  have hr : reference.recognize (['\\', 'k', '<'] ++ name ++ ['>'] ++ rest) =
      some (runToken ['\\', 'k', '<'] name '>') :=
    (recognizeRun_eq_some_iff rfl).2 ⟨name, rest, by simp, hn, hc, rfl⟩
  refine firing?_outside reference (by decide) rfl hr ?_
  simp only [earlier_eq, List.mem_cons, List.not_mem_nil, or_false]
  rintro a (rfl | rfl | rfl | rfl | rfl) ha
  · exact absurd rfl ha
  · exact (recognize_of_opening (.inr (.inr rfl))).1
  · exact (recognize_of_opening (.inr (.inr rfl))).2
  · exact recognizeRun_of_not_opening (by simp [Text.dropHead?])
  · exact recognize_of_first rfl (by decide)

theorem recognize_of_special {c : Char} (hm : isModifier c = false) {b : Builtin}
    (hb : b ∈ [dot, spacing, modifier, emptyClass, reference]) :
      b.recognize ('(' :: '?' :: c :: t) = none := by
  simp only [List.mem_cons, List.not_mem_nil, or_false] at hb
  rcases hb with rfl | rfl | rfl | rfl | rfl
  · exact (recognize_of_opening (.inl rfl)).1
  · exact (recognize_of_opening (.inl rfl)).2
  · exact recognizeRun_of_empty ['(', '?'] hm
  · exact recognize_of_first rfl (by decide)
  · exact recognizeRun_of_not_opening (by simp [Text.dropHead?])

theorem firing?_named {name : Text} (hn : name ≠ []) (hc : ∀ c ∈ name, isNameChar c = true) :
    firing? (['(', '?', '<'] ++ name ++ ['>'] ++ rest) .outsideClass context =
      some (namedGroup, runToken ['(', '?', '<'] name '>') := by
  have hr : namedGroup.recognize (['(', '?', '<'] ++ name ++ ['>'] ++ rest) =
      some (runToken ['(', '?', '<'] name '>') :=
    (recognizeRun_eq_some_iff rfl).2 ⟨name, rest, by simp, hn, hc, rfl⟩
  refine firing?_outside namedGroup (by decide) rfl hr fun a ha hs => ?_
  by_cases ht : a = taggedGroup
  · subst ht
    exact recognizeRun_of_not_opening (by simp [Text.dropHead?])
  · exact recognize_of_special (by decide) (by simp_all [earlier_eq])

theorem firing?_tagged {name : Text} (hn : name ≠ []) (hc : ∀ c ∈ name, isNameChar c = true) :
    firing? (['(', '?', 'P', '<'] ++ name ++ ['>'] ++ rest) .outsideClass context =
      some (taggedGroup, runToken ['(', '?', 'P', '<'] name '>') := by
  have hr : taggedGroup.recognize (['(', '?', 'P', '<'] ++ name ++ ['>'] ++ rest) =
      some (runToken ['(', '?', 'P', '<'] name '>') :=
    (recognizeRun_eq_some_iff rfl).2 ⟨name, rest, by simp, hn, hc, rfl⟩
  refine firing?_outside taggedGroup (by decide) rfl hr fun a ha hs => ?_
  exact recognize_of_special (by decide) (by simp_all [earlier_eq])

theorem firing?_comment {body : Text} (hb : ∀ c ∈ body, c ≠ ')') :
    firing? (['(', '?', '#'] ++ body ++ [')'] ++ rest) .outsideClass context =
      some (comment, plain (['(', '?', '#'] ++ body ++ [')'] ++ rest) (body.length + 4)) := by
  have hr : comment.recognize (['(', '?', '#'] ++ body ++ [')'] ++ rest) =
      some (plain (['(', '?', '#'] ++ body ++ [')'] ++ rest) (body.length + 4)) :=
    congrArg (Option.map _) (commentLength?_eq_some_iff.2 ⟨body, rest, by simp, hb, rfl⟩)
  refine firing?_outside comment (by decide) rfl hr fun a ha hs => ?_
  by_cases hg : a = namedGroup ∨ a = taggedGroup
  · rcases hg with rfl | rfl <;> exact recognizeRun_of_not_opening (by simp [Text.dropHead?])
  · exact recognize_of_special (by decide) (by simp_all [earlier_eq])

theorem firing?_group (h : rest.head? ≠ some '?') :
    firing? ('(' :: rest) .outsideClass context = some (group, plain ('(' :: rest) 1) := by
  refine firing?_outside group (by decide) rfl rfl fun a ha _ => recognize_of_paren h ?_
  rintro rfl
  exact absurd ha (by decide)

theorem recognize_of_escape {c : Char} (hc : c ≠ 'k') {b : Builtin} (hb : b ≠ classSign) :
    b.recognize ('\\' :: c :: t) = none := by
  have h := @recognize_of_opening (c :: t) '\\' (.inr (.inr rfl))
  cases b with
  | spacing => exact h.2
  | classSign => exact absurd rfl hb
  | reference => exact recognizeRun_of_not_opening (by simp [Text.dropHead?, hc.symm])
  | _ => exact recognize_of_first rfl (by decide)

theorem recognize_of_other {c : Char} (hb : Unicode.isBlank c = false)
    (hc : c ∉ ['(', '\\', '[', '.', '#']) {b : Builtin} (hs : b ≠ classSign) :
      b.recognize (c :: t) = none := by
  simp only [List.mem_cons, List.not_mem_nil, or_false, not_or] at hc
  obtain ⟨hp, he, ho, hd, hn⟩ := hc
  have hl := @spacingLength_of_not_blank t c hb hn
  cases b with
  | spacing => simp [recognize_spacing, hl]
  | classSign => exact absurd rfl hs
  | reference => exact recognize_of_first rfl he
  | emptyClass => exact recognize_of_first rfl ho
  | dot => exact recognize_of_first rfl hd
  | _ => exact recognize_of_first rfl hp

end Builtin
end RegexDialect
