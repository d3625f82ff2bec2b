import RegexDialect.Proofs.LiteralReplacement
import RegexDialect.Proofs.RoundMarks

/-! References to a name that is not declared. The backslash is dropped and the rest is left to the
baseline as it stands, where it is a literal text, but for dollar signs: these are signs for an end,
and nothing is matched. -/
namespace RegexDialect

open Baseline

def Row.ofSigns (t : Text) : Row := t.map fun c => if c = '$' then none else some c

namespace Row

variable {t : Text}

theorem ofSigns_of_not_mem (h : '$' ∉ t) : ofSigns t = t.map some := by
  refine List.map_congr_left fun c hc => if_neg ?_
  rintro rfl
  exact h hc

theorem chars_ofSigns (t : Text) : chars (ofSigns t) = t.filter (· != '$') := by
  induction t with
  | nil => rfl
  | cons c t ih => by_cases hc : c = '$' <;> simp [ofSigns, chars, hc] at ih ⊢ <;> exact ih

theorem cutAtFirst?_ofSigns {multiline : Bool} {a b : Text} {c : Char} (hc : c ≠ '$')
    (hl : '\n' ∉ b ++ [c])
    (u : Text) : cutAtFirst? multiline (ofSigns (a ++ '$' :: (b ++ [c]))) u = none := by
  have hrow : ofSigns (a ++ '$' :: (b ++ [c])) = ofSigns a ++ none :: ofSigns (b ++ [c]) := by
    simp [ofSigns]
  rw [hrow]
  refine cutAtFirst?_of_sign ?_ ?_ u
  · rw [chars_ofSigns]
    simp [hc]
  · rw [chars_ofSigns]
    exact fun h => hl (List.mem_filter.1 h).1

end Row

def IsRowChar (c : Char) : Prop := c = '$' ∨ isMeta c = false ∧ Unicode.isBlank c = false

theorem spellsRow_ofSigns {t : Text} (h : ∀ c ∈ t, IsRowChar c) : SpellsRow t (.ofSigns t) := by
  induction t with
  | nil => exact .nil
  | cons c t ih =>
    have ht := ih fun d hd => h d (by simp [hd])
    rcases h c (by simp) with rfl | ⟨hm, hb⟩
    · exact .sign ht
    · have hc : c ≠ '$' := by
        rintro rfl
        simp [isMeta, metaCharacters] at hm
      simpa [Row.ofSigns, hc] using SpellsRow.char (.bare hm hb) ht

/-- What is relied on of an engine: it builds every pattern of at most `size` characters that are
dollar signs or stand for themselves, and searches for it as a row. A dollar sign holds at the end
of the text, under `m` also at the end of a line. -/
def Baseline.Engine.ReadsRows (engine : Engine) (size : Nat) : Prop :=
  ∀ (f : Flags) (t : Text), f.has 'i' = false → t.length ≤ size → (∀ c ∈ t, IsRowChar c) →
    ∃ m, engine.build (Pattern.baselineText t f) none = .ok m ∧ m.FindsRow (f.has 'm') (.ofSigns t)

theorem Flags.baselinePrefix_of_not_caseless {f : Flags} (h : f.has 'i' = false) :
    f.baselinePrefix = Reader.modifierOf (f.has 'm') := by
  cases hm : f.has 'm' <;> simp [baselinePrefix, Reader.modifierOf, h, hm]

theorem Baseline.engine_readsRows {size : Nat} (h : size ≤ Automaton.maxSize) :
    engine.ReadsRows size := by
  intro f t hi hsize ht
  rw [Pattern.baselineText, Flags.baselinePrefix_of_not_caseless hi]
  refine exists_build_of_spellsRow _ (spellsRow_ofSigns ht) ?_
  rw [Row.ofSigns, List.length_map]
  omega

section Reference

variable {name : Text}

/-- What a reference to a name that is not declared is rewritten to: the reference without its
backslash. -/
def identityEscape (name : Text) : Text := ['k', '<'] ++ name ++ ['>']

theorem Registry.compile_undeclared (hn : name ≠ []) (hc : ∀ c ∈ name, Builtin.isNameChar c = true)
    (f : Flags) :
    Registry.builtin.compile (['\\', 'k', '<'] ++ name ++ ['>']) f =
      .ok ⟨identityEscape name, .start f⟩ := by
  have hreads : Builtin.Reads 0 (.start f) .outsideClass (['\\', 'k', '<'] ++ name ++ ['>']) []
      (identityEscape name) .outsideClass (.start f) := .reference hn hc
  have hscans :=
    @Scans.of_reads (['\\', 'k', '<'] ++ name ++ ['>']) _ _ _ 0 _ _ ⟨.start f, false⟩ _ hreads
  rw [List.append_nil] at hscans
  exact compile_of_scans hscans rfl

theorem isRowChar_of_isNameChar {c : Char} (h : Builtin.isNameChar c = true) : IsRowChar c := by
  have hmeta : ∀ d ∈ metaCharacters, d = '$' ∨ Builtin.isNameChar d = false :=
    Text.forall_mem_of_all (by decide)
  by_cases hm : isMeta c = true
  · rcases hmeta c (by simpa [isMeta] using hm) with hd | hd
    · exact .inl hd
    · exact absurd h (by simp [hd])
  · refine .inr ⟨by simpa using hm, ?_⟩
    exact Builtin.isBlank_of_test (fun _ => BaselineToken.isNameChar_of_isStop) h

theorem isRowChar_of_mem_identityEscape (hc : ∀ c ∈ name, Builtin.isNameChar c = true) :
    ∀ c ∈ identityEscape name, IsRowChar c := by
  intro c h
  simp only [identityEscape, List.mem_append, List.mem_cons, List.not_mem_nil, or_false] at h
  rcases h with ((rfl | rfl) | h) | rfl
  · exact .inr (by decide)
  · exact .inr (by decide)
  · exact isRowChar_of_isNameChar (hc c h)
  · exact .inr (by decide)

/-- A pattern that is a reference to an undeclared name is built, under all flags but `i` and `y`. A
name without dollar signs stands for itself: the pattern matches just the text `k<name>`. A dollar
sign in the name is a sign for an end, with more characters behind it, so that the pattern matches
nothing. -/
theorem Pattern.make_undeclared {engine : Engine} {flags : Text} {f : Flags}
    (he : engine.ReadsRows (name.length + 3))
    (hn : name ≠ []) (hc : ∀ c ∈ name, Builtin.isNameChar c = true) (hf : Flags.parse flags = .ok f)
    (hi : f.has 'i' = false) (hy : f.has 'y' = false) :
    ∃ p, Pattern.make engine (['\\', 'k', '<'] ++ name ++ ['>']) flags = .ok p ∧
      ('$' ∉ name →
        p.exec (identityEscape name) = .ok (some (.ofLiteral [] [] (identityEscape name) [])) ∧
          ∀ text, ∃ found, p.isMatch text = .ok found ∧
            (found = true ↔ identityEscape name <:+: text)) ∧
      ('$' ∈ name → ∀ text, p.exec text = .ok none ∧ p.isMatch text = .ok false) := by
  have hsize : (identityEscape name).length ≤ name.length + 3 := by simp [identityEscape]
  obtain ⟨m, hb, hm⟩ := he f (identityEscape name) hi hsize (isRowChar_of_mem_identityEscape hc)
  obtain ⟨p, hp, hexec⟩ : ∃ p, make engine (['\\', 'k', '<'] ++ name ++ ['>']) flags = .ok p ∧
    ∀ text, p.exec text =
      .ok (((Row.ofSigns (identityEscape name)).cutAtFirst? (f.has 'm') text).map fun cut =>
        .ofLiteral [] cut.1 (Row.ofSigns (identityEscape name)).chars cut.2) :=
    ⟨_, make_of_compile hf (Registry.compile_undeclared hn hc f) hb,
      fun text => @execAt_of_findsRow ⟨_, _, f, [], false, m⟩ _ _ hm rfl hy [] text⟩
  refine ⟨p, hp, fun hd => ?_, fun hd => ?_⟩
  · have hplain : Row.ofSigns (identityEscape name) = (identityEscape name).map some :=
      Row.ofSigns_of_not_mem (by simpa [identityEscape] using hd)
    simp only [hplain, Row.cutAtFirst?_map_some, Row.chars_map_some] at hexec
    refine ⟨?_, fun text => ?_⟩
    · have hwhole : Text.cutAtFirst? (identityEscape name) (identityEscape name) = some ([], []) :=
        Text.cutAtFirst?_of_dropHead?
          (by simpa using Text.dropHead?_append (identityEscape name) [])
      rw [hexec, hwhole]
      rfl
    · refine ⟨(Text.cutAtFirst? (identityEscape name) text).isSome, ?_, ?_⟩
      · rw [isMatch, hexec, Except.map, Option.isSome_map]
      · rw [← Option.ne_none_iff_isSome, ne_eq, Text.cutAtFirst?_eq_none_iff, not_not]
  · obtain ⟨a, b, rfl⟩ := List.append_of_mem hd
    have hrow : identityEscape (a ++ '$' :: b) = ['k', '<'] ++ a ++ '$' :: (b ++ ['>']) := by
      simp [identityEscape]
    have hl : '\n' ∉ b ++ ['>'] := by
      intro h
      rcases List.mem_append.1 h with h | h
      · exact absurd (hc '\n' (by simp [h])) (by decide)
      · exact absurd h (by decide)
    have hnone : ∀ text, p.exec text = .ok none := fun text => by
      rw [hexec, hrow, Row.cutAtFirst?_ofSigns (by decide) hl]
      rfl
    exact fun text => ⟨hnone text, by rw [isMatch, hnone]; rfl⟩

/-- A plain name in the middle of a text, and one with a dollar sign, which does not even match
itself. -/
theorem Pattern.make_undeclared_dollar :
    engine.ReadsRows 4 ∧ engine.ReadsRows 5 ∧
      (∃ p, Pattern.make engine "\\k<b>".toList ['m'] = .ok p ∧
        p.isMatch "a\nk<b>".toList = .ok true) ∧
      ∃ p, Pattern.make engine "\\k<a$>".toList ['m'] = .ok p ∧ p.exec "k<a$>".toList =
        .ok none := by
  have h₄ : engine.ReadsRows 4 := engine_readsRows (by decide)
  have h₅ : engine.ReadsRows 5 := engine_readsRows (by decide)
  have hf : Flags.parse ['m'] = .ok ⟨['m'], by decide⟩ := rfl
  obtain ⟨p, hp, hplain, -⟩ := @make_undeclared ['b'] engine ['m'] _ h₄ (by simp)
    (Text.forall_mem_of_all (by decide)) hf rfl rfl
  obtain ⟨q, hq, -, hdollar⟩ := @make_undeclared ['a', '$'] engine ['m'] _ h₅ (by simp)
    (Text.forall_mem_of_all (by decide)) hf rfl rfl
  obtain ⟨found, hmatch, hfound⟩ := (hplain (by decide)).2 "a\nk<b>".toList
  obtain rfl : found = true := hfound.2 ⟨"a\n".toList, [], rfl⟩
  exact ⟨h₄, h₅, ⟨p, hp, hmatch⟩, q, hq, (hdollar (by decide) _).1⟩

end Reference

end RegexDialect
