import RegexDialect.Baseline.Reader
import RegexDialect.Proofs.Openings
import RegexDialect.Proofs.Patterns

/-! Classes of baseline syntax are left where the place in the text says. The baseline gathers the
text of a class before it reads it, so a property whose name is a bracket is refused only
afterwards. -/
namespace RegexDialect

namespace Unicode.Property

def isLetterIfShort (s : String) : Bool := s.utf8ByteSize != 1 || s.toList.all Char.isLower

theorem isLetterIfShort_binaryNames :
    (binaryNames.all fun e => e.1.all isLetterIfShort) = true := by decide +kernel

theorem isLetterIfShort_binaryTables :
    (binaryTables.all fun e => e.1.all isLetterIfShort) = true := by decide +kernel

theorem isLetterIfShort_generalNames :
    (generalNames.all fun e => e.1.all isLetterIfShort) = true := by decide +kernel

theorem isLetterIfShort_categoryNames :
    (categoryNames.all fun e => e.1.all isLetterIfShort) = true := by decide +kernel

theorem isLetterIfShort_scripts :
    (scripts.all fun e => isLetterIfShort e.1 && isLetterIfShort e.2.1) = true := by
  decide +kernel

theorem isLower_of_toList {s : String} {c : Char} (hs : s.toList = [c]) (hc : c.utf8Size = 1)
    (h : isLetterIfShort s = true) : c.isLower = true := by
  have heq : s = String.singleton c := by
    rw [String.singleton_eq_ofList, ← hs, String.ofList_toList]
  have hsize : s.utf8ByteSize = 1 := by rw [heq, String.utf8ByteSize_singleton, hc]
  simpa [isLetterIfShort, hsize, hs] using h

theorem named?_eq_none {α : Type} {table : List (List String × α)} {c : Char}
    (ht : (table.all fun e => e.1.all isLetterIfShort) = true) (hc : c.utf8Size = 1)
    (hl : c.isLower = false) :
    named? table [c] = none := by
  rw [named?, Option.map_eq_none_iff, List.find?_eq_none]
  intro e he hany
  obtain ⟨s, hs, heq⟩ := List.any_eq_true.1 hany
  have h :=
    isLower_of_toList (eq_of_beq heq) hc (List.all_eq_true.1 (List.all_eq_true.1 ht e he) s hs)
  rw [hl] at h
  exact absurd h (by decide)

/-- No property is named by a parenthesis, a bracket or a backslash. -/
theorem find?_sign {c : Char} (h : c ∈ ['(', '[', ']', '\\']) : find? [c] = none := by
  have hc : c.utf8Size = 1 ∧ c.isLower = false ∧ normalise [c] = [c] ∧ c ≠ '=' ∧ c ≠ ':' := by
    simp only [List.mem_cons, List.not_mem_nil, or_false] at h
    rcases h with rfl | rfl | rfl | rfl <;> decide
  obtain ⟨hsize, hl, hn, hsign⟩ := hc
  have hbinary : binaryRanges? [c] = none := by
    have h := @named?_eq_none _ binaryTables c isLetterIfShort_binaryTables hsize hl
    rw [named?, Option.map_eq_none_iff] at h
    rw [binaryRanges?, h]
    rfl
  have hscript : scriptRanges? [c] = none := by
    rw [scriptRanges?, Option.map_eq_none_iff, List.find?_eq_none]
    intro e he hany
    have hall := List.all_eq_true.1 isLetterIfShort_scripts e he
    simp only [Bool.or_eq_true, Bool.and_eq_true] at hany hall
    rcases hany with hs | hs
    · rw [isLower_of_toList (eq_of_beq hs) hsize hall.1] at hl
      exact absurd hl (by decide)
    · rw [isLower_of_toList (eq_of_beq hs) hsize hall.2] at hl
      exact absurd hl (by decide)
  have hcategory : category? [c] = none := by
    rw [category?, named?_eq_none isLetterIfShort_generalNames hsize hl,
      named?_eq_none isLetterIfShort_categoryNames hsize hl]
    rfl
  have hdrop : ([c].dropWhile fun d => !(d == '=' || d == ':')) = [] := by simp [hsign]
  simp only [find?, hdrop, hn, named?_eq_none isLetterIfShort_binaryNames hsize hl, hbinary,
    hcategory, hscript]
  rfl

end Unicode.Property

namespace Baseline

/-- The text of a class as sets read it: characters, and behind a backslash a character or a
property whose name has a meaning. -/
inductive Legible : Text → Prop
  | nil : Legible []
  | plain {c : Char} {r : Text} (hc : c ≠ '\\') (h : Legible r) : Legible (c :: r)
  | escape {c : Char} {r : Text} (hp : c ≠ 'p') (hP : c ≠ 'P') (h : Legible r) :
    Legible ('\\' :: c :: r)
  | letter {c d : Char} {r : Text} (hc : c = 'p' ∨ c = 'P') (hd : d ≠ '\x7b')
      (hf : Unicode.Property.find? [d] ≠ none) (h : Legible r) :
    Legible ('\\' :: c :: d :: r)
  | braces {c : Char} {a r : Text} (hc : c = 'p' ∨ c = 'P') (ha : ∀ d ∈ a, d ≠ '}')
    (h : Legible r) :
    Legible ('\\' :: c :: '\x7b' :: (a ++ '}' :: r))

namespace Legible

variable {c : Char} {a r : Text}

theorem of_plain_cons (h : Legible (c :: r)) (hc : c ≠ '\\') : Legible r := by
  cases h with
  | plain _ h => exact h
  | escape | letter | braces => exact absurd rfl hc

theorem of_plain (h : Legible (a ++ r)) (ha : ∀ c ∈ a, c ≠ '\\') : Legible r := by
  induction a with
  | nil => exact h
  | cons c a ih => exact ih (of_plain_cons h (ha c (by simp))) fun d hd => ha d (by simp [hd])

theorem of_escape (h : Legible ('\\' :: c :: r)) (hp : c ≠ 'p') (hP : c ≠ 'P') : Legible r := by
  cases h with
  | plain hc => exact absurd rfl hc
  | escape _ _ h => exact h
  | letter hc | braces hc => exact absurd hc (by simp [hp, hP])

theorem of_letter {d : Char} (h : Legible ('\\' :: c :: d :: r)) (hc : c = 'p' ∨ c = 'P')
    (hd : d ≠ '\x7b') :
    Unicode.Property.find? [d] ≠ none ∧ Legible r := by
  cases h with
  | plain hc => exact absurd rfl hc
  | escape hp hP => exact absurd hc (by simp [hp, hP])
  | letter _ _ hf h => exact ⟨hf, h⟩
  | braces => exact absurd rfl hd

theorem of_braces (h : Legible ('\\' :: c :: '\x7b' :: (a ++ '}' :: r))) (hc : c = 'p' ∨ c = 'P')
    (ha : ∀ d ∈ a, d ≠ '}') : Legible r := by
  generalize ht : '\\' :: c :: '\x7b' :: (a ++ '}' :: r) = t at h
  cases h with
  | nil => exact absurd ht (by simp)
  | plain hc => exact absurd (List.cons.inj ht).1.symm hc
  | escape hp hP =>
    simp only [List.cons.injEq, true_and] at ht
    exact absurd hc (by simp [ht.1, hp, hP])
  | letter _ hd =>
    simp only [List.cons.injEq, true_and] at ht
    exact absurd ht.2.1.symm hd
  | @braces _ b u _ hb h =>
    simp only [List.cons.injEq, true_and] at ht
    have htake := congrArg (List.dropWhile (· != '}')) ht.2
    rw [List.dropWhile_append_of_pos (by simpa using ha),
      List.dropWhile_append_of_pos (by simpa using hb)] at htake
    obtain rfl : r = u := by simpa using htake
    exact h

theorem plain_append (h : Legible r) (ha : ∀ c ∈ a, c ≠ '\\') : Legible (a ++ r) := by
  induction a with
  | nil => exact h
  | cons c a ih => exact .plain (ha c (by simp)) (ih fun d hd => ha d (by simp [hd]))

end Legible

namespace CharSet

variable {t rest : Text} {s : CharSet}

theorem legible_of_readProperty {c : Char} {negated : Bool} (hc : c = 'p' ∨ c = 'P')
    (h : readProperty negated t = .ok (s, rest)) (hr : Legible rest) :
      Legible ('\\' :: c :: t) := by
  unfold readProperty at h
  split at h
  · next r =>
    obtain ⟨a, b, rfl, ha, hb⟩ := Text.exists_run (· != '}') r
    simp only [Text.takeWhile_run ha hb, List.drop_left] at h
    split at h
    · simp only [Except.ok.injEq, Prod.mk.injEq] at h
      obtain ⟨-, rfl⟩ := h
      exact .braces hc (by simpa using ha) hr
    · exact absurd h (by simp)
  · next d r hd =>
    split at h
    · next p hp =>
      simp only [Except.ok.injEq, Prod.mk.injEq] at h
      obtain ⟨-, rfl⟩ := h
      exact .letter hc (by rintro rfl; exact hd rfl) (by simp [hp]) hr
    · exact absurd h (by simp)
  · exact absurd h (by simp)

theorem legible_of_readEscape (h : readEscape t = .ok (s, rest)) (hr : Legible rest) :
    Legible ('\\' :: t) := by
  unfold readEscape at h
  split at h
  · simp only [Except.ok.injEq, Prod.mk.injEq] at h
    exact .escape (by decide) (by decide) (h.2 ▸ hr)
  · simp only [Except.ok.injEq, Prod.mk.injEq] at h
    exact .escape (by decide) (by decide) (h.2 ▸ hr)
  · simp only [Except.ok.injEq, Prod.mk.injEq] at h
    exact .escape (by decide) (by decide) (h.2 ▸ hr)
  · simp only [Except.ok.injEq, Prod.mk.injEq] at h
    exact .escape (by decide) (by decide) (h.2 ▸ hr)
  · simp only [Except.ok.injEq, Prod.mk.injEq] at h
    exact .escape (by decide) (by decide) (h.2 ▸ hr)
  · simp only [Except.ok.injEq, Prod.mk.injEq] at h
    exact .escape (by decide) (by decide) (h.2 ▸ hr)
  · exact legible_of_readProperty (.inl rfl) h hr
  · exact legible_of_readProperty (.inr rfl) h hr
  · next hp hP =>
    simp only [Except.ok.injEq, Prod.mk.injEq] at h
    exact .escape (by rintro rfl; exact hp rfl) (by rintro rfl; exact hP rfl) (h.2 ▸ hr)
  · exact absurd h (by simp)

theorem legible_of_readItem (h : readItem t = .ok (s, rest)) (hr : Legible rest) : Legible t := by
  unfold readItem at h
  split at h
  · exact legible_of_readEscape h hr
  · next c r hc =>
    simp only [Except.ok.injEq, Prod.mk.injEq] at h
    exact .plain (by rintro rfl; exact hc rfl) (h.2 ▸ hr)
  · exact absurd h (by simp)

theorem legible_of_readRange (h : readRange t = .ok (s, rest)) (hr : Legible rest) : Legible t := by
  obtain ⟨⟨low, mid⟩, hlow, h⟩ := exists_of_bind_eq_ok h
  refine legible_of_readItem hlow ?_
  simp only at h
  split at h
  · exact absurd h (by simp)
  · simp only [Except.ok.injEq, Prod.mk.injEq] at h
    exact h.2 ▸ hr
  · simp only [Except.ok.injEq, Prod.mk.injEq] at h
    exact h.2 ▸ hr
  · obtain ⟨⟨high, last⟩, hhigh, h⟩ := exists_of_bind_eq_ok h
    refine .plain (by decide) (legible_of_readItem hhigh ?_)
    simp only at h
    split at h
    · split at h
      · simp only [Except.ok.injEq, Prod.mk.injEq] at h
        exact h.2 ▸ hr
      · exact absurd h (by simp)
    · exact absurd h (by simp)
  · simp only [Except.ok.injEq, Prod.mk.injEq] at h
    exact h.2 ▸ hr

/-- The hyphens or the closing bracket that are plain characters at the start of a set. -/
theorem exists_of_readOpening (t : Text) :
    ∃ a, t = a ++ (readOpening t).2.2 ∧ ∀ c ∈ a, c ≠ '\\' := by
  unfold readOpening
  split
  next negated u hu =>
  obtain ⟨p, rfl, hp⟩ : ∃ p, t = p ++ u ∧ ∀ c ∈ p, c ≠ '\\' := by
    split at hu
    · obtain ⟨rfl, rfl⟩ := Prod.mk.inj hu
      exact ⟨['^'], rfl, by simp⟩
    · obtain ⟨rfl, rfl⟩ := Prod.mk.inj hu
      exact ⟨[], rfl, by simp⟩
  obtain ⟨a, b, rfl, ha, hb⟩ := Text.exists_run (· == '-') u
  have hne : ∀ c ∈ a, c ≠ '\\' := by
    rintro c hc rfl
    exact absurd (ha _ hc) (by decide)
  simp only [Text.takeWhile_run ha hb, List.drop_left]
  split
  · exact ⟨p ++ a, by simp, List.forall_mem_append.2 ⟨hp, hne⟩⟩
  · next he =>
    obtain rfl : a = [] := by simpa using he
    split
    · exact ⟨p ++ [']'], by simp, List.forall_mem_append.2 ⟨hp, by simp⟩⟩
    · exact ⟨p, rfl, hp⟩

theorem ne_of_namedClass? {name : Text} (h : namedClass? name = some s) : ∀ c ∈ name, c ≠ '\\' := by
  unfold namedClass? at h
  obtain ⟨e, he, -⟩ := Option.map_eq_some_iff.1 h
  have hname := List.find?_some he
  have hmem := List.mem_of_find?_eq_some he
  rw [← eq_of_beq hname]
  simp only [List.mem_cons, List.not_mem_nil, or_false] at hmem
  rcases hmem with rfl | rfl | rfl | rfl | rfl | rfl | rfl | rfl | rfl | rfl | rfl | rfl | rfl
    | rfl <;>
    exact Text.forall_mem_of_all (by decide)

theorem exists_of_readNamed? (h : readNamed? t = some (s, rest)) :
    ∃ a, t = a ++ rest ∧ ∀ c ∈ a, c ≠ '\\' := by
  unfold readNamed? at h
  split at h
  · next r =>
    split at h
    next negated u hu =>
    obtain ⟨p, rfl, hp⟩ : ∃ p, r = p ++ u ∧ ∀ c ∈ p, c ≠ '\\' := by
      split at hu
      · obtain ⟨rfl, rfl⟩ := Prod.mk.inj hu
        exact ⟨['^'], rfl, by simp⟩
      · obtain ⟨rfl, rfl⟩ := Prod.mk.inj hu
        exact ⟨[], rfl, by simp⟩
    obtain ⟨a, b, rfl, ha, hb⟩ := Text.exists_run (· != ':') u
    simp only [Text.takeWhile_run ha hb, List.drop_left] at h
    split at h
    · obtain ⟨s, hs, h⟩ := Option.map_eq_some_iff.1 h
      obtain ⟨-, rfl⟩ := Prod.mk.inj h
      refine ⟨':' :: (p ++ (a ++ [':', ']'])), by simp, ?_⟩
      refine List.forall_mem_cons.2 ⟨by decide, List.forall_mem_append.2 ⟨hp, ?_⟩⟩
      exact List.forall_mem_append.2 ⟨ne_of_namedClass? hs, by simp⟩
    · exact absurd h (by simp)
  · exact absurd h (by simp)

mutual

theorem legible_of_readBracket : ∀ (fuel : Nat) {t rest : Text} {s : CharSet},
    readBracket fuel t = .ok (s, rest) → Legible rest → Legible t
  | 0, _, _, _, h, _ => absurd h (by simp [readBracket])
  | fuel + 1, t, rest, s, h, hr => by
    rw [readBracket] at h
    obtain ⟨⟨body, mid⟩, hbody, h⟩ := exists_of_bind_eq_ok h
    simp only [Except.ok.injEq, Prod.mk.injEq] at h
    obtain ⟨a, ha, hne⟩ := exists_of_readOpening t
    rw [ha]
    exact (legible_of_readBody fuel hbody (h.2 ▸ hr)).plain_append hne

theorem legible_of_readBody :
    ∀ (fuel : Nat) {items : CharSet} {pending : Pending} {t rest : Text} {s : CharSet},
    readBody fuel items pending t = .ok (s, rest) → Legible rest → Legible t
  | 0, _, _, _, _, _, h, _ => absurd h (by simp [readBody])
  | fuel + 1, items, pending, t, rest, s, h, hr => by
    unfold readBody at h
    split at h
    · simp at *
    · exact absurd h (by simp)
    · next hfuel =>
      obtain rfl := Nat.succ.inj hfuel
      split at h
      · next hn =>
        obtain ⟨a, rfl, hne⟩ := exists_of_readNamed? hn
        exact .plain (by decide) ((legible_of_readBody fuel h hr).plain_append hne)
      · obtain ⟨⟨inner, mid⟩, hinner, h⟩ := exists_of_bind_eq_ok h
        exact .plain (by decide)
          (legible_of_readBracket fuel hinner (legible_of_readBody fuel h hr))
    · simp only [Except.ok.injEq, Prod.mk.injEq] at h
      exact .plain (by decide) (h.2 ▸ hr)
    · next hfuel =>
      obtain rfl := Nat.succ.inj hfuel
      exact .plain (by decide) (.plain (by decide) (legible_of_readBody fuel h hr))
    · next hfuel =>
      obtain rfl := Nat.succ.inj hfuel
      exact .plain (by decide) (.plain (by decide) (legible_of_readBody fuel h hr))
    · next hfuel =>
      obtain rfl := Nat.succ.inj hfuel
      exact .plain (by decide) (.plain (by decide) (legible_of_readBody fuel h hr))
    · next hfuel =>
      obtain rfl := Nat.succ.inj hfuel
      obtain ⟨⟨item, mid⟩, hitem, h⟩ := exists_of_bind_eq_ok h
      exact legible_of_readRange hitem (legible_of_readBody fuel h hr)

end

theorem legible_of_read (h : read t = .ok s) : Legible t := by
  unfold read at h
  split at h
  · next r =>
    split at h
    · next hr => exact .plain (by decide) (legible_of_readBracket _ hr .nil)
    · exact absurd h (by simp)
    · exact absurd h (by simp)
  · exact absurd h (by simp)

end CharSet

namespace Reader

variable {t r rest : Text} {c : Char}

theorem exists_of_hexEscape {digits : Nat} (h : hexEscape digits t = .ok (c, rest)) :
    ∃ a, t = a ++ rest ∧ ∀ d ∈ a, isInert d = true := by
  have hinert : ∀ {a : Text}, a.all Text.isHexDigit = true → ∀ d ∈ a, isInert d = true :=
    fun ha d hd =>
    isInert_of_test (p := Text.isHexDigit) (by decide) (List.all_eq_true.1 ha d hd)
  unfold hexEscape at h
  simp only at h
  split at h
  · next hd =>
    obtain ⟨a, -, h⟩ := exists_of_bind_eq_ok h
    simp only [Except.ok.injEq, Prod.mk.injEq] at h
    simp only [Bool.and_eq_true] at hd
    exact ⟨t.take digits, by rw [← h.2, List.take_append_drop], hinert hd.2⟩
  · split at h
    · next r _ =>
      obtain ⟨a, b, rfl, ha, hb⟩ := Text.exists_run Text.isHexDigit r
      rw [Text.takeWhile_run ha hb, List.drop_left] at h
      split at h
      · next u _ =>
        split at h
        · exact absurd h (by simp)
        · obtain ⟨e, -, h⟩ := exists_of_bind_eq_ok h
          simp only [Except.ok.injEq, Prod.mk.injEq] at h
          obtain ⟨-, rfl⟩ := h
          refine ⟨'\x7b' :: (a ++ ['}']), by simp, fun d hd => ?_⟩
          simp only [List.mem_cons, List.mem_append, List.not_mem_nil, or_false] at hd
          rcases hd with rfl | hd | rfl
          · decide
          · exact hinert (List.all_eq_true.2 ha) d hd
          · decide
      · exact absurd h (by simp)
    · exact absurd h (by simp)

theorem exists_of_propertyText {inner : Text} (h : propertyText t = .ok (inner, rest)) :
    (∃ a, t = '\x7b' :: (a ++ '}' :: rest) ∧ inner = '\x7b' :: (a ++ ['}']) ∧ ∀ d ∈ a, d ≠ '}') ∨
      ∃ d, t = d :: rest ∧ inner = [d] ∧ d ≠ '\x7b' := by
  unfold propertyText at h
  split at h
  · next r =>
    obtain ⟨a, b, rfl, ha, hb⟩ := Text.exists_run (· != '}') r
    simp only [Text.takeWhile_run ha hb, List.drop_left] at h
    split at h
    · simp only [Except.ok.injEq, Prod.mk.injEq] at h
      obtain ⟨rfl, rfl⟩ := h
      exact .inl ⟨a, rfl, by simp, by simpa using ha⟩
    · exact absurd h (by simp)
  · next d r hd =>
    simp only [Except.ok.injEq, Prod.mk.injEq] at h
    obtain ⟨rfl, rfl⟩ := h
    exact .inr ⟨d, rfl, rfl, by rintro rfl; exact hd rfl⟩
  · exact absurd h (by simp)

/-- A property is passed over as a whole, when its name has a meaning. -/
theorem openings_of_propertyText {inner : Text} (hc : c = 'p' ∨ c = 'P')
    (h : propertyText t = .ok (inner, rest))
    (hf : ∀ d, inner = [d] → Unicode.Property.find? [d] ≠ none) (w : Option Nat) :
    openings (.escaped w) (c :: t) = openings (Place.back w) rest ∧ rest <:+ t := by
  have hletter : (c == 'p' || c == 'P') = true := by simpa using hc
  rcases exists_of_propertyText h with ⟨a, rfl, -, ha⟩ | ⟨d, rfl, rfl, hd⟩
  · have hopen : Place.opensName c ('\x7b' :: (a ++ '}' :: rest)) = true := by
      rw [Place.opensName, braced_of_closed (by simpa using ha) (by decide), hletter]
      rfl
    rw [openings_escaped, if_pos hopen, openings_braces w ha]
    exact ⟨rfl, ⟨'\x7b' :: (a ++ ['}']), by simp⟩⟩
  · have hopen : Place.opensName c (d :: rest) = false := by
      simp [Place.opensName, BaselineToken.braced, hd]
    have hinert : isInert d = true := by
      have hsign : d ∉ ['(', '[', ']', '\\'] := fun hs => hf d rfl (Unicode.Property.find?_sign hs)
      simp only [List.mem_cons, List.not_mem_nil, or_false, not_or] at hsign
      simp [isInert, isPlain, hsign]
    rw [openings_escaped_of_not_opensName hopen]
    exact ⟨@openings_back [d] w (by simpa using hinert) rest, List.suffix_cons _ _⟩

theorem legible_of_classChar {body : Text} (h : Legible (classChar c ++ body)) : Legible body := by
  rw [classChar] at h
  split at h
  · next hm =>
    refine h.of_escape ?_ ?_
    · rintro rfl
      exact absurd hm (by decide)
    · rintro rfl
      exact absurd hm (by decide)
  · next hm =>
    refine h.of_plain_cons ?_
    rintro rfl
    exact absurd hm (by decide)

/-- An escape in a class some brackets deep, from behind its backslash: the rest of what is gathered
is legible, and the escape ends where its place says. -/
structure Gathered (n : Nat) (t body rest : Text) : Prop where
  legible : Legible body
  place : openings (.escaped (some n)) t = openings (.inside n) rest
  suffix : rest <:+ t

namespace Gathered

variable {n : Nat} {a piece body : Text}

theorem single (hl : Legible body) (hp : c ≠ 'p') (hP : c ≠ 'P') : Gathered n (c :: r) body r where
  legible := hl
  place := openings_escaped_of_not_opensName (opensName_of_ne hp hP r)
  suffix := List.suffix_cons _ _

theorem of_plain (hl : Legible (piece ++ body)) (hp : c ≠ 'p') (hP : c ≠ 'P')
    (ha : ∀ d ∈ a, d ≠ '\\') (h : (Except.ok (a, r) : Except BuildFault _) = .ok (piece, rest)) :
      Gathered n (c :: r) body rest := by
  simp only [Except.ok.injEq, Prod.mk.injEq] at h
  obtain ⟨rfl, rfl⟩ := h
  exact single (hl.of_plain ha) hp hP

theorem of_escape (hl : Legible (piece ++ body)) (hp : c ≠ 'p') (hP : c ≠ 'P')
    (h : (Except.ok (['\\', c], r) : Except BuildFault _) = .ok (piece, rest)) :
      Gathered n (c :: r) body rest := by
  simp only [Except.ok.injEq, Prod.mk.injEq] at h
  obtain ⟨rfl, rfl⟩ := h
  exact single (Legible.of_escape hl hp hP) hp hP

theorem of_control {d : Char} (hl : Legible (piece ++ body)) (hp : c ≠ 'p') (hP : c ≠ 'P')
    (h : (Except.ok (classChar d, r) : Except BuildFault _) = .ok (piece, rest)) :
      Gathered n (c :: r) body rest := by
  simp only [Except.ok.injEq, Prod.mk.injEq] at h
  obtain ⟨rfl, rfl⟩ := h
  exact single (legible_of_classChar hl) hp hP

theorem of_hex {digits : Nat} (hl : Legible (piece ++ body)) (hp : c ≠ 'p') (hP : c ≠ 'P')
    (h : (hexEscape digits r >>= fun x => Except.ok (classChar x.1, x.2)) =
      Except.ok (piece, rest)) :
    Gathered n (c :: r) body rest := by
  obtain ⟨⟨d, mid⟩, hhex, h⟩ := exists_of_bind_eq_ok h
  simp only [Except.ok.injEq, Prod.mk.injEq] at h
  obtain ⟨rfl, rfl⟩ := h
  obtain ⟨u, rfl, hu⟩ := exists_of_hexEscape hhex
  obtain ⟨hbody, hplace, -⟩ := single (n := n) (r := u ++ mid) (legible_of_classChar hl) hp hP
  exact ⟨hbody, hplace.trans (openings_back (some n) hu mid),
    (List.suffix_append _ _).trans (List.suffix_cons _ _)⟩

theorem of_property (hl : Legible (piece ++ body)) (hc : c = 'p' ∨ c = 'P')
    (h : (propertyText r >>= fun x => Except.ok (['\\', c] ++ x.1, x.2)) =
      Except.ok (piece, rest)) :
    Gathered n (c :: r) body rest := by
  obtain ⟨⟨inner, mid⟩, hinner, h⟩ := exists_of_bind_eq_ok h
  simp only [Except.ok.injEq, Prod.mk.injEq] at h
  obtain ⟨rfl, rfl⟩ := h
  have hbody : Legible body ∧ ∀ d, inner = [d] → Unicode.Property.find? [d] ≠ none := by
    rcases exists_of_propertyText hinner with ⟨a, -, rfl, ha⟩ | ⟨d, -, rfl, hd⟩
    · exact ⟨Legible.of_braces (by simpa using hl) hc ha, fun d hd => absurd hd (by simp)⟩
    · obtain ⟨hfind, hbody⟩ := Legible.of_letter (by simpa using hl) hc hd
      refine ⟨hbody, fun e he => ?_⟩
      obtain rfl : d = e := by simpa using he
      exact hfind
  obtain ⟨ho, hs⟩ := openings_of_propertyText hc hinner hbody.2 (some n)
  exact ⟨hbody.1, ho, hs.trans (List.suffix_cons _ _)⟩

end Gathered

theorem of_classEscape {piece body : Text} (h : classEscape t = .ok (piece, rest))
    (hl : Legible (piece ++ body)) (n : Nat) : Gathered n t body rest := by
  cases t with
  | nil => exact absurd h (by simp [classEscape])
  | cons c r =>
    unfold classEscape at h
    simp only at h
    split at h
    · exact absurd h (by simp)
    · split at h
      · exact .of_escape hl (by decide) (by decide) h
      · exact .of_escape hl (by decide) (by decide) h
      · exact .of_escape hl (by decide) (by decide) h
      · exact .of_escape hl (by decide) (by decide) h
      · exact .of_escape hl (by decide) (by decide) h
      · exact .of_escape hl (by decide) (by decide) h
      · exact .of_plain hl (by decide) (by decide) (by simp) h
      · exact .of_plain hl (by decide) (by decide) (by simp) h
      · exact .of_hex hl (by decide) (by decide) h
      · exact .of_hex hl (by decide) (by decide) h
      · exact .of_hex hl (by decide) (by decide) h
      · exact .of_property hl (.inl rfl) h
      · exact .of_property hl (.inr rfl) h
      · exact .of_plain hl (by decide) (by decide) (by simp) h
      · next hp hP _ =>
        split at h
        · exact .of_control hl hp hP h
        · split at h
          · exact absurd h (by simp)
          · exact .of_control hl hp hP h

/-- The text gathered for a class, and where its closing bracket is. -/
theorem of_classBody {fuel n : Nat} {done pieces : List Text}
    (h : classBody fuel n done t = .ok (pieces, rest)) :
    ∃ body, pieces.reverse.flatten = done.reverse.flatten ++ body ∧
      (Legible body → openings (.inside n) t = openings .outside rest ∧ rest <:+ t) := by
  fun_induction classBody fuel n done t with
  | case1 | case2 => exact absurd h (by simp)
  | case3 fuel n done r ih =>
    obtain ⟨⟨piece, mid⟩, hpiece, h⟩ := exists_of_bind_eq_ok h
    obtain ⟨body, hbody, hread⟩ := ih piece mid h
    refine ⟨piece ++ body, by simp [hbody], fun hl => ?_⟩
    obtain ⟨hlegible, ho, hs⟩ := of_classEscape hpiece hl n
    obtain ⟨hout, hsuffix⟩ := hread hlegible
    have hstep : openings (.inside n) ('\\' :: r) = openings (.escaped (some n)) r := by
      cases n <;> rfl
    exact ⟨by rw [hstep, ho, hout], (hsuffix.trans hs).trans (List.suffix_cons _ _)⟩
  | case4 fuel n done r ih =>
    obtain ⟨body, hbody, hread⟩ := ih h
    refine ⟨'[' :: body, by simp [hbody], fun hl => ?_⟩
    obtain ⟨hout, hsuffix⟩ := hread (hl.of_plain_cons (by decide))
    have hstep : openings (.inside n) ('[' :: r) = openings (.inside (n + 1)) r := by
      cases n <;> rfl
    exact ⟨by rw [hstep, hout], hsuffix.trans (List.suffix_cons _ _)⟩
  | case5 fuel done r =>
    simp only [Except.ok.injEq, Prod.mk.injEq] at h
    obtain ⟨rfl, rfl⟩ := h
    exact ⟨[']'], by simp, fun _ => ⟨rfl, List.suffix_cons _ _⟩⟩
  | case6 fuel done n r ih =>
    obtain ⟨body, hbody, hread⟩ := ih h
    refine ⟨']' :: body, by simp [hbody], fun hl => ?_⟩
    obtain ⟨hout, hsuffix⟩ := hread (hl.of_plain_cons (by decide))
    exact ⟨hout, hsuffix.trans (List.suffix_cons _ _)⟩
  | case7 fuel n done c r hb ho hz hs ih =>
    obtain ⟨body, hbody, hread⟩ := ih h
    refine ⟨c :: body, by simp [hbody], fun hl => ?_⟩
    obtain ⟨hout, hsuffix⟩ := hread (hl.of_plain_cons hb)
    have hitem : ∀ k, Place.item k c = .inside k := fun k => by
      simp [Place.item, show c ≠ '\\' from hb, show c ≠ '[' from ho]
    have hstep : openings (.inside n) (c :: r) = openings (.inside n) r := by
      rw [openings_cons (.inl (by simp))]
      cases n with
      | zero => rw [Place.next, if_neg (by simpa using hz rfl), hitem]
      | succ n => rw [Place.next, if_neg (by simpa using hs n rfl), hitem]
    exact ⟨by rw [hstep, hout], hsuffix.trans (List.suffix_cons _ _)⟩

theorem openings_caret (h : ∀ u, t ≠ ']' :: u) : openings .caret t = openings (.inside 0) t := by
  cases t with
  | nil => rfl
  | cons c r =>
    have hc : c ≠ ']' := fun hc => h r (by rw [hc])
    rw [openings_cons (.inl (by simp)), openings_cons (.inl (by simp)), Place.next, Place.next,
      if_neg (by simpa using hc)]

theorem openings_bracket (h : ∀ u, t ≠ '^' :: u) : openings .bracket t = openings .caret t := by
  cases t with
  | nil => rfl
  | cons c r =>
    have hc : c ≠ '^' := fun hc => h r (by rw [hc])
    rw [openings_cons (.inl (by simp)), openings_cons (.inl (by simp)), Place.next, Place.next,
      if_neg (by simpa using hc)]

/-- A class is left where its place in the text says. -/
theorem of_readClass {s : CharSet} (h : readClass t = .ok (s, rest)) :
    openings .bracket t = openings .outside rest ∧ rest <:+ t := by
  have body : ∀ {head u : Text}, (∀ c ∈ head, c ≠ '\\') →
      (classBody (u.length + 1) 0 [head] u >>= fun x =>
        CharSet.read x.1.reverse.flatten >>= fun s => Except.ok (s, x.2)) = .ok (s, rest) →
      openings (.inside 0) u = openings .outside rest ∧ rest <:+ u := by
    intro head u hhead h
    obtain ⟨⟨pieces, mid⟩, hpieces, h⟩ := exists_of_bind_eq_ok h
    obtain ⟨set, hset, h⟩ := exists_of_bind_eq_ok h
    simp only [Except.ok.injEq, Prod.mk.injEq] at h
    obtain ⟨rfl, rfl⟩ := h
    obtain ⟨text, htext, hread⟩ := of_classBody hpieces
    have hl := CharSet.legible_of_read hset
    rw [htext] at hl
    exact hread (Legible.of_plain (by simpa using hl) hhead)
  unfold readClass at h
  split at h
  next head u hu =>
  split at h
  next head' v hv =>
  split at hu
  · next r =>
    obtain ⟨rfl, rfl⟩ := Prod.mk.inj hu
    split at hv
    · obtain ⟨rfl, rfl⟩ := Prod.mk.inj hv
      obtain ⟨ho, hs⟩ := body (by simp) h
      exact ⟨ho, hs.trans ⟨['^', ']'], rfl⟩⟩
    · next hne =>
      obtain ⟨rfl, rfl⟩ := Prod.mk.inj hv
      obtain ⟨ho, hs⟩ := body (by simp) h
      exact ⟨(openings_caret hne).trans ho, hs.trans (List.suffix_cons _ _)⟩
  · next hcaret =>
    obtain ⟨rfl, rfl⟩ := Prod.mk.inj hu
    split at hv
    · obtain ⟨rfl, rfl⟩ := Prod.mk.inj hv
      obtain ⟨ho, hs⟩ := body (by simp) h
      exact ⟨ho, hs.trans (List.suffix_cons _ _)⟩
    · next hne =>
      obtain ⟨rfl, rfl⟩ := Prod.mk.inj hv
      obtain ⟨ho, hs⟩ := body (by simp) h
      exact ⟨((openings_bracket hcaret).trans (openings_caret hne)).trans ho, hs⟩

end Reader

end Baseline
end RegexDialect
