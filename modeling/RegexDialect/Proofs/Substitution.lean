import RegexDialect.Proofs.Places
import RegexDialect.Proofs.TemplateRoundTrip

/-! What a template stands for, read off its text from left to right: references that resolve give
way to their values, and all else is copied. The parts that a template is read as are chosen before
the groups are known, and rendering them gives the same text. -/
namespace RegexDialect

open TemplatePart

namespace Match

/-- One or two digits that number a group, the whole match not among them. -/
def IsNumber (m : Match) (digits : Text) : Prop :=
  digits.length ≤ 2 ∧ ∃ n, Text.toNat? digits = some n ∧ 1 ≤ n ∧ n ≤ m.groups.length

def signs (m : Match) : List (Char × Text) :=
  [('$', ['$']), ('&', Text.slice m.text m.span), ('\x60', Text.upTo m.text m.span.start),
    ('\x27', Text.dropTo m.text m.span.stop)]

/-- The text at the span with a number: that of the whole match, then those of the groups. Where
there is no span there is no text. -/
def valueAt (m : Match) (n : Nat) : Text :=
  match (some m.span :: m.groups)[n]? with
  | some (some span) => Text.slice m.text span
  | _ => []

def braces (name : Text) : Text := '$' :: '\x7b' :: (name ++ ['}'])

/-- What a name in braces consists of. -/
def IsWord (name : Text) : Prop :=
  name ≠ [] ∧ ∀ c ∈ name, c = '$' ∨ c = '_' ∨ Unicode.isAlphanumeric c = true

/-- A text that refers to something, the text behind it, and its value. Of two digits both count if
they can, else the first; a numeral in braces is the number of a group, the whole match among them,
when there is such a group; any other name in braces stands for the first group with that name.
Groups that are absent give nothing. -/
inductive Refers (m : Match) : (source rest value : Text) → Prop
  | sign {c : Char} {value : Text} (rest : Text) (meaning : (c, value) ∈ m.signs) :
      Refers m ['$', c] rest value
  | numbered {digits rest : Text} {n : Nat}
      (longest : LongestBeginning m.IsNumber (digits ++ rest) digits)
      (number : Text.toNat? digits = some n) : Refers m ('$' :: digits) rest (m.valueAt n)
  | numeral {digits : Text} {n : Nat} (rest : Text) (number : Text.toNat? digits = some n)
      (bound : n ≤ m.groups.length) : Refers m (braces digits) rest (m.valueAt n)
  | named {name : Text} {k : Nat} (rest : Text) (word : IsWord name)
      (noNumeral : ∀ n, Text.toNat? name = some n → m.groups.length < n)
      (hit : m.names[k]? = some (some name)) (first : ∀ j < k, m.names[j]? ≠ some (some name)) :
      Refers m (braces name) rest (m.valueAt (k + 1))

/-- A piece of a template: text that is copied, or a reference with its value. -/
inductive Piece
  | copied (text : Text)
  | replaced (source value : Text)

namespace Piece

def source : Piece → Text
  | copied text => text
  | replaced source _ => source

def output : Piece → Text
  | copied text => text
  | replaced _ value => value

end Piece

/-- A template cut into pieces from left to right. A reference is taken where one begins; a name in
braces that stands for nothing is copied whole; any other character is copied by itself. -/
inductive Cut (m : Match) : Text → List Piece → Prop
  | nil : Cut m [] []
  | reference {source rest value : Text} {pieces : List Piece} (refers : Refers m source rest value)
      (behind : Cut m rest pieces) : Cut m (source ++ rest) (.replaced source value :: pieces)
  | unresolved {name rest : Text} {pieces : List Piece} (word : IsWord name)
      (nothing : ∀ value, ¬Refers m (braces name) rest value) (behind : Cut m rest pieces) :
      Cut m (braces name ++ rest) (.copied (braces name) :: pieces)
  | character {c : Char} {rest : Text} {pieces : List Piece}
      (noReference : ∀ source behind value, c :: rest = source ++ behind →
        ¬Refers m source behind value)
      (noBraces : ∀ name behind, c :: rest = braces name ++ behind → ¬IsWord name)
      (behind : Cut m rest pieces) :
      Cut m (c :: rest) (.copied [c] :: pieces)

end Match

theorem Text.isDigit_of_toNat? {t : Text} {n : Nat} (h : toNat? t = some n) :
    t ≠ [] ∧ ∀ c ∈ t, c.isDigit = true := by
  rw [toNat?] at h
  split at h
  · exact absurd h (by simp)
  · next hok => simpa using hok

theorem Match.getD_group (m : Match) (n : Nat) : (m.group n).getD [] = m.valueAt n := by
  rw [group, valueAt]
  cases n with
  | zero => rfl
  | succ n => rcases h : m.groups[n]? with _ | _ | span <;> simp [range?, h]

variable {m : Match} {run digits name source rest value t u : Text} {n width : Nat}
  {part : TemplatePart} {pieces : List Match.Piece}

section Rendering

theorem renderTemplate_of_parseFrom (h : parseFrom 0 [] t = part :: parseFrom 0 [] u) :
    renderTemplate m t = part.render m ++ renderTemplate m u := by
  simp only [renderTemplate, parse, h, List.flatMap_cons]

theorem renderTemplate_print (hr : part.IsReference) (hn : part.IsNormal) (ht : part.EndsBefore t) :
    renderTemplate m (part.print ++ t) = part.render m ++ renderTemplate m t :=
  renderTemplate_of_parseFrom (parseFrom_written hr hn ht [])

theorem renderTemplate_dollar (h : reference? t = none) :
    renderTemplate m ('$' :: t) = '$' :: renderTemplate m t := by
  have hread : parseFrom 0 [] ('$' :: t) = parseFrom 0 ['$'] t := by simp [parseFrom, h]
  rw [renderTemplate, parse, hread, flatMap_render_parseFrom]
  rfl

theorem renderTemplate_dollars (t : Text) :
    renderTemplate m ('$' :: '$' :: t) = '$' :: renderTemplate m t := by
  have hread : parseFrom 0 [] ('$' :: '$' :: t) = parseFrom 0 ['$'] t := by
    simp [parseFrom, reference?]
  rw [renderTemplate, parse, hread, flatMap_render_parseFrom]
  rfl

theorem renderTemplate_append (h : '$' ∉ u) (t : Text) :
    renderTemplate m (u ++ t) = u ++ renderTemplate m t := by
  induction u with
  | nil => rfl
  | cons c u ih =>
    obtain ⟨hc, hu⟩ := not_or.1 (List.mem_cons.not.1 h)
    have hread : parseFrom 0 [] (c :: (u ++ t)) = parseFrom 0 [c] (u ++ t) := by
      simp [parseFrom, Ne.symm hc]
    rw [List.cons_append, renderTemplate, parse, hread, flatMap_render_parseFrom]
    exact congrArg (c :: ·) (ih hu)

end Rendering

section Numbered

/-- A number takes no digits but those that its reference was read with. -/
theorem begins_run (hn : (numbered run).IsNormal) (ht : (numbered run).EndsBefore t)
    (hd : m.IsNumber digits) (h : digits <+: run ++ t) : digits <+: run := by
  by_cases hle : digits.length ≤ run.length
  · exact List.prefix_of_prefix_length_le h (List.prefix_append run t) hle
  obtain ⟨hlength, n, hnumber, -⟩ := hd
  obtain ⟨c, rfl⟩ : ∃ c, run = [c] := List.length_eq_one_iff.1 (hn.1.resolve_right (by omega))
  obtain ⟨a, d, rfl⟩ : ∃ a d, digits = [a, d] := List.length_eq_two.1 (by simp at hle; omega)
  obtain ⟨-, after, rfl⟩ : a = c ∧ [d] <+: t := List.cons_prefix_cons.1 h
  have hdigit : d.isDigit = true := (Text.isDigit_of_toNat? hnumber).2 d (by simp)
  exact absurd (ht c d rfl rfl) (by simp [hdigit])

theorem not_isNumber_nil (m : Match) : ¬m.IsNumber [] := by
  rintro ⟨-, n, hn, -⟩
  exact (Text.isDigit_of_toNat? hn).1 rfl

/-- Of the digits at hand the most that number a group are taken, if any do. -/
theorem numberedGroup?_cases (m : Match) (hr : run.length ≤ 2) (width : Nat) :
    (∃ n k, numberedGroup? m run width = some (n, k) ∧ k ≤ width ∧
      Text.toNat? (run.take k) = some n ∧
      m.IsNumber (run.take k) ∧ ∀ j ≤ width, m.IsNumber (run.take j) → j ≤ k) ∨
    numberedGroup? m run width = none ∧ ∀ j ≤ width, ¬m.IsNumber (run.take j) := by
  induction width with
  | zero =>
    refine .inr ⟨rfl, fun j hj => ?_⟩
    obtain rfl := Nat.le_zero.1 hj
    exact not_isNumber_nil m
  | succ width ih =>
    by_cases hnumber : m.IsNumber (run.take (width + 1))
    · have ⟨_, n, hn, hpos, hle⟩ := hnumber
      have hlt : n < m.size := Nat.lt_succ_of_le hle
      exact .inl ⟨n, width + 1, by simp [numberedGroup?, hn, hlt, Nat.one_le_iff_ne_zero.1 hpos],
        Nat.le_refl _, hn, hnumber, fun j hj _ => hj⟩
    · have hskip : numberedGroup? m run (width + 1) = numberedGroup? m run width := by
        rw [numberedGroup?]
        split
        · next n hn =>
          refine if_neg fun hok => hnumber ⟨by simp; omega, n, hn, ?_⟩
          simpa [Match.size, Nat.lt_succ_iff] using hok
        · rfl
      have hlast : ∀ {j}, j ≤ width + 1 → m.IsNumber (run.take j) → j ≤ width := by
        intro j hj hd
        refine Nat.lt_succ_iff.1 (Nat.lt_of_le_of_ne hj ?_)
        rintro rfl
        exact hnumber hd
      rw [hskip]
      rcases ih with ⟨n, k, hfound, hk, hn, hd, hmost⟩ | ⟨hfound, hnone⟩
      · exact .inl
          ⟨n, k, hfound, Nat.le_succ_of_le hk, hn, hd, fun j hj hd => hmost j (hlast hj hd) hd⟩
      · exact .inr ⟨hfound, fun j hj hd => hnone j (hlast hj hd) hd⟩

/-- The digits of a reference that count, in front of all that it was read with, are the longest
that number a group. -/
theorem render_numbered_cases (hn : (numbered run).IsNormal) (ht : (numbered run).EndsBefore t) :
    (∃ digits left n, run = digits ++ left ∧ LongestBeginning m.IsNumber (run ++ t) digits ∧
      Text.toNat? digits = some n ∧ (numbered run).render m = m.valueAt n ++ left) ∨
    (∀ digits, digits <+: run ++ t → ¬m.IsNumber digits) ∧
      (numbered run).render m = '$' :: run := by
  have hr : run.length ≤ 2 := by have := hn.1; omega
  have htake : ∀ {digits}, digits <+: run ++ t → m.IsNumber digits →
      digits.length ≤ run.length ∧ m.IsNumber (run.take digits.length) := by
    intro digits hd hnumber
    have hbegins := begins_run hn ht hnumber hd
    exact ⟨hbegins.length_le, List.prefix_iff_eq_take.1 hbegins ▸ hnumber⟩
  rcases numberedGroup?_cases m hr run.length with
    ⟨n, k, hfound, hk, hvalue, hd, hmost⟩ | ⟨hfound, hnone⟩
  · refine .inl ⟨run.take k, run.drop k, n, (List.take_append_drop k run).symm,
      ⟨?_, hd, fun other ho hother => ?_⟩, hvalue, ?_⟩
    · exact (List.take_prefix k run).trans (List.prefix_append run t)
    · obtain ⟨hle, hnumber⟩ := htake ho hother
      rw [List.length_take_of_le hk]
      exact hmost _ hle hnumber
    · simp only [render, hfound, m.getD_group]
  · refine .inr ⟨fun digits hd hnumber => ?_, by simp only [render, hfound]⟩
    obtain ⟨hle, hnumber⟩ := htake hd hnumber
    exact hnone _ hle hnumber

end Numbered

section Braces

theorem isWord_of_toNat? (h : Text.toNat? name = some n) : Match.IsWord name := by
  obtain ⟨hne, hdigits⟩ := Text.isDigit_of_toNat? h
  exact ⟨hne, fun c hc => .inr (.inr (Unicode.isAlphanumeric_of_isDigit (hdigits c hc)))⟩

theorem groupIndex_eq_some_iff : m.groupIndex name = some n ↔
    ∃ k, n = k + 1 ∧ m.names[k]? = some (some name) ∧ ∀ j < k, m.names[j]? ≠ some (some name) := by
  simp only [Match.groupIndex, Option.map_eq_some_iff, List.findIdx?_eq_some_iff_getElem]
  constructor
  · rintro ⟨k, ⟨hk, hhit, hfirst⟩, rfl⟩
    refine ⟨k, rfl, by rw [List.getElem?_eq_getElem hk, beq_iff_eq.1 hhit], fun j hj => ?_⟩
    rw [List.getElem?_eq_getElem (hj.trans hk)]
    simpa using hfirst j hj
  · rintro ⟨k, rfl, hhit, hfirst⟩
    obtain ⟨hk, hname⟩ := List.getElem?_eq_some_iff.1 hhit
    refine ⟨k, ⟨hk, beq_iff_eq.2 hname, fun j hj => ?_⟩, rfl⟩
    have hother := hfirst j hj
    rw [List.getElem?_eq_getElem (hj.trans hk)] at hother
    simpa using hother

theorem braces_inj {other : Text} : Match.braces name = Match.braces other ↔ name = other := by
  simp [Match.braces]

/-- A name in braces refers to something exactly when rendering finds a group. -/
theorem refers_braces_iff (hw : Match.IsWord name) : m.Refers (Match.braces name) rest value ↔
    ∃ n, bracedGroup? m name = some n ∧ value = m.valueAt n := by
  constructor
  · intro h
    generalize hsource : Match.braces name = source at h
    cases h with
    | sign => simp [Match.braces] at hsource
    | numbered longest number =>
      obtain rfl := (List.cons.inj hsource).2
      exact absurd ((Text.isDigit_of_toNat? number).2 '\x7b' (by simp)) (by decide)
    | @numeral digits n rest number bound =>
      obtain rfl := braces_inj.1 hsource
      exact ⟨n, by simp [bracedGroup?, number, Match.size, Nat.lt_succ_of_le bound], rfl⟩
    | @named word k rest hword noNumeral hit first =>
      obtain rfl := braces_inj.1 hsource
      have hindex := groupIndex_eq_some_iff.2 ⟨k, rfl, hit, first⟩
      refine ⟨k + 1, ?_, rfl⟩
      rw [bracedGroup?]
      split
      · next n hn =>
        have hle : ¬n < m.size := Nat.not_lt.2 (noNumeral n hn)
        rw [if_neg hle, hindex]
      · exact hindex
  · rintro ⟨n, hn, rfl⟩
    have named : (∀ k, Text.toNat? name = some k → m.groups.length < k) →
        m.groupIndex name = some n → m.Refers (Match.braces name) rest (m.valueAt n) := by
      intro hnumeral hindex
      obtain ⟨k, rfl, hhit, hfirst⟩ := groupIndex_eq_some_iff.1 hindex
      exact .named rest hw hnumeral hhit hfirst
    rw [bracedGroup?] at hn
    split at hn
    · next k hk =>
      split at hn
      · next hlt =>
        obtain rfl := Option.some.inj hn
        exact .numeral rest hk (Nat.lt_succ_iff.1 hlt)
      · next hle =>
        refine named (fun other hother => ?_) hn
        obtain rfl := Option.some.inj (hk.symm.trans hother)
        exact Nat.not_lt.1 hle
    · next hnone => exact named (by simp [hnone]) hn

end Braces

section Pieces

theorem render_braced (name : Text) : (braced name).render m =
    ((bracedGroup? m name).map fun n => m.valueAt n).getD (Match.braces name) := by
  rw [render]
  split <;> simp [*, Match.braces, m.getD_group]

theorem renderTemplate_braces_append (hw : Match.IsWord name) (t : Text) :
    renderTemplate m (Match.braces name ++ t) = (braced name).render m ++ renderTemplate m t := by
  have hprint : Match.braces name = (braced name).print := by simp [Match.braces, print]
  rw [hprint]
  exact renderTemplate_print trivial hw (by simp [EndsBefore])

theorem renderTemplate_of_refers_braces (hw : Match.IsWord name)
    (h : m.Refers (Match.braces name) rest value) :
    renderTemplate m (Match.braces name ++ rest) = value ++ renderTemplate m rest := by
  obtain ⟨n, hn, rfl⟩ := (refers_braces_iff hw).1 h
  rw [renderTemplate_braces_append hw, render_braced, hn]
  rfl

theorem renderTemplate_numbered (h : LongestBeginning m.IsNumber (digits ++ rest) digits)
    (hn : Text.toNat? digits = some n) :
    renderTemplate m ('$' :: (digits ++ rest)) = m.valueAt n ++ renderTemplate m rest := by
  obtain ⟨hne, hdigits⟩ := Text.isDigit_of_toNat? hn
  obtain ⟨c, ds, rfl⟩ := List.exists_cons_of_ne_nil hne
  obtain ⟨hnormal, t, hrest, hends⟩ := numbered_of_isDigit (hdigits c (by simp)) (ds ++ rest)
  generalize hrun : c :: ((ds ++ rest).take 1).takeWhile Char.isDigit = run at hnormal hends
  have hread : (c :: ds) ++ rest = run ++ t := by
    rw [← hrun, List.cons_append, List.cons_append, ← hrest]
  rw [hread] at h ⊢
  have hprint := @renderTemplate_print m t (numbered run) trivial hnormal hends
  rcases render_numbered_cases (m := m) hnormal hends with
    ⟨digits, left, k, rfl, hlongest, hk, hrender⟩ | ⟨hnone, -⟩
  · obtain rfl := h.unique hlongest
    obtain rfl := Option.some.inj (hn.symm.trans hk)
    obtain rfl : rest = left ++ t := by simpa using hread
    have hleft : '$' ∉ left :=
      fun hd => absurd (hnormal.2 '$' (List.mem_append_right _ hd)) (by decide)
    rw [renderTemplate_append hleft, ← List.append_assoc, ← hrender]
    exact hprint
  · exact absurd h.valid (hnone _ h.begins)

/-- A reference gives its value, and the text behind it is read on its own. -/
theorem renderTemplate_of_refers (h : m.Refers source rest value) :
    renderTemplate m (source ++ rest) = value ++ renderTemplate m rest := by
  cases h with
  | sign _ meaning =>
    simp only [Match.signs, List.mem_cons, Prod.mk.injEq, List.not_mem_nil, or_false] at meaning
    rcases meaning with ⟨rfl, rfl⟩ | ⟨rfl, rfl⟩ | ⟨rfl, rfl⟩ | ⟨rfl, rfl⟩
    · exact renderTemplate_dollars rest
    · exact @renderTemplate_print m rest wholeMatch trivial trivial (by simp [EndsBefore])
    · exact @renderTemplate_print m rest .before trivial trivial (by simp [EndsBefore])
    · exact @renderTemplate_print m rest .after trivial trivial (by simp [EndsBefore])
  | numbered longest number => exact renderTemplate_numbered longest number
  | numeral _ number bound =>
    exact renderTemplate_of_refers_braces (isWord_of_toNat? number) (.numeral rest number bound)
  | named _ word noNumeral hit first =>
    exact renderTemplate_of_refers_braces word (.named rest word noNumeral hit first)

theorem exists_of_reference?_none (h : reference? t = some (none, n)) :
    ∃ rest, t = '$' :: rest := by
  unfold reference? at h
  split at h
  · exact ⟨_, rfl⟩
  · simp at h
  · simp at h
  · simp at h
  · simp at h
  · dsimp only at h
    split at h <;> simp at h

/-- A character where no reference and no name in braces begins is copied. -/
theorem renderTemplate_cons {c : Char}
    (noReference : ∀ source behind value, c :: t = source ++ behind → ¬m.Refers source behind value)
    (noBraces : ∀ name behind, c :: t = Match.braces name ++ behind → ¬Match.IsWord name) :
    renderTemplate m (c :: t) = c :: renderTemplate m t := by
  by_cases hc : c = '$'
  · subst hc
    have noSign : ∀ {c value behind}, t = c :: behind → (c, value) ∉ m.signs := fun ht hs =>
      noReference _ _ _ (congrArg ('$' :: ·) ht) (.sign _ hs)
    rcases href : reference? t with _ | ⟨_ | part, n⟩
    · exact renderTemplate_dollar href
    · obtain ⟨rest, rfl⟩ := exists_of_reference?_none href
      exact absurd (by simp [Match.signs] : ('$', ['$']) ∈ m.signs) (noSign rfl)
    · obtain ⟨hr, hn, rest, rfl, -, hends⟩ := exists_of_reference? href
      cases part with
      | literal text => exact hr.elim
      | wholeMatch =>
        exact absurd (by simp [Match.signs, Match.matched] : ('&', m.matched) ∈ m.signs)
          (noSign rfl)
      | before =>
        exact absurd (by simp [Match.signs, Match.before, Match.start] : ('\x60', m.before) ∈
          m.signs) (noSign rfl)
      | after =>
        exact absurd (by simp [Match.signs, Match.after, Match.stop] : ('\x27', m.after) ∈ m.signs)
          (noSign rfl)
      | numbered run =>
        rcases render_numbered_cases (m := m) hn hends with
          ⟨digits, left, k, rfl, hlongest, hk, -⟩ | ⟨-, hrender⟩
        · rw [List.append_assoc] at hlongest
          exact absurd (.numbered hlongest hk)
            (noReference _ (left ++ rest) _ (by simp [written, print]))
        · have hdigits : '$' ∉ run := fun hd => absurd (hn.2 '$' hd) (by decide)
          have hprint := @renderTemplate_print m rest (numbered run) hr hn hends
          rw [hrender] at hprint
          exact hprint.trans (congrArg ('$' :: ·) (renderTemplate_append hdigits rest).symm)
      | braced name => exact absurd hn (noBraces name rest (by simp [written, print, Match.braces]))
  · exact renderTemplate_append (u := [c]) (by simpa using Ne.symm hc) t

end Pieces

namespace Match

theorem Refers.source_ne_nil (h : m.Refers source rest value) : source ≠ [] := by
  cases h <;> simp [braces]

theorem eq_of_braces_append {other : Text} (hw : IsWord name) (ho : IsWord other)
    (h : braces name ++ t = braces other ++ u) : name = other ∧ t = u := by
  have hclosing : ∀ {word : Text}, IsWord word → ∀ c ∈ word, (c != '}') = true := by
    intro word hword c hc
    refine bne_iff_ne.2 ?_
    rintro rfl
    exact absurd (isNameChar_iff.2 (hword.2 _ hc)) (by decide +kernel)
  have hread : name ++ '}' :: t = other ++ '}' :: u := by simpa [braces] using h
  have hname := Text.takeWhile_run (hclosing hw) (b := '}' :: t) (by simp)
  rw [hread, Text.takeWhile_run (hclosing ho) (by simp)] at hname
  subst hname
  exact ⟨rfl, by simpa using hread⟩

/-- What a reference looks like: a sign, the longest digits that count, or a name in braces. -/
theorem Refers.cases_source (h : m.Refers source rest value) :
    (∃ c, source = ['$', c] ∧ (c, value) ∈ m.signs) ∨
    (∃ c digits n, source = '$' :: c :: digits ∧ c.isDigit = true ∧
      LongestBeginning m.IsNumber (c :: digits ++ rest) (c :: digits) ∧
        Text.toNat? (c :: digits) = some n ∧
      value = m.valueAt n) ∨
    ∃ name, source = braces name ∧ IsWord name := by
  cases h with
  | sign _ meaning => exact .inl ⟨_, rfl, meaning⟩
  | numbered longest number =>
    obtain ⟨hne, hdigits⟩ := Text.isDigit_of_toNat? number
    obtain ⟨c, digits, rfl⟩ := List.exists_cons_of_ne_nil hne
    exact .inr (.inl ⟨c, digits, _, rfl, hdigits c (by simp), longest, number, rfl⟩)
  | numeral _ number => exact .inr (.inr ⟨_, rfl, isWord_of_toNat? number⟩)
  | named _ word => exact .inr (.inr ⟨_, rfl, word⟩)

theorem eq_of_mem_signs {c : Char} (h : (c, value) ∈ m.signs) :
    c.isDigit = false ∧ c ≠ '\x7b' ∧ ∀ other, (c, other) ∈ m.signs → other = value := by
  simp only [signs, List.mem_cons, Prod.mk.injEq, List.not_mem_nil, or_false] at h
  rcases h with ⟨rfl, rfl⟩ | ⟨rfl, rfl⟩ | ⟨rfl, rfl⟩ | ⟨rfl, rfl⟩ <;>
    exact ⟨by decide, by decide, by simp [signs]⟩

theorem Refers.eq_of_braces (h : m.Refers source rest value) (hw : IsWord name)
    (heq : source ++ rest = braces name ++ t) : source = braces name ∧ rest = t := by
  rcases h.cases_source with ⟨c, rfl, hc⟩ | ⟨c, digits, n, rfl, hc, -⟩ | ⟨other, rfl, ho⟩
  · obtain rfl : c = '\x7b' := (List.cons.inj (List.cons.inj heq).2).1
    exact absurd rfl (eq_of_mem_signs hc).2.1
  · obtain rfl : c = '\x7b' := (List.cons.inj (List.cons.inj heq).2).1
    exact absurd hc (by decide)
  · obtain ⟨rfl, rfl⟩ := eq_of_braces_append ho hw heq
    exact ⟨rfl, rfl⟩

theorem Refers.unique {source' rest' value' : Text} (h : m.Refers source rest value)
    (h' : m.Refers source' rest' value') (heq : source ++ rest = source' ++ rest') :
    source = source' ∧ rest = rest' ∧ value = value' := by
  rcases h.cases_source with
    ⟨c, rfl, hc⟩ | ⟨c, digits, n, rfl, hc, hlongest, hn, rfl⟩ | ⟨name, rfl, hw⟩
  · rcases h'.cases_source with ⟨d, rfl, hd⟩ | ⟨d, digits, n, rfl, hd, -⟩ | ⟨name, rfl, hw⟩
    · obtain ⟨rfl, rfl⟩ : c = d ∧ rest = rest' := by simpa using heq
      exact ⟨rfl, rfl, (eq_of_mem_signs hd).2.2 _ hc⟩
    · obtain rfl : c = d := (List.cons.inj (List.cons.inj heq).2).1
      exact absurd hd (by simp [(eq_of_mem_signs hc).1])
    · exact absurd (h.eq_of_braces hw heq).1 (by simp [braces])
  · rcases h'.cases_source with
      ⟨d, rfl, hd⟩ | ⟨d, digits', n', rfl, -, hlongest', hn', rfl⟩ | ⟨name, rfl, hw⟩
    · obtain rfl : c = d := (List.cons.inj (List.cons.inj heq).2).1
      exact absurd hc (by simp [(eq_of_mem_signs hd).1])
    · have hread : c :: digits ++ rest = d :: digits' ++ rest' := (List.cons.inj heq).2
      rw [← hread] at hlongest'
      have hdigits := hlongest.unique hlongest'
      rw [hdigits] at hn' hread ⊢
      exact ⟨rfl, List.append_cancel_left hread, by rw [Option.some.inj (hn.symm.trans hn')]⟩
    · obtain rfl : c = '\x7b' := (List.cons.inj (List.cons.inj heq).2).1
      exact absurd hc (by decide)
  · obtain ⟨rfl, rfl⟩ := h'.eq_of_braces hw heq.symm
    obtain ⟨n, hn, rfl⟩ := (refers_braces_iff hw).1 h
    obtain ⟨k, hk, rfl⟩ := (refers_braces_iff hw).1 h'
    exact ⟨rfl, rfl, by rw [Option.some.inj (hn.symm.trans hk)]⟩

theorem exists_cut (m : Match) (t : Text) : ∃ pieces, Cut m t pieces := by
  induction hlength : t.length using Nat.strongRecOn generalizing t with
  | ind length ih =>
    subst hlength
    by_cases href : ∃ source rest value, t = source ++ rest ∧ m.Refers source rest value
    · obtain ⟨source, rest, value, rfl, href⟩ := href
      have hpos := List.length_pos_iff.2 href.source_ne_nil
      obtain ⟨pieces, hpieces⟩ := ih rest.length (by simpa using hpos) rest rfl
      exact ⟨_, .reference href hpieces⟩
    by_cases hbraces : ∃ name rest, t = braces name ++ rest ∧ IsWord name
    · obtain ⟨name, rest, rfl, hword⟩ := hbraces
      obtain ⟨pieces, hpieces⟩ := ih rest.length (by simp [braces]; omega) rest rfl
      exact ⟨_, .unresolved hword (fun value h => href ⟨_, rest, value, rfl, h⟩) hpieces⟩
    cases t with
    | nil => exact ⟨[], .nil⟩
    | cons c t =>
      obtain ⟨pieces, hpieces⟩ := ih t.length (Nat.lt_succ_self _) t rfl
      exact ⟨_, .character (fun source behind value ht h => href ⟨source, behind, value, ht, h⟩)
        (fun name behind ht h => hbraces ⟨name, behind, ht, h⟩) hpieces⟩

theorem Cut.flatMap_source (h : Cut m t pieces) : pieces.flatMap Piece.source = t := by
  induction h with
  | nil => rfl
  | reference _ _ ih => rw [List.flatMap_cons, ih]; rfl
  | unresolved _ _ _ ih => rw [List.flatMap_cons, ih]; rfl
  | character _ _ _ ih => rw [List.flatMap_cons, ih]; rfl

theorem Cut.renderTemplate (h : Cut m t pieces) :
    RegexDialect.renderTemplate m t = pieces.flatMap Piece.output := by
  induction h with
  | nil => rfl
  | reference refers _ ih => rw [renderTemplate_of_refers refers, ih]; rfl
  | @unresolved name rest pieces word nothing _ ih =>
    have hnone : bracedGroup? m name = none :=
      Option.eq_none_iff_forall_ne_some.2 fun n hn =>
        nothing _ ((refers_braces_iff word).2 ⟨n, hn, rfl⟩)
    rw [renderTemplate_braces_append word, render_braced, hnone, ih]
    rfl
  | character noReference noBraces _ ih => rw [renderTemplate_cons noReference noBraces, ih]; rfl

theorem Cut.unique {other : List Piece} (h : Cut m t pieces) (ho : Cut m t other) :
    other = pieces := by
  induction h generalizing other with
  | nil =>
    generalize ht : [] = t at ho
    cases ho with
    | nil => rfl
    | reference refers => exact absurd ht.symm (by simp [refers.source_ne_nil])
    | unresolved => simp [braces] at ht
    | character => simp at ht
  | @reference source rest value pieces refers _ ih =>
    generalize ht : source ++ rest = t at ho
    cases ho with
    | nil => exact absurd ht (by simp [refers.source_ne_nil])
    | reference refers' behind =>
      obtain ⟨rfl, rfl, rfl⟩ := refers.unique refers' ht
      rw [ih behind]
    | unresolved word nothing =>
      obtain ⟨rfl, rfl⟩ := refers.eq_of_braces word ht
      exact absurd refers (nothing value)
    | character noReference => exact absurd refers (noReference _ _ _ ht.symm)
  | @unresolved name rest pieces word nothing _ ih =>
    generalize ht : braces name ++ rest = t at ho
    cases ho with
    | nil => simp [braces] at ht
    | reference refers =>
      obtain ⟨rfl, rfl⟩ := refers.eq_of_braces word ht.symm
      exact absurd refers (nothing _)
    | unresolved word' _ behind =>
      obtain ⟨rfl, rfl⟩ := eq_of_braces_append word word' ht
      rw [ih behind]
    | character _ noBraces => exact absurd word (noBraces _ _ ht.symm)
  | @character c rest pieces noReference noBraces _ ih =>
    generalize ht : c :: rest = t at ho
    cases ho with
    | nil => simp at ht
    | reference refers => exact absurd refers (noReference _ _ _ ht)
    | unresolved word => exact absurd word (noBraces _ _ ht)
    | character _ _ behind =>
      obtain ⟨rfl, rfl⟩ := List.cons.inj ht
      rw [ih behind]

/-- Rendering is one substitution from left to right. Whatever the match and its groups are, a
template is cut in one way into references with their values and pieces that are copied; the sources
of the pieces are the template, and their outputs the rendered text. -/
theorem renderTemplate_eq_substitution (m : Match) (t : Text) :
    ∃ pieces, Cut m t pieces ∧ (∀ other, Cut m t other → other = pieces) ∧
      pieces.flatMap Piece.source = t ∧
      RegexDialect.renderTemplate m t = pieces.flatMap Piece.output := by
  obtain ⟨pieces, h⟩ := exists_cut m t
  exact ⟨pieces, h, fun _ => h.unique, h.flatMap_source, h.renderTemplate⟩

/-- Two groups, the second absent: leftover digits, numbers that are none, and a reference inside an
unresolved name. -/
example :
    RegexDialect.renderTemplate ⟨"xab".toList, ⟨1, 3⟩, [some ⟨1, 2⟩, none], [some ['w'], none]⟩
    "$12$2|$0$7$\x7b00\x7d$\x7bw\x7d$\x7ba$1\x7d$$1$".toList =
      "a2|$0$7aba$\x7ba$1\x7d$1$".toList := by
  decide +kernel

end Match

end RegexDialect
