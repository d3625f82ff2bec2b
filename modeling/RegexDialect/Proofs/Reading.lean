import RegexDialect.Proofs.Brackets

/-! What the reader of baseline syntax makes of the opening parentheses of a text, where it meets
neither comments nor free spacing: the groups it opens are the bare openings and the named ones,
less one for every conditional. -/
namespace RegexDialect.Baseline

/-- Nothing in a text is skipped: no parenthesis opens a comment or turns free spacing on. -/
def Quiet (t : Text) : Prop := ∀ after ∈ openings .outside t, Opening.isQuiet after = true

namespace Reader

/-- The second text is left after plain characters of the first. -/
def PlainTo (t rest : Text) : Prop := ∃ a, t = a ++ rest ∧ ∀ c ∈ a, isPlain c = true

namespace PlainTo

variable {t rest u : Text}

theorem refl (t : Text) : PlainTo t t := ⟨[], rfl, by simp⟩

theorem cons {c : Char} (hc : isPlain c = true) (t : Text) :
    PlainTo (c :: t) t := ⟨[c], rfl, by simpa using hc⟩

theorem of_all (a : Text) (h : a.all isPlain = true) (t : Text) : PlainTo (a ++ t) t :=
  ⟨a, rfl, List.all_eq_true.1 h⟩

theorem trans (h : PlainTo t rest) (h' : PlainTo rest u) : PlainTo t u := by
  obtain ⟨a, rfl, ha⟩ := h
  obtain ⟨b, rfl, hb⟩ := h'
  refine ⟨a ++ b, by simp, fun c hc => ?_⟩
  exact (List.mem_append.1 hc).elim (ha c) (hb c)

theorem of_takeWhile {p : Char → Bool} (hp : (['\\', '(', '['].all fun d => !p d) = true)
    (t : Text) :
    PlainTo t (t.drop (t.takeWhile p).length) := by
  obtain ⟨a, b, rfl, ha, hb⟩ := Text.exists_run p t
  rw [Text.takeWhile_run ha hb, List.drop_left]
  exact ⟨a, rfl, fun c hc => isPlain_of_test hp (ha c hc)⟩

theorem openings_eq (h : PlainTo t rest) : openings .outside t = openings .outside rest := by
  obtain ⟨a, rfl, ha⟩ := h
  exact openings_plain ha rest

theorem suffix (h : PlainTo t rest) : rest <:+ t := by
  obtain ⟨a, rfl, -⟩ := h
  exact List.suffix_append a rest

theorem quiet (h : PlainTo t rest) (hq : Quiet t) : Quiet rest := by
  rw [Quiet, ← h.openings_eq]
  exact hq

end PlainTo

section Pieces

variable {t rest close : Text} {n m : Notes} {k : Nat}

theorem plainTo_of_number? (h : number? t = some (k, rest)) : PlainTo t rest := by
  unfold number? at h
  simp only at h
  split at h
  · split at h
    · simp only [Option.some.injEq, Prod.mk.injEq] at h
      rw [← h.2]
      exact PlainTo.of_takeWhile (by decide) t
    · exact absurd h (by simp)
  · exact absurd h (by simp)

theorem plainTo_of_dropHead? (hc : ∀ c ∈ close, isPlain c = true)
    (h : Text.dropHead? close t = some rest) :
    PlainTo t rest := ⟨close, Text.eq_append_of_dropHead? h, hc⟩

theorem plainTo_of_name? {name : Text} (hc : ∀ c ∈ close, isPlain c = true)
    (h : name? close t = some (name, rest)) :
    PlainTo t rest := by
  unfold name? at h
  simp only at h
  split at h
  · exact absurd h (by simp)
  · obtain ⟨r, hr, h⟩ := Option.map_eq_some_iff.1 h
    obtain ⟨-, rfl⟩ := Prod.mk.inj h
    exact (PlainTo.of_takeWhile (by decide) t).trans (plainTo_of_dropHead? hc hr)

theorem plainTo_of_relative? {opened : Nat} (hc : ∀ c ∈ close, isPlain c = true)
    (h : relative? opened close t = some (k, rest)) : PlainTo t rest := by
  unfold relative? at h
  split at h
  · next r =>
    simp only [Option.bind_eq_bind, Option.bind_eq_some_iff] at h
    obtain ⟨⟨d, u⟩, hd, v, hv, h⟩ := h
    have hrest : v = rest := by
      split at h
      · exact (Prod.mk.inj (Option.some.inj h)).2
      · split at h
        · exact absurd h (by simp)
        · exact (Prod.mk.inj (Option.some.inj h)).2
    subst hrest
    exact (PlainTo.cons (by decide) r).trans
      ((plainTo_of_number? hd).trans (plainTo_of_dropHead? hc hv))
  · exact absurd h (by simp)

theorem of_namedReference {relative : Bool} (hc : ∀ c ∈ close, isPlain c = true)
    (h : namedReference close relative t n = .ok (k, rest, m)) :
    PlainTo t rest ∧ m.groups = n.groups ∧ m.mode = n.mode := by
  unfold namedReference at h
  simp only at h
  split at h
  · next group r hfound =>
    simp only [Except.ok.injEq, Prod.mk.injEq] at h
    obtain ⟨rfl, rfl, rfl⟩ := h
    refine ⟨?_, rfl, rfl⟩
    split at hfound
    · next name u hname =>
      refine (plainTo_of_name? hc hname).trans ?_
      split at hfound
      · obtain ⟨-, rfl⟩ := Prod.mk.inj (Option.some.inj hfound)
        exact .refl _
      · obtain ⟨p, -, hp⟩ := Option.bind_eq_some_iff.1 hfound
        split at hp
        · obtain ⟨-, rfl⟩ := Prod.mk.inj (Option.some.inj hp)
          exact .refl _
        · exact absurd hp (by simp)
    · split at hfound
      · exact plainTo_of_relative? hc hfound
      · exact absurd hfound (by simp)
  · exact absurd h (by simp)

theorem of_numberedReference {size : Nat} (h : numberedReference size t n = .ok (k, rest, m)) :
    PlainTo t rest ∧ m.groups = n.groups ∧ m.mode = n.mode := by
  unfold numberedReference at h
  split at h
  · next hn =>
    split at h
    · simp only [Except.ok.injEq, Prod.mk.injEq] at h
      obtain ⟨rfl, rfl, rfl⟩ := h
      exact ⟨plainTo_of_number? hn, rfl, rfl⟩
    · exact absurd h (by simp)
  · exact absurd h (by simp)

theorem skip_between (h : ∀ r, t ≠ '(' :: '?' :: '#' :: r) : skip false .between t = .ok t := by
  cases t with
  | nil => rfl
  | cons c r =>
    rw [skip]
    · simp
    · rintro u rfl rfl
      exact h u rfl

theorem skipIn_eq (hn : n.mode.spacing = false) (hq : Quiet t) : skipIn n t = .ok t := by
  rw [skipIn, hn]
  refine skip_between ?_
  rintro r rfl
  have h := hq ('?' :: '#' :: r) (by simp)
  exact absurd h (by simp [Opening.isQuiet])

theorem toOption_skipIn (hn : n.mode.spacing = false) (hq : Quiet t) :
    (skipIn n t).toOption = some t := by
  rw [skipIn_eq hn hq]
  rfl

theorem plainTo_of_boundsAfter? {l least : Nat} {most : Option Nat} (hn : n.mode.spacing = false)
    (hq : Quiet t) (h : boundsAfter? n l t = some (least, most, rest)) : PlainTo t rest := by
  unfold boundsAfter? at h
  rw [toOption_skipIn hn hq, Option.bind_eq_bind, Option.bind_some] at h
  split at h
  · next r =>
    simp only [Option.some.injEq, Prod.mk.injEq] at h
    rw [← h.2.2]
    exact .cons (by decide) r
  · next r =>
    have hr : PlainTo (',' :: r) r := .cons (by decide) r
    have hqr := hr.quiet hq
    rw [toOption_skipIn hn hqr, Option.bind_some] at h
    split at h
    next most' v hv =>
    have hv' : PlainTo r v := by
      split at hv
      · next hnumber =>
        obtain ⟨-, rfl⟩ := Prod.mk.inj hv
        exact plainTo_of_number? hnumber
      · obtain ⟨-, rfl⟩ := Prod.mk.inj hv
        exact .refl _
    rw [toOption_skipIn hn (hv'.quiet hqr), Option.bind_some] at h
    split at h
    · next s =>
      simp only [Option.some.injEq, Prod.mk.injEq] at h
      rw [← h.2.2]
      exact hr.trans (hv'.trans (.cons (by decide) s))
    · exact absurd h (by simp)
  · exact absurd h (by simp)

theorem plainTo_of_bounds? {least : Nat} {most : Option Nat} (hn : n.mode.spacing = false)
    (hq : Quiet t) (h : bounds? n t = some (least, most, rest)) : PlainTo t rest := by
  unfold bounds? at h
  rw [toOption_skipIn hn hq, Option.bind_eq_bind, Option.bind_some] at h
  split at h
  · exact plainTo_of_boundsAfter? hn hq h
  · obtain ⟨⟨l, u⟩, hu, h⟩ := Option.bind_eq_some_iff.1 h
    have hplain := plainTo_of_number? hu
    exact hplain.trans (plainTo_of_boundsAfter? hn (hplain.quiet hq) h)

theorem plainTo_of_quantifier? {least : Nat} {most : Option Nat} (hn : n.mode.spacing = false)
    (hq : Quiet t) (h : quantifier? n t = some (least, most, rest)) : PlainTo t rest := by
  unfold quantifier? at h
  split at h
  · simp only [Option.some.injEq, Prod.mk.injEq] at h
    rw [← h.2.2]
    exact .cons (by decide) _
  · simp only [Option.some.injEq, Prod.mk.injEq] at h
    rw [← h.2.2]
    exact .cons (by decide) _
  · simp only [Option.some.injEq, Prod.mk.injEq] at h
    rw [← h.2.2]
    exact .cons (by decide) _
  · next r =>
    have hopen : PlainTo ('\x7b' :: r) r := .cons (by decide) r
    exact hopen.trans (plainTo_of_bounds? hn (hopen.quiet hq) h)
  · exact absurd h (by simp)

theorem eq_of_closing (hn : n.mode.spacing = false) (hq : Quiet t) (h : closing n t = .ok rest) :
    t = ')' :: rest := by
  obtain ⟨u, hu, h⟩ := exists_of_bind_eq_ok h
  rw [skipIn_eq hn hq] at hu
  obtain rfl := Except.ok.inj hu
  split at h
  · rw [Except.ok.inj h]
  · exact absurd h (by simp)
  · exact absurd h (by simp)

theorem of_set? {a b : Mode} {c : Char} {on : Bool} (h : Mode.set? a c on = some b) :
    isPlain c = true ∧
      (Opening.isModeLetter c = true ∧ b.spacing = a.spacing ∨ c = 'x' ∧ b.spacing = on) := by
  unfold Mode.set? at h
  split at h
  · obtain rfl := Option.some.inj h
    exact ⟨by decide, .inl ⟨by decide, rfl⟩⟩
  · obtain rfl := Option.some.inj h
    exact ⟨by decide, .inl ⟨by decide, rfl⟩⟩
  · obtain rfl := Option.some.inj h
    exact ⟨by decide, .inl ⟨by decide, rfl⟩⟩
  · obtain rfl := Option.some.inj h
    exact ⟨by decide, .inl ⟨by decide, rfl⟩⟩
  · obtain rfl := Option.some.inj h
    exact ⟨by decide, .inr ⟨rfl, rfl⟩⟩
  · split at h
    · obtain rfl := Option.some.inj h
      exact ⟨by decide, .inl ⟨by decide, rfl⟩⟩
    · exact absurd h (by simp)
  · exact absurd h (by simp)

/-- Flags of a group that do not turn free spacing on. -/
theorem of_flags {fuel taken : Nat} {off : Bool} {ending : FlagsEnd} (hn : n.mode.spacing = false)
    (hq : Quiet t) (hx : off = false → (t.dropWhile Opening.isModeLetter).head? ≠ some 'x')
    (h : flags fuel taken off t n = .ok (ending, rest, m)) :
    PlainTo t rest ∧ m.groups = n.groups ∧ m.mode.spacing = false := by
  induction fuel generalizing taken off t n with
  | zero => exact absurd h (by simp [flags])
  | succ fuel ih =>
    rw [flags] at h
    obtain ⟨u, hu, hread⟩ := exists_of_bind_eq_ok h
    rw [skipIn_eq hn hq] at hu
    obtain rfl := Except.ok.inj hu
    simp only at hread
    split at hread
    · exact absurd hread (by simp)
    · next r =>
      split at hread
      · exact absurd hread (by simp)
      · have hr : PlainTo ('-' :: r) r := .cons (by decide) r
        obtain ⟨hp, hg, hs⟩ := ih hn (hr.quiet hq) (by simp) hread
        exact ⟨hr.trans hp, hg, hs⟩
    · split at hread
      · exact absurd hread (by simp)
      · simp only [Except.ok.injEq, Prod.mk.injEq] at hread
        obtain ⟨-, rfl, rfl⟩ := hread
        exact ⟨.cons (by decide) _, rfl, hn⟩
    · split at hread
      · exact absurd hread (by simp)
      · simp only [Except.ok.injEq, Prod.mk.injEq] at hread
        obtain ⟨-, rfl, rfl⟩ := hread
        exact ⟨.cons (by decide) _, rfl, hn⟩
    · next c r _ _ _ =>
      split at hread
      · next mode hset =>
        obtain ⟨hplain, hc⟩ := of_set? hset
        have hr : PlainTo (c :: r) r := .cons hplain r
        have hmode : mode.spacing = false ∧
            (off = false → (r.dropWhile Opening.isModeLetter).head? ≠ some 'x') := by
          rcases hc with ⟨hl, hsame⟩ | ⟨rfl, hon⟩
          · exact ⟨hsame.trans hn, fun ho => by simpa [hl] using hx ho⟩
          · cases off with
            | true => exact ⟨hon, by simp⟩
            | false => exact absurd rfl (hx rfl)
        obtain ⟨hp, hg, hs⟩ := ih (n := { n with mode := mode }) hmode.1 (hr.quiet hq) hmode.2 hread
        exact ⟨hr.trans hp, hg, hs⟩
      · exact absurd hread (by simp)

/-- What an escape is read to, from behind its backslash: it ends where its place in the text says,
opens no group and leaves the modes as they are. -/
structure Escaped (t : Text) (n : Notes) (e : Expr) (rest : Text) (m : Notes) : Prop where
  place : openings (.escaped none) t = openings .outside rest
  suffix : rest <:+ t
  opened : m.groups = n.groups
  mode : m.mode = n.mode
  groups : e.groups = []

namespace Escaped

variable {c : Char} {r u : Text} {e : Expr}

theorem of_plainTo (hp : c ≠ 'p') (hP : c ≠ 'P') (hr : PlainTo r rest) (hg : m.groups = n.groups)
    (hm : m.mode = n.mode) (he : e.groups = []) : Escaped (c :: r) n e rest m where
  place := (openings_escaped_of_not_opensName (opensName_of_ne hp hP r)).trans hr.openings_eq
  suffix := hr.suffix.trans (List.suffix_cons _ _)
  opened := hg
  mode := hm
  groups := he

theorem of_simple {a : Expr} (hp : c ≠ 'p') (hP : c ≠ 'P') (ha : a.groups = [])
    (h : (Except.ok (a, r, n) : Except BuildFault _) = .ok (e, rest, m)) :
      Escaped (c :: r) n e rest m := by
  simp only [Except.ok.injEq, Prod.mk.injEq] at h
  obtain ⟨rfl, rfl, rfl⟩ := h
  exact of_plainTo hp hP (.refl r) rfl rfl ha

theorem of_hex {digits : Nat} (hp : c ≠ 'p') (hP : c ≠ 'P')
    (h :
      (hexEscape digits r >>= fun x => Except.ok (Expr.atom (.char x.1 n.mode.caseless), x.2, n)) =
      .ok (e, rest, m)) : Escaped (c :: r) n e rest m := by
  obtain ⟨⟨a, mid⟩, hhex, h⟩ := exists_of_bind_eq_ok h
  simp only [Except.ok.injEq, Prod.mk.injEq] at h
  obtain ⟨rfl, rfl, rfl⟩ := h
  obtain ⟨u, rfl, hu⟩ := exists_of_hexEscape hhex
  exact of_plainTo hp hP ⟨u, rfl, fun d hd => isPlain_of_isInert (hu d hd)⟩ rfl rfl rfl

theorem of_property {negated : Bool} (hc : c = 'p' ∨ c = 'P')
    (h : (propertyText r >>= fun x => CharSet.readProperty negated x.1 >>= fun s =>
      Except.ok (Expr.atom (.set s.1 n.mode.caseless), x.2, n)) = .ok (e, rest, m)) :
    Escaped (c :: r) n e rest m := by
  obtain ⟨⟨inner, mid⟩, hinner, h⟩ := exists_of_bind_eq_ok h
  obtain ⟨⟨s, after⟩, hset, h⟩ := exists_of_bind_eq_ok h
  simp only [Except.ok.injEq, Prod.mk.injEq] at h
  obtain ⟨rfl, rfl, rfl⟩ := h
  have hf : ∀ d, inner = [d] → Unicode.Property.find? [d] ≠ none := by
    rintro d rfl hd
    by_cases hbrace : d = '\x7b'
    · subst hbrace
      simp [CharSet.readProperty] at hset
    · simp [CharSet.readProperty, hd] at hset
  obtain ⟨ho, hs⟩ := openings_of_propertyText hc hinner hf none
  exact ⟨ho, hs.trans (List.suffix_cons _ _), rfl, rfl, rfl⟩

theorem of_reference (hp : c ≠ 'p') (hP : c ≠ 'P') (hclose : ∀ d ∈ close, isPlain d = true)
    (hu : PlainTo r u) (h : (namedReference close true u n).bind
      (fun x => Except.ok (Expr.backreference x.1, x.2.1, x.2.2)) =
      .ok (e, rest, m)) : Escaped (c :: r) n e rest m := by
  obtain ⟨⟨k, mid, after⟩, href, h⟩ := exists_of_bind_eq_ok h
  simp only [Except.ok.injEq, Prod.mk.injEq] at h
  obtain ⟨rfl, rfl, rfl⟩ := h
  obtain ⟨hmid, hg, hm⟩ := of_namedReference hclose href
  exact of_plainTo hp hP (hu.trans hmid) hg hm rfl

end Escaped

theorem of_escape {size : Nat} {e : Expr} (h : escape size t n = .ok (e, rest, m)) :
    Escaped t n e rest m := by
  cases t with
  | nil => exact absurd h (by simp [escape])
  | cons c r =>
    unfold escape at h
    simp only at h
    split at h
    · next hd =>
      obtain ⟨⟨k, mid, after⟩, href, h⟩ := exists_of_bind_eq_ok h
      simp only [Except.ok.injEq, Prod.mk.injEq] at h
      obtain ⟨rfl, rfl, rfl⟩ := h
      obtain ⟨hmid, hg, hm⟩ := of_numberedReference href
      have hp : c ≠ 'p' := Text.ne_of_test hd (by decide)
      have hP : c ≠ 'P' := Text.ne_of_test hd (by decide)
      have ho : openings (.escaped none) (c :: r) = openings .outside r :=
        openings_escaped_of_not_opensName (opensName_of_ne hp hP r)
      rw [← openings_plain_cons (isPlain_of_test (p := Char.isDigit) (by decide) hd) r] at ho
      exact ⟨ho.trans hmid.openings_eq, hmid.suffix, hg, hm, rfl⟩
    · split at h
      · split at h
        · exact .of_reference (by decide) (by decide) (List.all_eq_true.1 (by decide))
            (.cons (by decide) _) h
        · exact .of_reference (by decide) (by decide) (List.all_eq_true.1 (by decide))
            (.cons (by decide) _) h
        · exact absurd h (by simp [bind, Except.bind])
      · exact .of_simple (by decide) (by decide) rfl h
      · exact .of_simple (by decide) (by decide) rfl h
      · split at h
        · exact absurd h (by simp)
        · exact .of_simple (by decide) (by decide) rfl h
      · split at h
        · exact absurd h (by simp)
        · exact .of_simple (by decide) (by decide) rfl h
      · exact .of_simple (by decide) (by decide) rfl h
      · exact .of_simple (by decide) (by decide) rfl h
      · exact .of_simple (by decide) (by decide) rfl h
      · exact .of_simple (by decide) (by decide) rfl h
      · exact .of_simple (by decide) (by decide) rfl h
      · exact .of_simple (by decide) (by decide) rfl h
      · exact .of_simple (by decide) (by decide) rfl h
      · exact .of_simple (by decide) (by decide) rfl h
      · exact .of_simple (by decide) (by decide) rfl h
      · exact .of_simple (by decide) (by decide) rfl h
      · exact .of_hex (by decide) (by decide) h
      · exact .of_hex (by decide) (by decide) h
      · exact .of_hex (by decide) (by decide) h
      · exact .of_property (.inl rfl) h
      · exact .of_property (.inr rfl) h
      · exact .of_simple (by decide) (by decide) rfl h
      · exact .of_simple (by decide) (by decide) rfl h
      · have hp : c ≠ 'p' := by assumption
        have hP : c ≠ 'P' := by assumption
        split at h
        · exact .of_simple hp hP rfl h
        · split at h
          · exact absurd h (by simp)
          · exact .of_simple hp hP rfl h

end Pieces

end Reader
end RegexDialect.Baseline
