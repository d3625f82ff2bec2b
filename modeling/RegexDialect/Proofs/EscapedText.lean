import RegexDialect.Escape
import RegexDialect.Proofs.Rounds

/-! Escaped text has no meaning for the dialect. The scan copies it character by character, whatever
the flags are, and then goes on with the text after it as if that stood alone. -/
namespace RegexDialect

namespace Text

theorem isHexDigit_of_mem_ofNatHex {n : Nat} {c : Char} (h : c ∈ ofNatHex n) :
    isHexDigit c.toUpper = true := by
  induction n using Nat.strongRecOn with
  | ind n ih =>
    have digit : ∀ d < 16, isHexDigit (Nat.digitChar d).toUpper = true := by decide
    by_cases hn : n < 16
    · rw [ofNatHex, Nat.toDigits_of_lt_base hn, List.mem_singleton] at h
      rw [h]
      exact digit n hn
    · rw [ofNatHex, Nat.toDigits_of_base_le (by decide) (by omega), List.mem_append,
        List.mem_singleton] at h
      rcases h with h | h
      · exact ih (n / 16) (by omega) h
      · rw [h]
        exact digit (n % 16) (by omega)

theorem ofNatHex_ne_nil (n : Nat) : ofNatHex n ≠ [] := Nat.toDigits_ne_nil

end Text

theorem not_alphanumeric_of_isMeta {c : Char} (h : isMeta c = true) : c.isAlphanum = false := by
  have : ∀ d ∈ metaCharacters, d.isAlphanum = false := Text.forall_mem_of_all (by decide)
  exact this c (by simpa [isMeta] using h)

namespace BaselineToken

variable {t : Text}

theorem outside_of_sign {c : Char} (h : c.isAlphanum = false) : outside ('\\' :: c :: t) = 2 := by
  have hx : ∀ d : Char, d.isAlphanum = true → c ≠ d := by
    rintro d hd rfl
    simp [h] at hd
  have hd : c.isDigit = false := by
    simp only [Char.isAlphanum, Bool.or_eq_false_iff] at h
    exact h.2
  have h0 := hx '0' rfl
  have hp := hx 'p' rfl
  have hP := hx 'P' rfl
  have hX := hx 'x' rfl
  have hu := hx 'u' rfl
  have hc := hx 'c' rfl
  simp [outside, outerEscape, commonEscape, *]

theorem outside_of_number {digits : Text} (hn : digits ≠ [])
    (hd : ∀ c ∈ digits, Text.isHexDigit c = true) :
    outside (['\\', 'x', '\x7b'] ++ digits ++ ['}'] ++ t) = digits.length + 4 := by
  have hl : 0 < digits.length := List.length_pos_iff.2 hn
  have hrun : (digits ++ '}' :: t).takeWhile Text.isHexDigit = digits :=
    Text.takeWhile_run hd (by simpa using (by decide : Text.isHexDigit '}' = false))
  have hb : braced Text.isHexDigit ('\x7b' :: (digits ++ '}' :: t)) = digits.length + 2 := by
    simp [braced, run, hrun]
  simp [outside, outerEscape, commonEscape, hb, hl]
  omega

end BaselineToken

open Builtin in
/-- The scan copies an escaped character as one piece, outside classes. -/
theorem reads_escapeChar (position : Nat) (context : Context) (c : Char) (rest : Text) :
    Reads position context .outsideClass (escapeChar c) rest (escapeChar c) .outsideClass
      context := by
  simp only [escapeChar, show "\\x\x7b".toList = ['\\', 'x', '\x7b'] from rfl]
  split
  · next hm =>
    have ha := not_alphanumeric_of_isMeta hm
    have hk : c ≠ 'k' := by rintro rfl; simp at ha
    refine .unit (firing?_eq_none_of_recognize fun b hb => recognize_of_escape hk hb) (by simp) ?_
    exact BaselineToken.outside_of_sign ha
  · next hm =>
    split
    · refine .unit (firing?_eq_none_of_recognize fun b hb => recognize_of_escape (by decide) hb)
        (by simp) ?_
      have hn : (Text.ofNatHex c.toNat).map Char.toUpper ≠ [] := by
        simpa using Text.ofNatHex_ne_nil c.toNat
      have hd : ∀ d ∈ (Text.ofNatHex c.toNat).map Char.toUpper, Text.isHexDigit d = true := by
        simp only [List.mem_map]
        rintro _ ⟨d, hd, rfl⟩
        exact Text.isHexDigit_of_mem_ofNatHex hd
      have hl := @BaselineToken.outside_of_number rest _ hn hd
      rw [BaselineToken.length_outsideClass, hl]
      simp
    · next hb =>
      have hl : ∀ l : Text, (∀ d ∈ l, isMeta d = true) → c ∉ l := fun l hl h => hm (hl c h)
      have hf : firing? (c :: rest) .outsideClass context = none :=
        firing?_eq_none_of_recognize fun b hs =>
        recognize_of_other (by simpa using hb) (hl _ (Text.forall_mem_of_all (by decide))) hs
      have hs : Scope.outsideClass.after c = .outsideClass := by
        have ho : c ≠ '[' := fun h => hl ['['] (Text.forall_mem_of_all (by decide)) (by simp [h])
        have hc : c ≠ ']' := fun h => hl [']'] (Text.forall_mem_of_all (by decide)) (by simp [h])
        simp [Scope.after, ho, hc]
      have hout : BaselineToken.outside (c :: rest) = 0 :=
        BaselineToken.outside_of_other (hl _ (Text.forall_mem_of_all (by decide)))
      have h := @Reads.char position context _ _ _ hf hout
      rwa [hs] at h

/-- A pattern that begins with a mode modifier `(?imnsx)`, which counts at the start of a pattern
only. -/
def BeginsWithModifier (v : Text) : Prop :=
  ∃ letters rest, letters ≠ [] ∧ (∀ c ∈ letters, Builtin.isModifier c = true) ∧
    v = ['(', '?'] ++ letters ++ [')'] ++ rest

theorem beginsWithModifier_iff {v : Text} :
    BeginsWithModifier v ↔ (Builtin.modifier.recognize v).isSome := by
  simp only [Option.isSome_iff_exists, Builtin.recognize, Builtin.recognizeRun_eq_some_iff
    (show Builtin.isModifier ')' = false from rfl)]
  constructor
  · rintro ⟨letters, rest, hn, hl, rfl⟩
    exact ⟨_, letters, rest, by simp, hn, hl, rfl⟩
  · rintro ⟨_, letters, rest, rfl, hn, hl, -⟩
    exact ⟨letters, rest, hn, hl, by simp⟩

instance (v : Text) :
    Decidable (BeginsWithModifier v) := decidable_of_iff _ beginsWithModifier_iff.symm

namespace Builtin

/-- Only the modifier rule asks where its token is, and only whether that is the start. -/
theorem handle_anywhere {b : Builtin} {pattern pattern' rest : Text} {p q : Nat} {scope : Scope}
    {r : Recognition} {context : Context} (h : b ≠ modifier ∨ 0 < p ∧ 0 < q) :
    b.handle (Token.ofRecognition pattern p rest scope r) context =
      b.handle (Token.ofRecognition pattern' q rest scope r) context := by
  cases b with
  | modifier =>
    obtain ⟨hp, hq⟩ := h.resolve_left (by simp)
    simp [handle, Token.ofRecognition, hp, hq]
  | _ => rfl

theorem lookup_anywhere {pattern pattern' rest : Text} {p q : Nat} {scope : Scope} {turn : Turn}
    (h : ¬BeginsWithModifier rest ∨ 0 < p ∧ 0 < q) :
    lookup pattern p rest scope turn = lookup pattern' q rest scope turn := by
  rw [lookup_eq, lookup_eq]
  cases hf : firing? rest scope turn.context with
  | none => rfl
  | some a =>
    obtain ⟨b, r⟩ := a
    have hb : b ≠ modifier ∨ 0 < p ∧ 0 < q := by
      refine h.imp_left ?_
      rintro hm rfl
      have hr := (firing?_eq_some_iff.1 hf).1
      simp only [recognizeIn] at hr
      split at hr
      · exact hm (beginsWithModifier_iff.2 (by simp [hr]))
      · exact absurd hr (by simp)
    simp only [@handle_anywhere b pattern pattern' rest p q scope r turn.context hb]

end Builtin

open ScanState

/-- Where the look-up answers alike, so does the round; only the offset after it is another one. -/
theorem step_congr {lookup : Lookup} {pattern pattern' rest : Text} {p q : Nat} {scope : Scope}
    {turn : Turn} (hl : lookup pattern p rest scope turn = lookup pattern' q rest scope turn) :
    (ScanState.mk q rest scope turn).step lookup pattern' =
      ((ScanState.mk p rest scope turn).step lookup pattern).map
        (Option.map fun a => (a.1, { a.2 with position := q + Text.bytes a.1.source })) := by
  cases rest with
  | nil => rfl
  | cons c r =>
    simp only [step, hl]
    rcases lookup pattern' q (c :: r) scope turn with ⟨_ | _ | hit, after⟩
    · rfl
    · simp only
      split <;> simp [Except.map, advance, Segment.verbatim]
    · rfl

/-- The scan of a text does not depend on where the text is, unless it begins with a mode
modifier. -/
theorem scan_anywhere {pattern pattern' rest : Text} {p q : Nat} {scope : Scope} {turn : Turn}
    (h : ¬BeginsWithModifier rest ∨ 0 < p ∧ 0 < q) :
    (ScanState.mk p rest scope turn).scan Builtin.lookup pattern =
      (ScanState.mk q rest scope turn).scan Builtin.lookup pattern' := by
  induction hn : rest.length using Nat.strongRecOn generalizing p q rest scope turn with
  | ind n ih =>
    have hq := step_congr (@Builtin.lookup_anywhere pattern pattern' rest p q scope turn h)
    cases hs : (ScanState.mk p rest scope turn).step Builtin.lookup pattern with
    | error e =>
      rw [scan_of_error hs, scan_of_error (hq.trans (by rw [hs]; rfl))]
    | ok o =>
      cases o with
      | none =>
        have hr : rest = [] := Decidable.byContradiction fun hr => step_ne_none hr hs
        rw [scan_nil hr, scan_nil hr]
      | some a =>
        obtain ⟨piece, t⟩ := a
        have ht := rest_of_step hs
        have hpos : 0 < Text.bytes piece.source := Text.bytes_pos_of_ne_nil ht.2.1
        have hlen : t.rest.length < n := hn ▸ length_of_step hs
        rw [hs] at hq
        rw [scan_of_step hs, scan_of_step hq]
        have hp : t.position = p + Text.bytes piece.source := ht.2.2.1
        have :=
          @ih t.rest.length hlen t.rest t.position (q + Text.bytes piece.source) t.scope t.turn
          (.inr ⟨by omega, by omega⟩) rfl
        rw [show t = ⟨t.position, t.rest, t.scope, t.turn⟩ from rfl, this]

/-- Escaped text is scanned to itself; the scan of what follows is that of the text standing
alone. -/
theorem scan_escapeLiteral_append {pattern v : Text} {turn : Turn}
    (hv : ¬BeginsWithModifier v) (t : Text)
    (position : Nat) : ∃ pieces, Segment.emitted pieces = escapeLiteral t ∧
      (ScanState.mk position (escapeLiteral t ++ v) .outsideClass turn).scan
        Builtin.lookup pattern =
        ((scan Builtin.lookup v turn).1.map (pieces ++ ·), (scan Builtin.lookup v turn).2) := by
  induction t generalizing position with
  | nil =>
    refine ⟨[], rfl, ?_⟩
    rw [← scan_start, start, escapeLiteral_nil, List.nil_append,
      @scan_anywhere pattern v v position 0 _ _ (.inl hv)]
    rcases (ScanState.mk 0 v .outsideClass turn).scan Builtin.lookup v with ⟨_ | _, _⟩ <;> rfl
  | cons c t ih =>
    obtain ⟨byRule, hs⟩ :=
      @Builtin.step_of_reads (escapeLiteral t ++ v) .outsideClass pattern _ _ _ turn _ _
      (reads_escapeChar position turn.context c (escapeLiteral t ++ v))
    obtain ⟨pieces, he, hp⟩ := ih (position + Text.bytes (escapeChar c))
    refine ⟨⟨escapeChar c, escapeChar c, byRule, .outsideClass⟩ :: pieces, ?_, ?_⟩
    · simpa [Segment.emitted] using he
    · rw [escapeLiteral_cons, List.append_assoc, scan_of_step hs, hp]
      rcases scan Builtin.lookup v turn with ⟨_ | _, _⟩ <;> simp [Except.map]

namespace Compiled

def prepend (head : Text) (c : Compiled) : Compiled := { c with rewritten := head ++ c.rewritten }

end Compiled

/-- Escaped text compiles to itself under all flags. In front of a pattern that does not begin with
a mode modifier it changes nothing about how that pattern is compiled: neither its text, nor its
flags and names, nor its error. -/
theorem compile_escapeLiteral_append (t v : Text) (flags : Flags) (hv : ¬BeginsWithModifier v) :
    Registry.builtin.compile (escapeLiteral t ++ v) flags =
        (Registry.builtin.compile v flags).map (Compiled.prepend (escapeLiteral t)) ∧
      Registry.builtin.compile (escapeLiteral t) flags = .ok ⟨escapeLiteral t, .start flags⟩ := by
  have append : ∀ v, ¬BeginsWithModifier v → Registry.builtin.compile (escapeLiteral t ++ v) flags =
      (Registry.builtin.compile v flags).map (Compiled.prepend (escapeLiteral t)) := by
    intro v hv
    obtain ⟨pieces, he, hs⟩ :=
      @scan_escapeLiteral_append (escapeLiteral t ++ v) v ⟨.start flags, false⟩ hv t 0
    rw [Registry.compile_builtin, Registry.compile_builtin, ← scan_start, start, hs]
    rcases scan Builtin.lookup v ⟨.start flags, false⟩ with ⟨_ | l, _⟩
    · rfl
    · simp [Except.map, Compiled.prepend, Segment.emitted, ← he]
  refine ⟨append v hv, ?_⟩
  have h := append [] (by decide)
  rw [List.append_nil] at h
  rw [h]
  simp [Registry.compile_builtin, scan, scanFrom, Except.map, Compiled.prepend, Segment.emitted]

/-- A dot, a blank and a parenthesis before a named group, with blanks and the dot made special by
the flags. -/
theorem compile_escaped_signs_before_named_group :
    ¬BeginsWithModifier "(?<n>x).".toList ∧
      Registry.builtin.compile (escapeLiteral ". (".toList ++ "(?<n>x).".toList)
        ⟨['s', 'x'], by decide⟩ =
        (Registry.builtin.compile "(?<n>x).".toList ⟨['s', 'x'], by decide⟩).map
          (Compiled.prepend (escapeLiteral ". (".toList)) ∧
      Registry.builtin.compile (escapeLiteral ". (".toList) ⟨['s', 'x'], by decide⟩ =
        .ok ⟨escapeLiteral ". (".toList, .start ⟨['s', 'x'], by decide⟩⟩ := by
  have h : ¬BeginsWithModifier "(?<n>x).".toList := by decide
  exact ⟨h, compile_escapeLiteral_append ". (".toList "(?<n>x).".toList ⟨['s', 'x'], by decide⟩ h⟩

end RegexDialect
