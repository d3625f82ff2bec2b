import RegexDialect.Proofs.LiteralReading
import RegexDialect.Proofs.Patterns
import RegexDialect.Proofs.Places

/-! Replacing a literal text is replacing its occurrences from left to right. -/
namespace RegexDialect

open Baseline

theorem scans_escapeLiteral {pattern : Text} (t : Text) (position : Nat) (turn : Turn) :
    ∃ stop, Scans pattern ⟨position, escapeLiteral t, .outsideClass, turn⟩ (escapeLiteral t)
      ⟨stop, [], .outsideClass, turn⟩ := by
  induction t generalizing position with
  | nil => exact ⟨position, .nothing _ _⟩
  | cons c t ih =>
    obtain ⟨stop, hrest⟩ := ih (position + Text.bytes (escapeChar c))
    have hfirst := @Scans.of_reads pattern _ _ _ _ _ _ turn _
      (reads_escapeChar position turn.context c (escapeLiteral t))
    exact ⟨stop, hfirst.append hrest⟩

/-- The pattern for a literal text: the text escaped, no flags and no groups. -/
def Pattern.ofLiteral (needle : Text) (m : Matcher) : Pattern :=
  ⟨escapeLiteral needle, escapeLiteral needle, .empty, [], false, m⟩

theorem literalPattern_eq {engine : Engine} {needle : Text} {m : Matcher}
    (h : engine.build (escapeLiteral needle) none = .ok m) :
    literalPattern engine needle = .ok (.ofLiteral needle m) := by
  obtain ⟨stop, hscans⟩ :=
    @scans_escapeLiteral (escapeLiteral needle) needle 0 ⟨.start .empty, false⟩
  exact Pattern.make_of_compile rfl (Registry.compile_of_scans hscans rfl) h

theorem Text.slice_between (a b c : Text) : slice (a ++ b ++ c) ⟨bytes a, bytes (a ++ b)⟩ = b := by
  rw [slice, bytes_append, slice?_append]
  rfl

section Search

variable {m : Matcher} {needle before rest gap after : Text} {fuel : Nat}

theorem execAt_of_findsRow {p : Pattern} {multiline : Bool} {row : Row}
    (h : p.matcher.FindsRow multiline row)
    (hn : p.names = []) (hy : p.isSticky = false) (before rest : Text) :
    p.execAt (before ++ rest) (Text.bytes before) false =
      .ok ((row.cutAtFirst? multiline rest).map fun cut =>
        .ofLiteral before cut.1 row.chars cut.2) := by
  have hle : ¬Text.bytes (before ++ rest) < Text.bytes before := by simp
  have hboundary : Text.isBoundary (before ++ rest) (Text.bytes before) = true :=
    Text.isBoundary_iff.2 ⟨before, rest, rfl, rfl⟩
  simp only [Pattern.execAt, if_neg hle, hboundary, Pattern.search, h before rest, Except.map]
  cases hcut : row.cutAtFirst? multiline rest with
  | none => rfl
  | some cut =>
    have htext : before ++ rest = before ++ cut.1 ++ row.chars ++ cut.2 := by
      rw [Row.append_of_cutAtFirst? hcut]
      simp
    rw [htext]
    simp [Pattern.matchOf?, hy, hn, Match.ofLiteral]

theorem execAt_ofLiteral (h : m.SearchesFor needle) (before rest : Text) :
    (Pattern.ofLiteral needle m).execAt (before ++ rest) (Text.bytes before) false =
      .ok ((Text.cutAtFirst? needle rest).map fun cut => .ofLiteral before cut.1 needle cut.2) := by
  have hrow : (Pattern.ofLiteral needle m).matcher.FindsRow false (needle.map some) :=
    Matcher.findsRow_map_some.2 h
  rw [execAt_of_findsRow hrow rfl rfl, Row.cutAtFirst?_map_some, Row.chars_map_some]

namespace Matches

def ofLiteral (needle : Text) (m : Matcher) (before rest : Text) : Matches :=
  ⟨.ofLiteral needle m, before ++ rest, some (Text.bytes before)⟩

theorem take_of_none (h : m.SearchesFor needle) (hcut : Text.cutAtFirst? needle rest = none) :
    take fuel (ofLiteral needle m before rest) = [] := by
  cases fuel with
  | zero => rfl
  | succ fuel => simp only [take, next, ofLiteral, execAt_ofLiteral h, hcut, Option.map_none]

theorem take_of_some (h : m.SearchesFor needle)
    (hcut : Text.cutAtFirst? needle rest = some (gap, after)) :
    take (fuel + 1) (ofLiteral needle m before rest) =
      .ok (.ofLiteral before gap needle after) ::
        take fuel
          ⟨.ofLiteral needle m, before ++ rest,
            some (advance (.ofLiteral before gap needle after))⟩ := by
  simp only [take, next, ofLiteral, execAt_ofLiteral h, hcut, Option.map_some]

theorem take_of_end (p : Pattern) (text : Text) :
    take fuel ⟨p, text, some (Text.bytes text + 1)⟩ = [] := by
  have hend : p.execAt text (Text.bytes text + 1) false = .ok none := if_pos (Nat.lt_succ_self _)
  cases fuel with
  | zero => rfl
  | succ fuel => simp only [take, next, hend]

theorem advance_ofLiteral (hn : needle ≠ []) (before gap after : Text) :
    advance (.ofLiteral before gap needle after) = Text.bytes (before ++ gap ++ needle) := by
  have hpos := Text.bytes_pos_of_ne_nil hn
  have hempty : (Match.ofLiteral before gap needle after).isEmpty = false := by
    simp only [Match.isEmpty, Match.ofLiteral, Span.isEmpty, beq_eq_false_iff_ne, Text.bytes_append]
    omega
  rw [advance, hempty]
  rfl

theorem advance_ofLiteral_nil (before after : Text) :
    advance (.ofLiteral before [] [] after) =
      Text.stepFrom (before ++ after) (Text.bytes before) := by
  simp [advance, Match.ofLiteral, Match.isEmpty, Match.stop, Span.isEmpty]

end Matches

end Search

namespace Replacement

variable {σ : Type} {r : Replacement σ} {m : Matcher}
  {needle before held rest gap after piece tail text : Text}
  {last ordinal fuel : Nat} {s t u : σ}

theorem substitute_cons {found : Match} {others : List (Except Error Match)}
    (hr : r.render s found ordinal = (piece, t))
    (hrest : r.substitute text found.stop (ordinal + 1) others t = (.ok tail, u)) :
    r.substitute text last ordinal (.ok found :: others) s =
      (.ok (Text.slice text ⟨last, found.start⟩ ++ piece ++ tail), u) := by
  simp only [substitute, hr, hrest]

theorem slice_gap (before gap needle after : Text) :
    Text.slice (before ++ gap ++ needle ++ after)
      ⟨Text.bytes before, (Match.ofLiteral before gap needle after).start⟩ = gap := by
  rw [List.append_assoc _ needle]
  exact Text.slice_between before gap (needle ++ after)

/-- The occurrences of a needle behind the cursor are replaced one by one. -/
theorem substitute_everywhere (hn : needle ≠ []) (h : m.SearchesFor needle)
    (hf : rest.length < fuel) :
    r.substitute (before ++ rest) (Text.bytes before) ordinal
        (Matches.take fuel (.ofLiteral needle m before rest)) s =
      (.ok (r.everywhere needle before rest ordinal s).1,
        (r.everywhere needle before rest ordinal s).2) := by
  induction fuel generalizing before rest ordinal s with
  | zero => exact absurd hf (by omega)
  | succ fuel ih =>
    cases hcut : Text.cutAtFirst? needle rest with
    | none =>
      rw [Matches.take_of_none h hcut, everywhere_of_none hcut, substitute, Text.dropTo_append]
    | some cut =>
      obtain ⟨gap, after⟩ := cut
      rcases hr : r.render s (.ofLiteral before gap needle after) ordinal with ⟨piece, t⟩
      rw [Matches.take_of_some h hcut, everywhere_of_some hn hcut hr, Matches.advance_ofLiteral hn]
      obtain rfl := Text.append_of_cutAtFirst? hcut
      have hlength : after.length < fuel := by
        have := List.length_pos_iff.2 hn
        simp only [List.length_append] at hf
        omega
      have hwhole : before ++ (gap ++ needle ++ after) = before ++ gap ++ needle ++ after := by simp
      have hrest := @ih (before ++ gap ++ needle) after (ordinal + 1) t hlength
      rw [Matches.ofLiteral] at hrest
      rw [hwhole, substitute_cons hr hrest, slice_gap]

/-- An empty needle is found at every place. Between the last occurrence and the cursor there may be
a character, which the cursor has passed over. -/
theorem substitute_everywhere_nil (h : m.SearchesFor []) (hf : rest.length < fuel) :
    r.substitute (before ++ held ++ rest) (Text.bytes before) ordinal
        (Matches.take fuel (.ofLiteral [] m (before ++ held) rest)) s =
      (.ok (held ++ (r.everywhere [] (before ++ held) rest ordinal s).1),
        (r.everywhere [] (before ++ held) rest ordinal s).2) := by
  induction fuel generalizing before held rest ordinal s with
  | zero => exact absurd hf (by omega)
  | succ fuel ih =>
    rcases hr : r.render s (.ofLiteral (before ++ held) [] [] rest) ordinal with ⟨piece, t⟩
    rw [Matches.take_of_some h (Text.cutAtFirst?_nil rest), Matches.advance_ofLiteral_nil]
    have hstart : (Match.ofLiteral (before ++ held) [] [] rest).start =
        Text.bytes (before ++ held) := by
      simp [Match.start, Match.ofLiteral]
    have hstop : (Match.ofLiteral (before ++ held) [] [] rest).stop =
        Text.bytes (before ++ held) := by
      simp [Match.stop, Match.ofLiteral]
    have hheld := Text.slice_between before held rest
    rw [← hstart] at hheld
    cases rest with
    | nil =>
      have hend : r.substitute (before ++ held ++ []) (Text.bytes (before ++ held))
          (ordinal + 1) [] t = (.ok [], t) := by
        rw [substitute, Text.dropTo_append]
      rw [← hstop] at hend
      have hplace : Text.stepFrom (before ++ held ++ []) (Text.bytes (before ++ held)) =
          Text.bytes (before ++ held ++ []) + 1 := by
        rw [List.append_nil, Text.stepFrom_bytes]
      rw [everywhere_nil_end hr, hplace, Matches.take_of_end, substitute_cons hr hend, hheld,
        List.append_nil]
    | cons c rest =>
      have hrest := @ih (before ++ held) [c] rest (ordinal + 1) t (by simpa using hf)
      rw [← hstop, Matches.ofLiteral, List.append_assoc _ [c], List.singleton_append] at hrest
      rw [everywhere_nil_cons hr, Text.stepFrom_append_cons, substitute_cons hr hrest, hheld]
      simp

/-- Only the first occurrence is replaced where only one match is taken. -/
theorem substitute_once (h : m.SearchesFor needle) (hf : 0 < fuel) :
    r.substitute (before ++ rest) (Text.bytes before) ordinal
        ((Matches.take fuel (.ofLiteral needle m before rest)).take 1) s =
      (.ok (r.once needle before rest ordinal s).1, (r.once needle before rest ordinal s).2) := by
  obtain ⟨fuel, rfl⟩ : ∃ k, fuel = k + 1 := ⟨fuel - 1, by omega⟩
  rw [once]
  cases hcut : Text.cutAtFirst? needle rest with
  | none => rw [Matches.take_of_none h hcut, List.take_nil, substitute, Text.dropTo_append]
  | some cut =>
    obtain ⟨gap, after⟩ := cut
    rcases hr : r.render s (.ofLiteral before gap needle after) ordinal with ⟨piece, t⟩
    rw [Matches.take_of_some h hcut, List.take_succ_cons, List.take_zero]
    obtain rfl := Text.append_of_cutAtFirst? hcut
    have hwhole : before ++ (gap ++ needle ++ after) = before ++ gap ++ needle ++ after := by simp
    have hrest : r.substitute (before ++ gap ++ needle ++ after)
        (Match.ofLiteral before gap needle after).stop (ordinal + 1) [] t = (.ok after, t) := by
      rw [substitute, Match.stop, Match.ofLiteral, Text.dropTo_append]
    rw [hwhole, substitute_cons hr hrest, slice_gap]
    simp only [hr]

end Replacement

section Replace

variable {σ : Type} {engine : Engine} {needle : Text} {m : Matcher}

theorem replace_ofLiteral (h : m.SearchesFor needle) (text : Text) (r : Replacement σ)
    (all : Option Bool) (s : σ) :
    replace text (.ofLiteral needle m) r (some (all.getD false)) s =
      (.ok (r.literally needle text all s).1, (r.literally needle text all s).2) := by
  have hresults : (Pattern.ofLiteral needle m).results text =
      Matches.take (text.length + 2) (.ofLiteral needle m [] text) := rfl
  have honce : r.substitute text 0 0 (((Pattern.ofLiteral needle m).results text).take 1) s =
      (.ok (r.once needle [] text 0 s).1, (r.once needle [] text 0 s).2) := by
    rw [hresults]
    exact @Replacement.substitute_once _ r m needle [] text 0 _ s h (by omega)
  rcases all with _ | _ | _
  · exact honce
  · exact honce
  · have hall : replace text (.ofLiteral needle m) r (some true) s =
        r.substitute text 0 0 ((Pattern.ofLiteral needle m).results text) s := rfl
    refine hall.trans ?_
    rw [hresults]
    by_cases hn : needle = []
    · subst hn
      exact @Replacement.substitute_everywhere_nil _ r m [] [] text 0 _ s h (by omega)
    · exact @Replacement.substitute_everywhere _ r m needle [] text 0 _ s hn h (by omega)

theorem replaceLiteral_of_build (hb : engine.build (escapeLiteral needle) none = .ok m)
    (h : m.SearchesFor needle) (text : Text) (r : Replacement σ) (all : Option Bool) (s : σ) :
    replaceLiteral engine text needle r all s =
      (.ok (r.literally needle text all s).1, (r.literally needle text all s).2) := by
  simp only [replaceLiteral, literalPattern_eq hb]
  exact replace_ofLiteral h text r all s

theorem replaceLiteral_baseline (hn : needle.length ≤ Automaton.maxSize) (text : Text)
    (r : Replacement σ) (all : Option Bool) (s : σ) :
    replaceLiteral Baseline.engine text needle r all s =
      (.ok (r.literally needle text all s).1, (r.literally needle text all s).2) := by
  obtain ⟨m, hb, h⟩ := exists_build_of_spells (spells_escapeLiteral needle) hn
  exact replaceLiteral_of_build hb h text r all s

/-- Replacing a literal text is plain substring replacement. Of the engine only this is used: in
whatever way the characters of the needle are written, as signs behind a backslash, by their numbers
or as they are, it builds a matcher that finds the first place behind the start of a search where
the needle stands. -/
theorem replaceLiteral_eq_literally
    (h : ∀ written, Spells written needle →
      ∃ m, engine.build written none = .ok m ∧ m.SearchesFor needle)
    (text : Text) (r : Replacement σ) (all : Option Bool) (s : σ) :
    replaceLiteral engine text needle r all s =
      (.ok (r.literally needle text all s).1, (r.literally needle text all s).2) := by
  obtain ⟨m, hb, hm⟩ := h _ (spells_escapeLiteral needle)
  exact replaceLiteral_of_build hb hm text r all s

end Replace

theorem replaceLiteral_eq_literally_dot :
    (∀ written, Spells written ". ".toList →
      ∃ m, engine.build written none = .ok m ∧ m.SearchesFor ". ".toList) ∧
      replaceLiteral engine "a. .. b".toList ". ".toList (.template "<$&>".toList) (some true) () =
        (.ok "a<. >.<. >b".toList, ()) := by
  have h : ∀ written, Spells written ". ".toList → ∃ m, engine.build written none = .ok m ∧
      m.SearchesFor ". ".toList :=
    fun written hw => exists_build_of_spells hw (by decide)
  have hfirst : Text.cutAtFirst? ". ".toList "a. .. b".toList = some ("a".toList, ".. b".toList) :=
    rfl
  have hsecond : Text.cutAtFirst? ". ".toList ".. b".toList = some (".".toList, "b".toList) := rfl
  have hthird : Text.cutAtFirst? ". ".toList "b".toList = none := rfl
  refine ⟨h, ?_⟩
  rw [replaceLiteral_eq_literally h, Replacement.literally,
    Replacement.everywhere_of_some (by decide) hfirst rfl,
    Replacement.everywhere_of_some (by decide) hsecond rfl, Replacement.everywhere_of_none hthird]
  rfl

end RegexDialect
