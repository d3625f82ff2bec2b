import RegexDialect.Proofs.LiteralReading
import RegexDialect.Proofs.MatchStart
import RegexDialect.Proofs.Precedence
import RegexDialect.Proofs.Patterns

/-! Tokens against matches of their recognizers. A recognizer is searched for inside a group that is
tied to the start of the text, and only the end of what is found is looked at. For a recognizer that
is a pattern by itself this is the match of that pattern by itself, and the token is the matched
text unless the recognizer moves the start of its match. A recognizer that closes the group and
opens another one is no pattern by itself, and its tokens are no matches of it. -/
namespace RegexDialect

namespace Baseline

section Anchored

variable {r text : Text} {own tied : Program} {groups : Groups}

namespace Program

section Places

variable {whole : Span} {i j : Option Nat}

end Places

end Program

/-- The pattern has a match in the text, from the start of the text to an offset. -/
def MatchesUpTo (r text : Text) (stop : Nat) : Prop :=
  ∃ m groups, engine.build r none = .ok m ∧ m.search text 0 = .ok (some (some ⟨0, stop⟩ :: groups))

theorem engine_build_iff {m : Matcher} :
    engine.build r none = .ok m ↔ ∃ p, Program.build r none = .ok p ∧ ⟨p.search⟩ = m := by
  rw [show engine.build r none = (Program.build r none).map fun p => ⟨p.search⟩ from rfl]
  cases Program.build r none <;> simp [Except.map]

end Anchored

end Baseline

open Baseline (engine Groups MatchesUpTo)

namespace Rule

variable {recognizer rest : Text} {handler : Token → Script} {here : Scope}
  {activation : Option Check} {rule : Rule}
  {found : Recognition}

/-- What a made rule finds comes from a match of the recognizer that is tied to the start of the
text. -/
theorem exists_of_make (hmake : make engine recognizer handler here activation = .ok rule)
    (h : rule.find rest = .ok (some found)) : ∃ tied whole groups,
      Baseline.Program.build (anchored recognizer) none = .ok tied ∧
      tied.search rest 0 = .ok (some (some whole :: groups)) ∧
      Recognition.ofGroups? rest (some whole :: groups) = some found := by
  rw [make] at hmake
  split at hmake
  · next m hm =>
    obtain ⟨tied, htied, rfl⟩ := Baseline.engine_build_iff.1 hm
    rw [← Except.ok.inj hmake, find] at h
    dsimp only [recognizerOf] at h
    rcases hsearch : tied.search rest 0 with fault | matched
    · simp [hsearch, Except.map] at h
    · simp only [hsearch, Except.map, Except.ok.injEq, Option.bind_eq_some_iff] at h
      obtain ⟨groups, rfl, hfound⟩ := h
      have hwhole := hfound
      simp only [Recognition.ofGroups?, Option.bind_eq_bind, Option.bind_eq_some_iff,
        Option.join_eq_some_iff] at hwhole
      obtain ⟨whole, hhead, -⟩ := hwhole
      obtain ⟨groups, rfl⟩ := List.head?_eq_some_iff.1 hhead
      exact ⟨tied, whole, groups, htied, hsearch, hfound⟩
  · exact absurd hmake (by simp)

/-- What a recognizer takes at the start of a text: a token of so many bytes with the texts of its
groups, from the match of the tied recognizer. The match is the one that the recognizer has by
itself, if it is a pattern by itself; and the token is that match if it starts where the token
does. -/
structure Takes (recognizer rest : Text) (consumed : Nat) (texts : List (Option Text))
    (whole : Span) (groups : Groups) : Prop where
  tied : ∃ m, engine.build (anchored recognizer) none = .ok m ∧ m.search rest 0 =
    .ok (some (some whole :: groups))
  stop : consumed = whole.stop
  texts : texts = (some whole :: groups).map fun g => g.map (Text.slice rest)
  own : ∀ m, engine.build recognizer none = .ok m →
    m.search rest 0 = .ok (some (some whole :: groups))
  start : ∀ m e n, engine.build recognizer none = .ok m →
    Baseline.Reader.read recognizer = .ok (e, n) → e.movesStart = false → whole.start = 0
  matches_iff : MatchesUpTo recognizer rest consumed ↔
    (∃ m, engine.build recognizer none = .ok m) ∧ whole.start = 0

end Rule

namespace Registry

variable {r : Registry} {before rest : Text} {scope : Scope} {turn : Turn} {hit : Hit}

end Registry

end RegexDialect
