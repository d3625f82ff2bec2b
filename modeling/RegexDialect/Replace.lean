import RegexDialect.Escape
import RegexDialect.Template

/-! Replacing matches in a text. -/
namespace RegexDialect

/-- What to put in place of a match: a function of the match and its ordinal that may keep a
state. -/
structure Replacement (σ : Type) where
  render : σ → Match → (ordinal : Nat) → Text × σ

namespace Replacement

def template (t : Text) : Replacement Unit :=
  let parts := TemplatePart.parse t
  ⟨fun _ m _ => (parts.flatMap (TemplatePart.render m), ())⟩

def counted (f : Match → (ordinal : Nat) → Text) : Replacement Nat :=
  ⟨fun calls m n => (f m n, calls + 1)⟩

/-- The text from `last` on with each match replaced. An error ends the replacement. -/
def substitute {σ : Type} (r : Replacement σ) (text : Text) :
    (last ordinal : Nat) → List (Except Error Match) → σ → Except Error Text × σ
  | last, _, [], s => (.ok (Text.dropTo text last), s)
  | _, _, .error e :: _, s => (.error e, s)
  | last, ordinal, .ok m :: rest, s =>
    match r.render s m ordinal with
    | (piece, s) =>
      match substitute r text m.stop (ordinal + 1) rest s with
      | (.ok tail, s) => (.ok (Text.slice text ⟨last, m.start⟩ ++ piece ++ tail), s)
      | failed => failed

end Replacement

/-- Replaces the matches of a pattern, all of them or the first. Where `all` is not given, the flag
`g` decides. -/
def replace {σ : Type} (text : Text) (p : Pattern) (r : Replacement σ) (all : Option Bool) (s : σ) :
    Except Error Text × σ :=
  let results := if all.getD p.isGlobal then p.results text else (p.results text).take 1
  r.substitute text 0 0 results s

def literalPattern (engine : Baseline.Engine) (needle : Text) : Except Error Pattern :=
  Pattern.make engine (escapeLiteral needle) []

/-- Replaces a literal text, everywhere or, unless asked for, in the first place. -/
def replaceLiteral {σ : Type} (engine : Baseline.Engine) (text needle : Text) (r : Replacement σ)
    (all : Option Bool) (s : σ) : Except Error Text × σ :=
  match literalPattern engine needle with
  | .ok p => replace text p r (some (all.getD false)) s
  | .error e => (.error e, s)

end RegexDialect
