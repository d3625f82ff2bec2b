import RegexDialect.Unicode.Binary
import RegexDialect.Unicode.Letters

/-! Named character properties: general categories, scripts and binary properties, looked up by name
in the loose way in which case, blanks, hyphens, underscores and a leading `is` do not count. -/
namespace RegexDialect.Unicode

inductive Property
  | all
  | ascii
  | assigned
  | categories (list : List Category)
  | ranges (list : List CodeRange)
  | alphabetic
  | lowercase
  | uppercase
  | cased
  | blank
  | identifierStart
  | identifierContinue
  | stableStart
  | stableContinue
deriving DecidableEq, Repr

namespace Property

def holds : Property → Char → Bool
  | all, _ => true
  | ascii, c => c.toNat < 128
  | assigned, c => category c != .cn
  | categories list, c => list.contains (category c)
  | ranges list, c => inRanges list c.toNat
  | alphabetic, c => isAlphabetic c
  | lowercase, c => isLowercase c
  | uppercase, c => isUppercase c
  | cased, c => isCased c
  | blank, c => isBlank c
  | identifierStart, c => isIdentifierStart c
  | identifierContinue, c => isIdentifierContinue c
  | stableStart, c => isStableStart c
  | stableContinue, c => isStableContinue c

open Category in
/-- Codes, long names and members of the general categories. -/
def categoryNames : List (List String × List Category) := [
  (["lu", "uppercaseletter"], [lu]), (["ll", "lowercaseletter"], [ll]),
  (["lt", "titlecaseletter"], [lt]), (["lm", "modifierletter"], [lm]),
  (["lo", "otherletter"], [lo]), (["lc", "casedletter"], [lu, ll, lt]),
  (["l", "letter"], [lu, ll, lt, lm, lo]), (["mn", "nonspacingmark"], [mn]),
  (["mc", "spacingmark"], [mc]), (["me", "enclosingmark"], [me]),
  (["m", "mark", "combiningmark"], [mn, mc, me]), (["nd", "decimalnumber", "digit"], [nd]),
  (["nl", "letternumber"], [nl]), (["no", "othernumber"], [no]), (["n", "number"], [nd, nl, no]),
  (["pc", "connectorpunctuation"], [pc]), (["pd", "dashpunctuation"], [pd]),
  (["ps", "openpunctuation"], [ps]), (["pe", "closepunctuation"], [pe]),
  (["pi", "initialpunctuation"], [pi]), (["pf", "finalpunctuation"], [pf]),
  (["po", "otherpunctuation"], [po]), (["p", "punctuation", "punct"], [pc, pd, ps, pe, pi, pf, po]),
  (["sm", "mathsymbol"], [sm]), (["sc", "currencysymbol"], [sc]), (["sk", "modifiersymbol"], [sk]),
  (["so", "othersymbol"], [so]), (["s", "symbol"], [sm, sc, sk, so]),
  (["zs", "spaceseparator"], [zs]), (["zl", "lineseparator"], [zl]),
  (["zp", "paragraphseparator"], [zp]), (["z", "separator"], [zs, zl, zp]),
  (["cc", "control", "cntrl"], [cc]), (["cf", "format"], [cf]), (["co", "privateuse"], [co]),
  (["cn", "unassigned"], [cn]), (["c", "other"], [cc, cf, cs, co, cn])]

/-- Names of the binary properties that are not tabulated. -/
def binaryNames : List (List String × Property) := [
  (["alphabetic", "alpha"], alphabetic), (["lowercase", "lower"], lowercase),
  (["uppercase", "upper"], uppercase), (["whitespace", "wspace", "space"], blank),
  (["asciihexdigit", "ahex"], ranges [(0x30, 0x39), (0x41, 0x46), (0x61, 0x66)]),
  (["hexdigit", "hex"],
    ranges [(0x30, 0x39), (0x41, 0x46), (0x61, 0x66), (0xFF10, 0xFF19), (0xFF21, 0xFF26),
      (0xFF41, 0xFF46)]),
  (["joincontrol", "joinc"], ranges [(0x200C, 0x200D)]), (["cased"], cased),
  (["idstart", "ids"], identifierStart), (["idcontinue", "idc"], identifierContinue),
  (["xidstart", "xids"], stableStart), (["xidcontinue", "xidc"], stableContinue)]

def generalNames : List (List String × Property) :=
  [(["any"], all), (["ascii"], ascii), (["assigned"], assigned)]

def normalise (name : List Char) : List Char :=
  let strip (t : List Char) :=
    (t.filter fun c => c != ' ' && c != '_' && c != '-' && c.toNat < 128).map Char.toLower
  match name with
  | a :: b :: r =>
    if a.toLower == 'i' && b.toLower == 's' then
      let rest := strip r
      if rest == ['c'] then ['i', 's', 'c'] else rest
    else strip name
  | _ => strip name

def named? {α : Type} (table : List (List String × α)) (name : List Char) : Option α :=
  (table.find? fun e => e.1.any fun s => s.toList == name).map Prod.snd

/-- The general category, or all, ASCII or assigned characters, by a normalised name. -/
def category? (name : List Char) : Option Property :=
  (named? generalNames name).orElse fun _ => (named? categoryNames name).map categories

def find? (text : List Char) : Option Property :=
  let isSign (c : Char) := c == '=' || c == ':'
  match text.dropWhile fun c => !isSign c with
  | [] =>
    let name := normalise text
    (named? binaryNames name).orElse fun _ =>
      ((binaryRanges? name).map ranges).orElse fun _ =>
        (category? name).orElse fun _ => (scriptRanges? name).map ranges
  | _ :: value =>
    let key := normalise (text.takeWhile fun c => !isSign c)
    let name := normalise value
    if key == "gc".toList || key == "generalcategory".toList then category? name
    else if key == "sc".toList || key == "script".toList then (scriptRanges? name).map ranges
    else none

end Property
end RegexDialect.Unicode
