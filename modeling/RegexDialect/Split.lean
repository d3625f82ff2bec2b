import RegexDialect.Match

/-! Splitting a text at the matches of a pattern. -/
namespace RegexDialect

namespace Split

/-- What the matches give: the items so far, where the last delimiter ended and how long it was. -/
structure Cuts where
  items : List Text
  lastEnd : Nat
  lastLength : Nat
deriving DecidableEq, Repr

/-- The items of one delimiter: the text since the one before it, then its groups, absent ones
empty. A delimiter at the end of the text has no groups. -/
def itemsOf (text : Text) (lastEnd : Nat) (m : Match) : List Text :=
  Text.slice text ⟨lastEnd, m.start⟩ ::
    if m.start < Text.bytes text then (List.range m.groups.length).map fun n =>
      (m.group (n + 1)).getD [] else []

/-- Goes through the matches, `count` items having been given before. A match that does not get past
the last delimiter is passed over; once there are `limit` items the rest does not matter. -/
def cuts (text : Text) (limit : Option Nat) :
    (count lastEnd lastLength : Nat) → List (Except Error Match) → Except Error Cuts
  | _, lastEnd, lastLength, [] => .ok ⟨[], lastEnd, lastLength⟩
  | _, _, _, .error e :: _ => .error e
  | count, lastEnd, lastLength, .ok m :: rest =>
    if m.stop ≤ lastEnd then cuts text limit count lastEnd lastLength rest
    else
      let items := itemsOf text lastEnd m
      let count := count + items.length
      if limit.any (· ≤ count) then .ok ⟨items, m.stop, Text.bytes m.matched⟩
      else do
        let c ← cuts text limit count m.stop (Text.bytes m.matched) rest
        .ok { c with items := items ++ c.items }

/-- The item after the last delimiter. At the end of the text there is one, empty, if that delimiter
was not empty or the pattern does not match the empty text. -/
def tailItem (text : Text) (p : Pattern) (c : Cuts) : Except Error (List Text) :=
  if c.lastEnd == Text.bytes text then
    if 0 < c.lastLength then .ok [[]] else p.matchesEmpty.map fun e => if e then [] else [[]]
  else .ok [Text.dropTo text c.lastEnd]

end Split

/-- Splits a text at the matches of a pattern, with the texts of groups between the pieces. At most
`limit` items are given. -/
def split (text : Text) (p : Pattern) (limit : Option Nat) : Except Error (List Text) :=
  if limit == some 0 then .ok []
  else do
    let c ← Split.cuts text limit 0 0 0 (p.results text)
    let tail ← Split.tailItem text p c
    let items := c.items ++ tail
    .ok (match limit with
      | some n => items.take n
      | none => items)

end RegexDialect
