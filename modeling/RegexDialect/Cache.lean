import RegexDialect.Pattern

/-! A bounded store of compiled patterns. Entries are found by the source and flags as they were
written, and carry a number that tells one compilation from another. -/
namespace RegexDialect

/-- A stored pattern; every compilation has a number of its own. -/
structure CacheEntry where
  number : Nat
  pattern : Pattern

structure Cache where
  entries : List ((Text × Text) × CacheEntry)
  issued : Nat

namespace Cache

/-- Entries kept before the store starts over. -/
def limit : Nat := 256

def empty : Cache := ⟨[], 0⟩

def size (c : Cache) : Nat := c.entries.length

def find? (c : Cache) (source flags : Text) : Option CacheEntry :=
  (c.entries.find? fun e => e.1 == (source, flags)).map Prod.snd

/-- Stores a pattern, unless there is one for its source and flags already; a full store is emptied
before. -/
def insert (c : Cache) (source flags : Text) (p : Pattern) : CacheEntry × Cache :=
  match c.find? source flags with
  | some e => (e, c)
  | none =>
    let e : CacheEntry := ⟨c.issued, p⟩
    let kept := if limit ≤ c.size then [] else c.entries
    (e, ⟨((source, flags), e) :: kept, c.issued + 1⟩)

/-- The pattern for a source and flags: the stored one, or a new one, which is then stored. Failures
leave the store as it is. -/
def get (engine : Baseline.Engine) (c : Cache) (source flags : Text) :
    Except Error CacheEntry × Cache :=
  match c.find? source flags with
  | some e => (.ok e, c)
  | none =>
    match Pattern.make engine source flags with
    | .ok p =>
      match c.insert source flags p with
      | (e, c) => (.ok e, c)
    | .error e => (.error e, c)

end Cache
end RegexDialect
