import RegexDialect.Flags

/-! The state of one compilation: where the scan is, which flags are in effect, which groups were
opened. -/
namespace RegexDialect

/-- Where a rule may fire: inside character classes, outside them, in both places or nowhere. -/
structure Scope where
  inside : Bool
  outside : Bool
deriving DecidableEq, Repr

namespace Scope

def insideClass : Scope := ⟨true, false⟩

def outsideClass : Scope := ⟨false, true⟩

def everywhere : Scope := ⟨true, true⟩

def nowhere : Scope := ⟨false, false⟩

def meets (a b : Scope) : Bool := a.inside && b.inside || a.outside && b.outside

end Scope

/-- Flags in effect and names of the capturing groups opened so far, `none` for unnamed ones. -/
structure Context where
  flags : Flags
  names : List (Option Text)
  named : Bool
deriving DecidableEq

namespace Context

def start (flags : Flags) : Context := ⟨flags, [], false⟩

def hasFlag (c : Context) (flag : Char) : Bool := c.flags.has flag

def count (c : Context) : Nat := c.names.length

/-- Turns on flags from left to right; after a bad one, those before it stay on. -/
def setFlags (c : Context) (letters : Text) : Except Error Unit × Context :=
  match c.flags.insertAll letters with
  | (r, f) => (r, { c with flags := f })

def push (c : Context) (name : Option Text) : Context :=
  { c with names := c.names ++ [name], named := c.named || name.isSome }

/-- The context that starts with the given flags and holds groups with the given names. -/
def holding (flags : Flags) (names : List (Option Text)) : Context := names.foldl push (start flags)

def index? (c : Context) (name : Text) : Option Nat := c.names.findIdx? (· == some name)

end Context
end RegexDialect
