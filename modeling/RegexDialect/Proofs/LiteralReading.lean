import RegexDialect.Proofs.EscapedText
import RegexDialect.Proofs.RowSearch
import RegexDialect.Proofs.Reading

/-! Literal texts and rows as patterns: how their characters may be written outside of classes, how
the engine reads them, and that it searches for the first place where they stand. -/
namespace RegexDialect

namespace Text

theorem hexValue_append (a : Text) (d : Char) :
    hexValue (a ++ [d]) = 16 * hexValue a + hexDigitValue d := by
  simp [hexValue]

theorem hexValue_ofNatHex (n : Nat) : hexValue ((ofNatHex n).map Char.toUpper) = n := by
  have digit : ∀ d < 16, hexDigitValue (Nat.digitChar d).toUpper = d := by decide
  induction n using Nat.strongRecOn with
  | ind n ih =>
    by_cases hn : n < 16
    · rw [ofNatHex, Nat.toDigits_of_lt_base hn, List.map_singleton]
      simpa [hexValue] using digit n hn
    · have hrest := ih (n / 16) (by omega)
      rw [ofNatHex] at hrest
      rw [ofNatHex, Nat.toDigits_of_base_le (by decide) (by omega), List.map_append,
        List.map_singleton, hexValue_append, hrest, digit (n % 16) (by omega)]
      omega

theorem upTo_append (a b : Text) : upTo (a ++ b) (bytes a) = a := by
  have h := slice?_append [] a b
  simp only [List.nil_append, bytes_nil, Nat.zero_add] at h
  rw [upTo, slice, h]
  rfl

end Text

/-- How a single character may be written outside of classes: with a backslash before a sign, by its
number, or as it is where it is neither a sign nor a blank. -/
inductive SpellsChar : (written : Text) → Char → Prop
  | sign {c : Char} (h : isMeta c = true) : SpellsChar ['\\', c] c
  | number {c : Char} {digits : Text} (hn : digits ≠ []) (hl : digits.length ≤ 8)
      (hd : ∀ d ∈ digits, Text.isHexDigit d = true) (hv : Text.hexValue digits = c.toNat) :
    SpellsChar (['\\', 'x', '\x7b'] ++ digits ++ ['}']) c
  | bare {c : Char} (hm : isMeta c = false) (hb : Unicode.isBlank c = false) : SpellsChar [c] c

inductive Spells : (written : Text) → (literal : Text) → Prop
  | nil : Spells [] []
  | cons {w p t : Text} {c : Char} (hc : SpellsChar w c) (h : Spells p t) : Spells (w ++ p) (c :: t)

theorem spellsChar_escapeChar (c : Char) : SpellsChar (escapeChar c) c := by
  rw [escapeChar]
  split
  · next hm => exact .sign hm
  split
  · refine .number (by simpa using Text.ofNatHex_ne_nil c.toNat) ?_ ?_
      (Text.hexValue_ofNatHex c.toNat)
    · rw [List.length_map]
      exact (Nat.length_toDigits_le_iff (by decide) (by decide)).2
        (Nat.lt_of_lt_of_le c.val.toNat_lt (by decide))
    · intro d hd
      obtain ⟨e, he, rfl⟩ := List.mem_map.1 hd
      exact Text.isHexDigit_of_mem_ofNatHex he
  · next hm hb => exact .bare (by simpa using hm) (by simpa using hb)

theorem spells_escapeLiteral (t : Text) : Spells (escapeLiteral t) t := by
  induction t with
  | nil => exact .nil
  | cons c t ih => exact .cons (spellsChar_escapeChar c) ih

namespace SpellsChar

variable {w : Text} {c : Char}

theorem exists_cons (h : SpellsChar w c) : ∃ d u, w = d :: u ∧ (d = '\\' ∨ isMeta d = false) := by
  cases h with
  | sign => exact ⟨_, _, rfl, .inl rfl⟩
  | number => exact ⟨_, _, rfl, .inl rfl⟩
  | bare hm => exact ⟨_, _, rfl, .inr hm⟩

end SpellsChar

/-- How a row may be written: its characters one after the other, and a dollar sign for an end. -/
inductive SpellsRow : (written : Text) → Row → Prop
  | nil : SpellsRow [] []
  | char {w p : Text} {c : Char} {row : Row} (hc : SpellsChar w c) (h : SpellsRow p row) :
    SpellsRow (w ++ p) (some c :: row)
  | sign {p : Text} {row : Row} (h : SpellsRow p row) : SpellsRow ('$' :: p) (none :: row)

theorem Spells.row {p t : Text} (h : Spells p t) : SpellsRow p (t.map some) := by
  induction h with
  | nil => exact .nil
  | cons hc _ ih => exact .char hc ih

namespace Baseline

def Notes.lines (multiline : Bool) : Notes :=
  { Notes.start with mode := { Mode.plain with multiline := multiline } }

namespace Reader

variable {w p : Text} {c : Char} {row : Row} {multiline : Bool} {size fuel depth : Nat}
  {done : List Expr}

theorem ne_of_isMeta {c d : Char} (hd : d ∈ metaCharacters) (h : c = '\\' ∨ isMeta c = false)
    (hb : d ≠ '\\') :
    c ≠ d := by
  rintro rfl
  rcases h with h | h
  · exact hb h
  · simp [isMeta, hd] at h

/-- Between the parts of a row there is nothing to skip and no quantifier. -/
theorem skipIn_of_spellsRow (h : SpellsRow p row) :
    skipIn (.lines multiline) p = .ok p ∧ quantifier? (.lines multiline) p = none := by
  cases h with
  | nil => exact ⟨rfl, rfl⟩
  | sign => exact ⟨skip_between (by simp), rfl⟩
  | char hc _ =>
    obtain ⟨d, u, rfl, hd⟩ := hc.exists_cons
    have hne : ∀ e ∈ metaCharacters, e ≠ '\\' → d ≠ e := fun e he hb => ne_of_isMeta he hd hb
    constructor
    · refine skip_between ?_
      rintro r hr
      exact hne '(' (by decide) (by decide) (List.cons.inj hr).1
    · have h₁ := hne '?' (by decide) (by decide)
      have h₂ := hne '*' (by decide) (by decide)
      have h₃ := hne '+' (by decide) (by decide)
      have h₄ := hne '\x7b' (by decide) (by decide)
      simp [quantifier?, h₁, h₂, h₃, h₄]

theorem escape_sign (h : isMeta c = true) (p : Text) :
    escape size (c :: p) (.lines multiline) = .ok (.atom (.char c false), p, .lines multiline) := by
  have hmem : c ∈ metaCharacters := by simpa [isMeta] using h
  simp only [metaCharacters, List.mem_cons, List.not_mem_nil, or_false] at hmem
  rcases hmem with rfl | rfl | rfl | rfl | rfl | rfl | rfl | rfl | rfl | rfl | rfl | rfl | rfl | rfl
    | rfl | rfl |
    rfl <;> rfl

theorem hexEscape_number {digits : Text} (hn : digits ≠ []) (hl : digits.length ≤ 8)
    (hd : ∀ d ∈ digits, Text.isHexDigit d = true) (hv : Text.hexValue digits = c.toNat) (p : Text) :
    hexEscape 2 ('\x7b' :: (digits ++ '}' :: p)) = .ok (c, p) := by
  have hrun : (digits ++ '}' :: p).takeWhile Text.isHexDigit = digits :=
    Text.takeWhile_run hd (by simp [show Text.isHexDigit '}' = false by decide])
  have hcode : characterOf c.toNat = .ok c := by
    have hvalid : c.toNat.isValidChar := c.valid
    rw [characterOf, if_pos hvalid, Char.ofNat_toNat]
  have hlength : ¬8 < digits.length := by omega
  simp [hexEscape, hrun, hn, hv, hcode, hlength, show Text.isHexDigit '\x7b' = false by decide,
    bind, Except.bind]

theorem escape_number {t : Text} (h : hexEscape 2 t = .ok (c, p)) :
    escape size ('x' :: t) (.lines multiline) =
      .ok (.atom (.char c false), p, .lines multiline) := by
  have hescape : escape size ('x' :: t) (.lines multiline) =
      (hexEscape 2 t >>= fun a => Except.ok (.atom (.char a.1 false), a.2, .lines multiline)) := rfl
  rw [hescape, h]
  rfl

def charExpr (c : Char) : Expr := .atom (.char c false)

def partExpr (multiline : Bool) : Option Char → Expr
  | some c => charExpr c
  | none => .anchor (Automaton.endAnchor multiline)

theorem unit_of_spellsChar (hc : SpellsChar w c)
    (hp : skipIn (.lines multiline) (w ++ p) = .ok (w ++ p)) :
    unit size (fuel + 1) depth (w ++ p) (.lines multiline) =
      .ok (charExpr c, p, .lines multiline) := by
  rw [unit, hp]
  cases hc with
  | sign h => exact escape_sign h p
  | @number _ digits hn hl hd hv =>
    have htext : ['\\', 'x', '\x7b'] ++ digits ++ ['}'] ++ p =
        '\\' :: 'x' :: '\x7b' :: (digits ++ '}' :: p) := by
      simp
    rw [htext]
    exact @escape_number p c multiline size _ (hexEscape_number hn hl hd hv p)
  | bare hm hb =>
    have hne : ∀ e ∈ metaCharacters, c ≠ e := by
      rintro e he rfl
      simp [isMeta, he] at hm
    have h₁ := hne '.' (by decide)
    have h₂ := hne '^' (by decide)
    have h₃ := hne '$' (by decide)
    have h₄ := hne '(' (by decide)
    have h₅ := hne '\\' (by decide)
    have h₆ := hne '[' (by decide)
    have h₇ := hne '+' (by decide)
    have h₈ := hne '*' (by decide)
    have h₉ := hne '?' (by decide)
    have h₁₀ := hne '|' (by decide)
    have h₁₁ := hne ')' (by decide)
    simp [bind, Except.bind, *]
    rfl

theorem unit_of_sign (hp : skipIn (.lines multiline) ('$' :: p) = .ok ('$' :: p)) :
    unit size (fuel + 1) depth ('$' :: p) (.lines multiline) =
      .ok (partExpr multiline none, p, .lines multiline) := by
  rw [unit, hp]
  rfl

theorem piece_of_unit {t : Text} {n : Notes} {e : Expr} (hp : SpellsRow p row)
    (h : unit size (fuel + 1) depth t n = .ok (e, p, .lines multiline)) :
    piece size (fuel + 2) depth t n = .ok (e, p, .lines multiline) := by
  obtain ⟨hskip, hquantifier⟩ := @skipIn_of_spellsRow p row multiline hp
  rw [piece, h]
  simp only [bind, Except.bind, hskip, hquantifier]

theorem branch_of_piece {t : Text} {n : Notes} {e : Expr} (hlength : p.length < t.length)
    (h : piece size (fuel + 2) depth t n = .ok (e, p, .lines multiline)) :
    branch size (fuel + 3) depth t n done =
      branch size (fuel + 2) depth p (.lines multiline)
        (if e.isEmpty then done else e :: done) := by
  have hne : (p.length == t.length) = false := by simp; omega
  have ht : t.isEmpty = false := by
    cases t with
    | nil => simp at hlength
    | cons => rfl
  rw [branch, ht, h]
  simp only [bind, Except.bind, hne]
  rfl

/-- What is written for a row is read as its parts in a row. -/
theorem branch_of_spellsRow (h : SpellsRow p row) (hf : row.length + 3 ≤ fuel) :
    branch size fuel depth p (.lines multiline) done =
      .ok (.ofParts (done.reverse ++ row.map (partExpr multiline)), [], .lines multiline) := by
  induction h generalizing fuel done with
  | nil =>
    obtain ⟨fuel, rfl⟩ : ∃ k, fuel = k + 1 := ⟨fuel - 1, by omega⟩
    simp [branch]
  | @char w p c row hc hp ih =>
    obtain ⟨fuel, rfl⟩ : ∃ k, fuel = k + 3 := ⟨fuel - 3, by omega⟩
    obtain ⟨hskip, -⟩ := @skipIn_of_spellsRow _ _ multiline (.char hc hp)
    have hlength : p.length < (w ++ p).length := by
      obtain ⟨d, u, rfl, -⟩ := hc.exists_cons
      simp only [List.length_append, List.length_cons]
      omega
    rw [branch_of_piece hlength (piece_of_unit hp (unit_of_spellsChar hc hskip))]
    have hrest := @ih (fuel + 2) (charExpr c :: done) (by simp only [List.length_cons] at hf; omega)
    simpa [charExpr, partExpr, Expr.isEmpty] using hrest
  | @sign p row hp ih =>
    obtain ⟨fuel, rfl⟩ : ∃ k, fuel = k + 3 := ⟨fuel - 3, by omega⟩
    obtain ⟨hskip, -⟩ := @skipIn_of_spellsRow _ _ multiline (.sign hp)
    rw [branch_of_piece (by simp) (piece_of_unit hp (unit_of_sign hskip))]
    have hrest :=
      @ih (fuel + 2) (partExpr multiline none :: done)
        (by simp only [List.length_cons] at hf; omega)
    simpa [partExpr, Expr.isEmpty] using hrest

theorem flags_multiline (p : Text) :
    flags (p.length + 3) 0 false ('m' :: ')' :: p) .start = .ok (.group, p, .lines true) := by
  have hletter : skipIn .start ('m' :: ')' :: p) = .ok ('m' :: ')' :: p) := rfl
  have hclosing : skipIn (.lines true) (')' :: p) = .ok (')' :: p) := rfl
  have hend : flags (p.length + 2) 1 false (')' :: p) (.lines true) =
      .ok (.group, p, .lines true) := by
    rw [flags, hclosing]
    simp [bind, Except.bind]
  rw [flags, hletter]
  simp only [bind, Except.bind, Nat.sub_self, Bool.not_false]
  exact hend

theorem unit_multiline (p : Text) :
    unit size (fuel + 2) 0 (['(', '?', 'm', ')'] ++ p) .start = .ok (.empty, p, .lines true) := by
  have hopening : groupOpening size (fuel + 1) 1 ('?' :: 'm' :: ')' :: p) .start =
      .ok (.empty, p, .lines true) := by
    have hskip : skipIn .start ('?' :: 'm' :: ')' :: p) = .ok ('?' :: 'm' :: ')' :: p) := rfl
    rw [groupOpening, hskip]
    simp [bind, Except.bind, flags_multiline]
  have hskip : skipIn .start (['(', '?', 'm', ')'] ++ p) = .ok ('(' :: '?' :: 'm' :: ')' :: p) :=
    rfl
  rw [unit, hskip]
  exact hopening

theorem length_le_of_spellsRow (h : SpellsRow p row) : row.length ≤ p.length := by
  induction h with
  | nil => simp
  | char hc _ ih =>
    obtain ⟨d, u, rfl, -⟩ := hc.exists_cons
    simp only [List.length_append, List.length_cons]
    omega
  | sign _ ih => simpa using ih

def modifierOf (multiline : Bool) : Text := if multiline then ['(', '?', 'm', ')'] else []

theorem branch_of_modifier (h : SpellsRow p row) (hf : row.length + 3 ≤ fuel) :
    branch size (fuel + 4) 0 (modifierOf multiline ++ p) .start [] =
      .ok (.ofParts (row.map (partExpr multiline)), [], .lines multiline) := by
  cases multiline with
  | false => exact @branch_of_spellsRow _ _ _ _ _ _ [] h (by omega)
  | true =>
    rw [modifierOf, if_pos rfl, branch_of_piece (by simp; omega)
      (piece_of_unit h (unit_multiline p))]
    exact @branch_of_spellsRow _ _ _ _ _ _ [] h (by omega)

theorem read_of_spellsRow (multiline : Bool) (h : SpellsRow p row) :
    read (modifierOf multiline ++ p) =
      .ok (.ofParts (row.map (partExpr multiline)), .lines multiline) := by
  have hlength := length_le_of_spellsRow h
  have hwhole : p.length ≤ (modifierOf multiline ++ p).length := by simp
  obtain ⟨fuel, hfuel⟩ : ∃ k, 8 * (modifierOf multiline ++ p).length + 15 = k + 4 := ⟨_, rfl⟩
  have hbranch :=
    @branch_of_modifier p row multiline (Text.bytes (modifierOf multiline ++ p)) fuel h (by omega)
  rw [read, alternatives, hfuel, hbranch]
  simp [bind, Except.bind, moreBranches, skipIn, skip, Notes.lines, Notes.start]

end Reader

/-- What a search for a row does from a place: it finds the first place behind where the row stands,
and there are no groups. -/
def Matcher.FindsRow (m : Matcher) (multiline : Bool) (row : Row) : Prop :=
  ∀ before rest, m.search (before ++ rest) (Text.bytes before) =
    .ok ((row.cutAtFirst? multiline rest).map fun cut =>
      [some ⟨Text.bytes (before ++ cut.1), Text.bytes (before ++ cut.1 ++ row.chars)⟩])

/-- What a literal search does from a place: it finds the first occurrence behind the place, and
there are no groups. -/
def Matcher.SearchesFor (m : Matcher) (needle : Text) : Prop :=
  ∀ before rest, m.search (before ++ rest) (Text.bytes before) =
    .ok ((Text.cutAtFirst? needle rest).map fun cut =>
      [some ⟨Text.bytes (before ++ cut.1), Text.bytes (before ++ cut.1 ++ needle)⟩])

theorem Matcher.findsRow_map_some {m : Matcher} {multiline : Bool} {needle : Text} :
    m.FindsRow multiline (needle.map some) ↔ m.SearchesFor needle := by
  simp only [FindsRow, SearchesFor, Row.cutAtFirst?_map_some, Row.chars_map_some]

open Reader

def rowExpr (multiline : Bool) (row : Row) : Expr := .ofParts (row.map (partExpr multiline))

section Passes

variable (multiline : Bool) (row : Row)

/-- A property of rows holds of their expressions when it holds of the expressions for one part, for
parts in a row and for none. -/
theorem rowExpr_cases {p : Row → Expr → Prop} (nil : p [] .empty)
    (single : ∀ part, p [part] (partExpr multiline part))
    (parts : ∀ row, p row (.sequence (row.map (partExpr multiline)))) :
      p row (rowExpr multiline row) := by
  match row with
  | [] => exact nil
  | [part] => exact single part
  | part :: next :: row => exact parts (part :: next :: row)

theorem size_rowExpr : Automaton.size (rowExpr multiline row) = row.length := by
  refine rowExpr_cases (p := fun row e => Automaton.size e = row.length) multiline row rfl
    (fun part => by cases part <;> rfl) fun row => ?_
  rw [Automaton.size]
  induction row with
  | nil => rfl
  | cons part row ih =>
    rw [List.map_cons, Automaton.sizeOfParts, ih, List.length_cons, Nat.add_comm]
    cases part <;> rfl

theorem code_rowExpr (base : Nat) :
    Automaton.code base (rowExpr multiline row) = row.map (Automaton.insnOf multiline) := by
  refine rowExpr_cases
    (p := fun row e => Automaton.code base e = row.map (Automaton.insnOf multiline)) multiline row
    rfl (fun part => by cases part <;> rfl) fun row => ?_
  rw [Automaton.code]
  induction row generalizing base with
  | nil => rfl
  | cons part row ih => cases part <;> exact congrArg (_ :: ·) (ih (base + 1))

theorem checkBounds_rowExpr : Automaton.checkBounds (rowExpr multiline row) = .ok () := by
  refine rowExpr_cases (p := fun _ e => Automaton.checkBounds e = .ok ()) multiline row rfl
    (fun part => by cases part <;> rfl) fun row => ?_
  rw [Automaton.checkBounds]
  induction row with
  | nil => rfl
  | cons part row ih => cases part <;> exact ih

theorem hard_rowExpr (referenced : List Nat) :
    ((rowExpr multiline row).shape referenced).hard = false := by
  have single : ∀ part, ((partExpr multiline part).shape referenced).hard = false := by
    intro part
    cases part <;> cases multiline <;> rfl
  refine rowExpr_cases (p := fun _ e => (e.shape referenced).hard = false) multiline row rfl single
    fun row => ?_
  rw [Expr.shape]
  induction row with
  | nil => rfl
  | cons part row ih => rw [List.map_cons, Expr.shapeSequence, single, ih, Bool.or_self]

theorem checkReferences_rowExpr (opened : Nat) :
    (rowExpr multiline row).checkReferences opened = .ok opened := by
  refine rowExpr_cases (p := fun _ e => e.checkReferences opened = .ok opened) multiline row rfl
    (fun part => by cases part <;> rfl) fun row => ?_
  rw [Expr.checkReferences]
  induction row with
  | nil => rfl
  | cons part row ih => cases part <;> exact ih

theorem groupCount_ofRow : Automaton.groupCount (Automaton.ofRow multiline row) = 1 := by
  rw [Automaton.groupCount, Automaton.ofRow, List.foldl_toArray, List.cons_append, List.foldl_cons]
  induction row with
  | nil => rfl
  | cons part row ih => cases part <;> exact ih

end Passes

theorem offsets_append (a b : Text) (n : Nat) :
    (Program.offsets (a ++ b) n)[a.length]? = some (n + Text.bytes a) := by
  induction a generalizing n with
  | nil => cases b <;> rfl
  | cons c a ih => simpa [Program.offsets, Nat.add_assoc] using ih (n + c.utf8Size)

theorem build_of_spellsRow {p : Text} {row : Row} (multiline : Bool) (h : SpellsRow p row)
    (hr : row.length ≤ Automaton.maxSize) :
    Program.build (modifierOf multiline ++ p) none =
      .ok (.linear (Automaton.ofRow multiline row)) := by
  have hread : read (modifierOf multiline ++ p) = .ok (rowExpr multiline row, .lines multiline) :=
    read_of_spellsRow multiline h
  have hbuild : Automaton.build (rowExpr multiline row) = .ok (Automaton.ofRow multiline row) := by
    rw [Automaton.build, checkBounds_rowExpr, size_rowExpr, code_rowExpr]
    simp only [bind, Except.bind, if_neg (Nat.not_lt.2 hr)]
    rfl
  simp only [Program.build, hread, bind, Except.bind, checkReferences_rowExpr, hard_rowExpr, hbuild]
  rfl

theorem spans_slotsAt (before gap taken after : Text) :
    Program.spans (Program.offsets (before ++ gap ++ taken ++ after) 0).toArray
        (Automaton.Slots.get? (Automaton.slotsAt before gap taken)) 1 =
      [some ⟨Text.bytes (before ++ gap), Text.bytes (before ++ gap ++ taken)⟩] := by
  have hstart := offsets_append (before ++ gap) (taken ++ after) 0
  have hstop := offsets_append (before ++ gap ++ taken) after 0
  rw [← List.append_assoc, Nat.zero_add] at hstart
  rw [Nat.zero_add] at hstop
  have hle : Text.bytes (before ++ gap) ≤ Text.bytes (before ++ gap ++ taken) := by
    rw [Text.bytes_append _ taken]
    omega
  have hfirst : (Automaton.slotsAt before gap taken).get? 0 = some (before ++ gap).length := rfl
  have hlast : (Automaton.slotsAt before gap taken).get? 1 = some (before ++ gap ++ taken).length :=
    rfl
  simp only [Program.spans, List.range_one, List.map_singleton, Nat.mul_zero, Nat.zero_add,
    hfirst, hlast,
    Program.spanOf, List.getElem?_toArray, hstart, hstop, Option.bind_eq_bind, Option.bind_some,
      Nat.min_eq_left hle]

theorem search_of_row (multiline : Bool) (row : Row) :
    Matcher.FindsRow ⟨(Program.linear (Automaton.ofRow multiline row)).search⟩ multiline row := by
  intro before rest
  simp only [Program.search, Text.upTo_append, Automaton.search_ofRow, groupCount_ofRow,
    Option.map_map]
  refine congrArg _ ?_
  cases hcut : row.cutAtFirst? multiline rest with
  | none => rfl
  | some cut =>
    have htext : before ++ rest = before ++ cut.1 ++ row.chars ++ cut.2 := by
      rw [Row.append_of_cutAtFirst? hcut]
      simp
    simp only [Option.map_some, Function.comp_apply, htext, spans_slotsAt]

theorem exists_build_of_spellsRow {p : Text} {row : Row} (multiline : Bool) (h : SpellsRow p row)
    (hr : row.length ≤ Automaton.maxSize) :
    ∃ m, engine.build (modifierOf multiline ++ p) none = .ok m ∧ m.FindsRow multiline row := by
  refine ⟨_, ?_, search_of_row multiline row⟩
  rw [engine]
  simp only [build_of_spellsRow multiline h hr]
  rfl

/-- The engine searches for a literal text of moderate length, in whatever way it is written. -/
theorem exists_build_of_spells {p t : Text} (h : Spells p t) (ht : t.length ≤ Automaton.maxSize) :
    ∃ m, engine.build p none = .ok m ∧ m.SearchesFor t := by
  obtain ⟨m, hb, hm⟩ := exists_build_of_spellsRow false h.row (by simpa using ht)
  exact ⟨m, hb, Matcher.findsRow_map_some.1 hm⟩

end Baseline
end RegexDialect
