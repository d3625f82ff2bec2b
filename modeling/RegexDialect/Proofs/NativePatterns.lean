import RegexDialect.Proofs.EscapedText
import RegexDialect.Proofs.RoundMarks
import RegexDialect.Proofs.Tiling

/-! Patterns without syntax of the dialect. While no flag asks for more, the scan leaves them as
they are: every round copies its piece, and what is left still has no syntax of the dialect in
it. -/
namespace RegexDialect

open Baseline

namespace Baseline

/-- What the baseline reads as a set operation in a class: a bracket, an intersection and a
symmetric difference. -/
def setSyntax : List (List Mark) :=
  [[⟨'[', .insideClass, false⟩],
    [⟨'&', .insideClass, false⟩, ⟨'&', .insideClass, false⟩],
    [⟨'~', .insideClass, false⟩, ⟨'~', .insideClass, false⟩]]

end Baseline

namespace Builtin

theorem of_openNamed_error {name : Text} {context : Context} {e : Error}
    (h : (openNamed name context).1 = .error e) : name.all Char.isDigit = true ∧
      e = .integerCaptureName name := by
  rw [openNamed] at h
  split at h
  · next hd => exact ⟨hd, (Except.error.inj h).symm⟩
  · exact absurd h (by simp)

/-- A round of the built-in rules fails at nothing but a named group, outside of classes, whose name
is made of digits. -/
theorem named_of_step_error {pattern : Text} {s : ScanState} {e : Error} {turn : Turn}
    (hs : s.scope = .insideClass ∨ s.scope = .outsideClass)
    (h : s.step lookup pattern = .error (e, turn)) :
    s.scope = .outsideClass ∧ ∃ tag name after, tag ∈ [['(', '?', '<'], ['(', '?', 'P', '<']] ∧
      name ≠ [] ∧ (∀ c ∈ name, isNameChar c = true) ∧ name.all Char.isDigit = true ∧
      s.rest = tag ++ name ++ ['>'] ++ after ∧ e = .integerCaptureName name := by
  obtain ⟨-, hlookup⟩ := ScanState.lookup_of_step_error h
  obtain ⟨b, r, hf, herror⟩ := exists_of_lookup_error hlookup
  obtain ⟨hb, -⟩ := firing?_eq_some_iff.1 hf
  rcases hs with hs | hs
  · rw [hs] at hb
    obtain ⟨rfl, -⟩ := recognizeIn_inside.1 hb
    exact absurd herror (by simp [handle])
  · rw [hs] at hb herror
    obtain ⟨-, -, hr⟩ := recognizeIn_outside.1 hb
    refine ⟨hs, ?_⟩
    cases b with
    | namedGroup =>
      obtain ⟨name, after, hrest, hn, hc, rfl⟩ := recognize_eq_some hr
      obtain ⟨hd, rfl⟩ := of_openNamed_error herror
      exact ⟨_, name, after, by simp, hn, hc, hd, hrest, rfl⟩
    | taggedGroup =>
      obtain ⟨name, after, hrest, hn, hc, rfl⟩ := recognize_eq_some hr
      obtain ⟨hd, rfl⟩ := of_openNamed_error herror
      exact ⟨_, name, after, by simp, hn, hc, hd, hrest, rfl⟩
    | modifier =>
      obtain ⟨letters, after, hrest, -, hl, rfl⟩ := recognize_eq_some hr
      rw [hrest, handle_modifier _ _ _ _ hl] at herror
      split at herror <;> exact absurd herror (by simp)
    | group =>
      rw [handle] at herror
      split at herror
      · exact absurd herror (by simp)
      · split at herror <;> exact absurd herror (by simp)
    | _ => exact absurd herror (by simp [handle])

end Builtin

/-- A text, as it reads in a scope, without syntax of the dialect: neither a comment nor an empty
class nor a reference by name begins in it, no group has a name, and its classes hold no set
syntax. -/
structure Native (scope : Scope) (t : Text) : Prop where
  texts : ∀ opening ∈ ["(?#", "[]", "[^]", "\\k<"].map String.toList, ¬opening <:+: t
  names : ∀ tag ∈ [['(', '?', '<'], ['(', '?', 'P', '<']], ∀ name, name ≠ [] →
    (∀ c ∈ name, Builtin.isNameChar c = true) → ¬tag ++ name ++ ['>'] <:+: t
  classes : ∀ word ∈ setSyntax, ¬word <:+: marks scope 0 t

namespace Native

variable {scope after : Scope} {t u : Text}

theorem behind (h : Native scope t) (hu : u <:+ t) (hm : marks after 0 u <:+ marks scope 0 t) :
    Native after u where
  texts opening ho hi := h.texts opening ho (hi.trans hu.isInfix)
  names tag ht name hn hc hi := h.names tag ht name hn hc (hi.trans hu.isInfix)
  classes word hw hi := h.classes word hw (hi.trans hm.isInfix)

end Native

namespace Builtin

variable {position : Nat} {context c : Context} {scope after : Scope} {source rest output : Text}

theorem marks_of_unit (hs : scope = .insideClass ∨ scope = .outsideClass) (hn : source ≠ [])
    (hl : BaselineToken.length scope (source ++ rest) = source.length) :
    marks scope 0 rest <:+ marks scope 0 (source ++ rest) := by
  rcases unit_cases hs hn hl with ⟨d, a, rfl, -⟩ | ⟨rfl, hplain⟩
  · have hescape : escapeLength scope ('\\' :: d :: (a ++ rest)) = a.length + 2 := by
      rw [escapeLength, if_pos List.head?_cons]
      exact hl
    exact ⟨_, (Peel.marks_escape hescape).1.symm⟩
  · have hturn : ∀ d ∈ source, d ≠ '\\' ∧ scopeBehind .outsideClass d = .outsideClass := fun d hd =>
      ⟨(hplain d hd).1, scopeBehind_of_ne (hplain d hd).2.1 (hplain d hd).2.2.1⟩
    exact ⟨_, (Peel.marks_plain hturn rest).1.symm⟩

/-- A round that meets no syntax of the dialect copies its piece, records no name, and the piece is
read on its own. -/
theorem Reads.of_native (h : Reads position context scope source rest output after c)
    (hs : scope = .insideClass ∨ scope = .outsideClass)
    (hf : ∀ d ∈ ['n', 's', 'x'], context.hasFlag d = false)
    (hm : position = 0 → ¬BeginsWithModifier (source ++ rest))
    (hn : Native scope (source ++ rest)) :
    output = source ∧ (c = context ∨ c = context.push none) ∧
      marks after 0 rest <:+ marks scope 0 (source ++ rest) := by
  have plain : (∀ d ∈ source, d ≠ '\\' ∧ scopeBehind .outsideClass d = .outsideClass) →
      marks .outsideClass 0 rest <:+ marks .outsideClass 0 (source ++ rest) :=
    fun hp => ⟨_, (Peel.marks_plain hp rest).1.symm⟩
  have opens : ∀ {opening : Text}, opening ∈ ["(?#", "[]", "[^]", "\\k<"].map String.toList →
      ¬opening <+: source := fun ho hp => hn.texts _ ho (hp.trans (List.prefix_append _ _)).isInfix
  cases h with
  | dot hflag => exact absurd hflag (by simp [hf 's' (by simp)])
  | spacing hflag => exact absurd hflag (by simp [hf 'x' (by simp)])
  | uncaptured _ hflag => exact absurd hflag (by simp [hf 'n' (by simp)])
  | leadingModifier hne hl hp => exact absurd ⟨_, _, hne, hl, rfl⟩ (hm hp)
  | noCharacter => exact absurd (List.prefix_refl _) (opens (by decide))
  | anyCharacter => exact absurd (List.prefix_refl _) (opens (by decide))
  | @reference name => exact absurd ⟨name ++ ['>'], rfl⟩ (opens (by decide : ['\\', 'k', '<'] ∈ _))
  | @comment body => exact absurd ⟨body ++ [')'], rfl⟩ (opens (by decide : ['(', '?', '#'] ∈ _))
  | @named tag name _ ht hne hc hd =>
    exact absurd (List.prefix_append _ _).isInfix (hn.names tag (by simpa using ht) name hne hc)
  | sign hsign =>
    have hplain : ∀ d ∈ source, d ≠ '\\' ∧ scopeBehind .insideClass d = .insideClass := by
      rcases hsign with rfl | rfl | rfl <;> exact Text.forall_mem_of_all (by decide)
    have hword : source.map (⟨·, .insideClass, false⟩) ∈ setSyntax := by
      rcases hsign with rfl | rfl | rfl <;> decide
    refine absurd ?_ (hn.classes _ hword)
    rw [(Peel.marks_plain hplain rest).1]
    exact (List.prefix_append _ _).isInfix
  | laterModifier _ hl =>
    exact ⟨rfl, .inl rfl, plain (forall_mem_modifier hl (Text.forall_mem_of_all (by decide)))⟩
  | special => exact ⟨rfl, .inl rfl, plain (Text.forall_mem_of_all (by decide))⟩
  | group => exact ⟨rfl, .inr rfl, plain (Text.forall_mem_of_all (by decide))⟩
  | unit _ hne hl => exact ⟨rfl, .inl rfl, marks_of_unit hs hne hl⟩
  | @char _ d _ _ hl =>
    refine ⟨rfl, .inl rfl, ?_⟩
    have hbare : escapeLength scope (d :: rest) = 0 := by rw [escapeLength, hl, ite_self]
    rw [← scopeBehind_eq_after hs, List.singleton_append, (Peel.marks_bare hbare).1]
    exact List.suffix_cons _ _

end Builtin

structure ScanState.Plain (flags : Flags) (s : ScanState) : Prop where
  scope : s.scope = .insideClass ∨ s.scope = .outsideClass
  modifier : s.position = 0 → ¬BeginsWithModifier s.rest
  rest : Native s.scope s.rest
  context : ∃ names, s.turn.context = ⟨flags, names, false⟩ ∧ ∀ name ∈ names, name = none

namespace ScanState.Plain

variable {pattern : Text} {flags : Flags} {s t : ScanState} {piece : Segment} {l : List Segment}

theorem step (h : s.Plain flags) (hf : ∀ d ∈ ['n', 's', 'x'], flags.has d = false)
    (hstep : s.step Builtin.lookup pattern = .ok (some (piece, t))) :
    piece.output = piece.source ∧ t.Plain flags := by
  obtain ⟨hrest, hne, hposition, -⟩ := rest_of_step hstep
  obtain ⟨hreads, -⟩ := Builtin.reads_of_step h.scope hstep
  obtain ⟨names, hcontext, hnames⟩ := h.context
  have hflags : ∀ d ∈ ['n', 's', 'x'], s.turn.context.hasFlag d = false := by
    rw [hcontext]
    exact hf
  obtain ⟨houtput, hafter, hmarks⟩ :=
    hreads.of_native h.scope hflags (hrest ▸ h.modifier) (hrest ▸ h.rest)
  have hpos := Text.bytes_pos_of_ne_nil hne
  refine ⟨houtput, hreads.scope_after h.scope, fun hz => by omega, ?_, ?_⟩
  · exact h.rest.behind ⟨_, hrest⟩ (hrest ▸ hmarks)
  · rcases hafter with hafter | hafter
    · exact ⟨names, hafter.trans hcontext, hnames⟩
    · refine ⟨names ++ [none], by rw [hafter, hcontext]; rfl, fun name hname => ?_⟩
      rcases List.mem_append.1 hname with hname | hname
      · exact hnames name hname
      · exact List.mem_singleton.1 hname

theorem run (hf : ∀ d ∈ ['n', 's', 'x'], flags.has d = false)
    (run : Run Builtin.lookup pattern s l t)
    (h : s.Plain flags) : Segment.emitted l = l.flatMap Segment.source ∧ t.Plain flags := by
  induction run with
  | done => exact ⟨rfl, h⟩
  | round hstep _ ih =>
    obtain ⟨houtput, hplain⟩ := h.step hf hstep
    obtain ⟨hemitted, hlast⟩ := ih hplain
    refine ⟨?_, hlast⟩
    rw [Segment.emitted, List.flatMap_cons, List.flatMap_cons, houtput]
    exact congrArg _ hemitted

theorem step_ne_error (h : s.Plain flags) {e : Error} {turn : Turn} :
    s.step Builtin.lookup pattern ≠ .error (e, turn) := by
  intro herror
  obtain ⟨-, tag, name, after, htag, hn, hc, -, hrest, -⟩ :=
    Builtin.named_of_step_error h.scope herror
  refine h.rest.names tag htag name hn hc ?_
  rw [hrest]
  exact (List.prefix_append _ _).isInfix

end ScanState.Plain

/-- A pattern without syntax of the dialect is compiled to itself, while neither `n` nor `s` nor `x`
is set. The flags are those that were given, and none of the groups has a name. -/
theorem Registry.compile_native {pattern : Text} {flags : Flags}
    (hf : ∀ d ∈ ['n', 's', 'x'], flags.has d = false)
    (hm : ¬BeginsWithModifier pattern) (h : Native .outsideClass pattern) :
    ∃ names, Registry.builtin.compile pattern flags = .ok ⟨pattern, ⟨flags, names, false⟩⟩ ∧
      ∀ name ∈ names, name = none := by
  have start : (ScanState.start pattern ⟨.start flags, false⟩).Plain flags :=
    ⟨.inr rfl, fun _ => hm, h, [], rfl, by simp⟩
  -- the scan comes to the end of the pattern or to an error, which would be a group with a name
  obtain ⟨l, t, run, ⟨ht, hscan⟩ | ⟨e, turn, hstep, -⟩⟩ :=
    Run.exists_last Builtin.lookup pattern (.start pattern ⟨.start flags, false⟩)
  · obtain ⟨hemitted, last⟩ := ScanState.Plain.run hf run start
    obtain ⟨names, hcontext, hnames⟩ := last.context
    have hsources := run.sources
    rw [ht, List.append_nil] at hsources
    refine ⟨names, ?_, hnames⟩
    rw [compile_of_scans ⟨l, run, rfl⟩ ht, hemitted, hsources, hcontext]
    rfl
  · exact absurd hstep (ScanState.Plain.run hf run start).2.step_ne_error

/-- Set signs in the name of a property and behind backslashes, a look-behind, and a modifier that
comes too late. -/
theorem Registry.compile_native_escapes : ∃ pattern flags names,
    pattern = "(?:\\p\x7b&&[\x7d[&\\&\\[~])(b)+?(?<=c)(?n)".toList ∧ flags =
      (⟨['g', 'i'], by decide⟩ : Flags) ∧
      (∀ d ∈ ['n', 's', 'x'], flags.has d = false) ∧ ¬BeginsWithModifier pattern ∧
        Native .outsideClass pattern ∧
      Registry.builtin.compile pattern flags = .ok ⟨pattern, ⟨flags, names, false⟩⟩ ∧
      ∀ name ∈ names, name = none := by
  have hf : ∀ d ∈ ['n', 's', 'x'], (⟨['g', 'i'], by decide⟩ : Flags).has d = false :=
    Text.forall_mem_of_all (by decide)
  have hm : ¬BeginsWithModifier "(?:\\p\x7b&&[\x7d[&\\&\\[~])(b)+?(?<=c)(?n)".toList := by decide
  have h : Native .outsideClass "(?:\\p\x7b&&[\x7d[&\\&\\[~])(b)+?(?<=c)(?n)".toList := by
    have hclosing : '>' ∉ "(?:\\p\x7b&&[\x7d[&\\&\\[~])(b)+?(?<=c)(?n)".toList := by decide
    refine ⟨by decide +kernel, fun tag _ name _ _ hi => hclosing (hi.subset ?_), by decide +kernel⟩
    simp
  obtain ⟨names, hc, hnames⟩ := compile_native hf hm h
  exact ⟨_, _, names, rfl, rfl, hf, hm, h, hc, hnames⟩

end RegexDialect
