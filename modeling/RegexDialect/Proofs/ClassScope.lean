import RegexDialect.Proofs.RoundMarks

/-! The scope of the scan against the text it emits, and the members of the classes in that text:
none of them is a bracket or a set operation to the baseline, and none closes its class at once. -/
namespace RegexDialect

open Baseline

namespace Baseline

/-- Words of marks that the baseline takes for more than members of a class: a bracket or a set
operation in a class, and a closing bracket as the first member. -/
def misread : List (List Mark) :=
  [[⟨'[', .insideClass, false⟩],
    [⟨'&', .insideClass, false⟩, ⟨'&', .insideClass, false⟩],
    [⟨'~', .insideClass, false⟩, ⟨'~', .insideClass, false⟩],
    [⟨'[', .outsideClass, false⟩, ⟨']', .insideClass, false⟩],
    [⟨'[', .outsideClass, false⟩, ⟨'^', .insideClass, false⟩, ⟨']', .insideClass, false⟩]]

/-- What stands next to the mark that comes: nothing of interest, the bracket that opens a class,
the complement sign behind it, or one half of a set operation. -/
inductive Guard
  | free
  | opened
  | caret
  | half (c : Char)
deriving DecidableEq, Repr

namespace Guard

/-- A mark that misreads no class, next to what the guard saw. -/
def Admits (g : Guard) (x : Mark) : Prop :=
  x ≠ ⟨'[', .insideClass, false⟩ ∧
    match g with
    | free => True
    | opened | caret => x ≠ ⟨']', .insideClass, false⟩
    | half c => x ≠ ⟨c, .insideClass, false⟩

def next (g : Guard) (x : Mark) : Guard :=
  if x = ⟨'[', .outsideClass, false⟩ then opened
  else if x = ⟨'^', .insideClass, false⟩ ∧ g = opened then caret
  else if x = ⟨'&', .insideClass, false⟩ ∨ x = ⟨'~', .insideClass, false⟩ then half x.char
  else free

def Accepts : Guard → List Mark → Prop
  | _, [] => True
  | g, x :: l => g.Admits x ∧ Accepts (g.next x) l

variable {g : Guard} {x y : Mark} {l m : List Mark}

theorem Accepts.misread_not_head (h : g.Accepts l) : ∀ word ∈ misread, ¬word <+: l := by
  simp only [misread, List.forall_mem_cons]
  refine ⟨?_, ?_, ?_, ?_, ?_, by simp⟩
  · rintro ⟨u, rfl⟩
    exact h.1.1 rfl
  · rintro ⟨u, rfl⟩
    obtain ⟨-, ⟨-, h⟩, -⟩ := h
    exact h rfl
  · rintro ⟨u, rfl⟩
    obtain ⟨-, ⟨-, h⟩, -⟩ := h
    exact h rfl
  · rintro ⟨u, rfl⟩
    obtain ⟨-, ⟨-, h⟩, -⟩ := h
    exact h rfl
  · rintro ⟨u, rfl⟩
    obtain ⟨-, -, ⟨-, h⟩, -⟩ := h
    exact h rfl

theorem Accepts.misread_nowhere (h : g.Accepts l) : ∀ word ∈ misread, ¬word <:+: l := by
  induction l generalizing g with
  | nil =>
    intro word hw hi
    obtain rfl := List.infix_nil.1 hi
    exact absurd hw (by decide)
  | cons x l ih =>
    intro word hw hi
    rcases List.infix_cons_iff.1 hi with hp | hi
    · exact h.misread_not_head word hw hp
    · exact ih h.2 word hw hi

theorem admits_of_escaped (g : Guard) (h : x.escaped = true) : g.Admits x := by
  have hne : ∀ c scope, x ≠ ⟨c, scope, false⟩ := by
    rintro c scope rfl
    exact absurd h (by simp)
  cases g with
  | free => exact ⟨hne _ _, trivial⟩
  | opened | caret | half => exact ⟨hne _ _, hne _ _⟩

theorem next_of_escaped (g : Guard) (h : x.escaped = true) : g.next x = free := by
  have hne : ∀ c scope, x ≠ ⟨c, scope, false⟩ := by
    rintro c scope rfl
    exact absurd h (by simp)
  simp [next, hne]

theorem next_of_isDull (g : Guard) (h : isDull x.char = true) : g.next x = free := by
  have hne : ∀ c scope, isDull c = false → x ≠ ⟨c, scope, false⟩ := by
    rintro c scope hc rfl
    exact ne_of_isDull h hc rfl
  rw [next, if_neg (hne '[' _ (by decide)), if_neg fun hx => hne '^' _ (by decide) hx.1, if_neg]
  rintro (hx | hx)
  · exact hne '&' _ (by decide) hx
  · exact hne '~' _ (by decide) hx

/-- What an escape takes is admitted all the more. -/
theorem Accepts.of_takes (h : g.Accepts m) (hl : List.Forall₂ Mark.Takes l m) : g.Accepts l := by
  induction hl generalizing g with
  | nil => trivial
  | cons hx _ ih =>
    obtain ⟨hadmits, hrest⟩ := h
    rcases hx with rfl | ⟨hd, rfl⟩
    · exact ⟨hadmits, ih hrest⟩
    · rw [next_of_isDull g hd] at hrest
      refine ⟨admits_of_escaped g rfl, ?_⟩
      rw [next_of_escaped g rfl]
      exact ih hrest

/-- What the scope of the scan and the text that is left promise to a guard. -/
def Fits (scope : Scope) (rest : Text) : Guard → Prop
  | free => True
  | opened => Place.Fits scope rest .bracket
  | caret => Place.Fits scope rest .caret
  | half c => scope = .insideClass ∧ (c = '&' ∨ c = '~') ∧ rest.head? ≠ some c

theorem Fits.eq_free {rest : Text} (h : g.Fits .outsideClass rest) : g = free := by
  cases g with
  | free => rfl
  | opened | caret | half => exact absurd h.1 (by decide)

theorem Fits.admits {scope : Scope} {rest : Text} (h : g.Fits scope rest)
    (hx : x.escaped = true ∨ isDull x.char = true) : g.Admits x ∧ g.next x = free := by
  rcases hx with he | hd
  · exact ⟨admits_of_escaped g he, next_of_escaped g he⟩
  · have hne : ∀ c, isDull c = false → x ≠ ⟨c, .insideClass, false⟩ := by
      rintro c hc rfl
      exact ne_of_isDull hd hc rfl
    refine ⟨⟨hne '[' (by decide), ?_⟩, next_of_isDull g hd⟩
    cases g with
    | free => trivial
    | opened | caret => exact hne ']' (by decide)
    | half c => exact hne c (by rcases h.2.1 with rfl | rfl <;> decide)

end Guard
end Baseline

namespace Builtin

variable {context : Context} {scope after : Scope} {source rest : Text}
  {new m : List Mark} {g : Guard}

open Guard

theorem Outer.accepts (h : Outer new) (hm : free.Accepts m) : free.Accepts (new ++ m) := by
  induction new with
  | nil => exact hm
  | cons x new ih =>
    obtain ⟨hscope, hx⟩ := h x (by simp)
    have hin : ∀ c, x ≠ ⟨c, .insideClass, false⟩ := by
      rintro c rfl
      exact absurd (show Scope.insideClass = .outsideClass from hscope) (by decide)
    have ho : x ≠ ⟨'[', .outsideClass, false⟩ := by
      rintro rfl
      simp at hx
    have hnext : free.next x = free := by simp [next, hin, ho]
    refine ⟨⟨hin _, trivial⟩, ?_⟩
    rw [hnext]
    exact ih fun y hy => h y (by simp [hy])

theorem Inner.accepts (hn : new ≠ []) (h : Inner new) (hg : g.Fits scope rest)
    (hm : free.Accepts m) :
    g.Accepts (new ++ m) := by
  induction new generalizing g with
  | nil => exact absurd rfl hn
  | cons x new ih =>
    obtain ⟨hx, hnext⟩ := hg.admits (h x (by simp)).2
    refine ⟨hx, ?_⟩
    rw [hnext]
    cases new with
    | nil => exact hm
    | cons y new => exact ih (by simp) (fun z hz => h z (by simp [hz])) trivial

theorem head_ne_of_not_firing {c : Char} (hc : c = '&' ∨ c = '~')
    (h : firing? (c :: rest) .insideClass context = none) : rest.head? ≠ some c := by
  intro hr
  obtain ⟨u, rfl⟩ := List.head?_eq_some_iff.1 hr
  have hs := firing?_eq_none_iff.1 h classSign
  have hsome : (classSign.recognize (c :: c :: u)).isSome = true := by
    rcases hc with rfl | rfl <;> rfl
  obtain ⟨found, hfound⟩ := Option.isSome_iff_exists.1 hsome
  exact absurd ((recognizeIn_inside.2 ⟨rfl, hfound⟩).symm.trans hs) (by simp)

/-- A character outside of classes opens one or is of no interest. -/
theorem accepts_char_outside {c : Char} (hr : firing? (c :: rest) .outsideClass context = none) :
    free.Admits ⟨c, .outsideClass, false⟩ ∧
      (free.next ⟨c, .outsideClass, false⟩).Fits (scopeBehind .outsideClass c) rest := by
  have hne : Scope.outsideClass ≠ .insideClass := by decide
  refine ⟨⟨by simp [hne], trivial⟩, ?_⟩
  by_cases hc : c = '['
  · subst hc
    exact fits_bracket_of_not_firing hr
  · have hnext : free.next ⟨c, .outsideClass, false⟩ = free := by simp [next, hc, hne]
    rw [hnext]
    trivial

/-- A member of a class or the sign that closes it is admitted, and fits what comes after it. -/
theorem accepts_char_inside {c : Char} (hr : firing? (c :: rest) .insideClass context = none)
    (hg : g.Fits .insideClass (c :: rest)) :
    g.Admits ⟨c, .insideClass, false⟩ ∧
      (g.next ⟨c, .insideClass, false⟩).Fits (scopeBehind .insideClass c) rest := by
  have hne : Scope.insideClass ≠ .outsideClass := by decide
  have ho := ne_bracket_of_not_firing hr
  constructor
  · refine ⟨by simpa using ho, ?_⟩
    cases g with
    | free => trivial
    | opened => simpa using hg.2.1
    | caret => simpa using hg.2
    | half d => simpa using hg.2.2
  · by_cases hcaret : c = '^' ∧ g = opened
    · obtain ⟨rfl, rfl⟩ := hcaret
      refine ⟨rfl, fun hu => ?_⟩
      obtain ⟨u, rfl⟩ := List.head?_eq_some_iff.1 hu
      exact hg.2.2 u rfl
    · by_cases hhalf : c = '&' ∨ c = '~'
      · have hnext : g.next ⟨c, .insideClass, false⟩ = half c := by
          rcases hhalf with rfl | rfl <;> simp [next, hne]
        have hscope : scopeBehind .insideClass c = .insideClass := by
          rcases hhalf with rfl | rfl <;> rfl
        rw [hnext, hscope]
        exact ⟨rfl, hhalf, head_ne_of_not_firing hhalf hr⟩
      · have hnext : g.next ⟨c, .insideClass, false⟩ = free := by
          simp only [not_or] at hhalf
          simp only [next, Mark.mk.injEq, hne, and_false, if_false, and_true, hcaret,
            hhalf, or_self]
        rw [hnext]
        trivial

/-- What a round leaves is admitted, and the guard fits the text after it again. -/
theorem Leaves.accepts (h : Leaves context source rest scope new after)
    (hs : scope = .insideClass ∨ scope = .outsideClass) (hg : g.Fits scope (source ++ rest))
    (hm : ∀ g : Guard, g.Fits after rest → g.Accepts m) : g.Accepts (new ++ m) := by
  cases h with
  | outside ho =>
    obtain rfl := hg.eq_free
    exact ho.accepts (hm free trivial)
  | anyCharacter =>
    obtain rfl := hg.eq_free
    have escaped : ∀ g : Guard, ∀ c, g.Admits ⟨c, .insideClass, true⟩ :=
      fun g c => admits_of_escaped g rfl
    exact ⟨⟨by decide, trivial⟩, escaped _ _, escaped _ _, escaped _ _, escaped _ _,
      ⟨by decide, trivial⟩, hm free trivial⟩
  | inside hn hi => exact hi.accepts hn hg (hm free trivial)
  | char hsource hr =>
    subst hsource
    rcases hs with rfl | rfl
    · obtain ⟨hadmits, hfits⟩ := accepts_char_inside hr hg
      exact ⟨hadmits, hm _ hfits⟩
    · obtain rfl := hg.eq_free
      obtain ⟨hadmits, hfits⟩ := accepts_char_outside hr
      exact ⟨hadmits, hm _ hfits⟩

end Builtin

namespace Run

variable {pattern : Text} {s t : ScanState} {l : List Segment}

/-- The scope at the end of a run is the one that the text emitted ends in. -/
theorem scopeAfter_emitted (run : Run Builtin.lookup pattern s l t)
    (hs : s.scope = .insideClass ∨ s.scope = .outsideClass) :
    scopeAfter s.scope 0 (Segment.emitted l) = t.scope := by
  induction run with
  | done => simp [Segment.emitted]
  | @round s s' t piece l hstep run ih =>
    obtain ⟨hreads, -⟩ := Builtin.reads_of_step hs hstep
    obtain ⟨new, hpeel, -⟩ := run.leaves hstep hs
    rw [hpeel.scope]
    exact ih (hreads.scope_after hs)

theorem accepts (run : Run Builtin.lookup pattern s l t)
    (hs : s.scope = .insideClass ∨ s.scope = .outsideClass)
    {g : Guard} (hg : g.Fits s.scope s.rest) : g.Accepts (marks s.scope 0 (Segment.emitted l)) := by
  induction run generalizing g with
  | done => simp [Segment.emitted, Guard.Accepts]
  | @round s s' t piece l hstep run ih =>
    obtain ⟨hrest, -⟩ := rest_of_step hstep
    obtain ⟨hreads, -⟩ := Builtin.reads_of_step hs hstep
    obtain ⟨new, hpeel, hleaves⟩ := run.leaves hstep hs
    refine Guard.Accepts.of_takes (hleaves.accepts hs (hrest ▸ hg) fun g hg => ?_) hpeel.marks
    exact ih (hreads.scope_after hs) hg

end Run

/-- The scan is in a class exactly when the text emitted so far leaves a class open, and no class of
the text that a pattern is rewritten to holds a bracket or a set operation or begins with a closing
bracket. -/
theorem Registry.classes_of_compile (pattern : Text) (flags : Flags) :
    (∀ l s, Run Builtin.lookup pattern (.start pattern ⟨.start flags, false⟩) l s →
      (s.scope = .insideClass ↔ scopeAfter .outsideClass 0 (Segment.emitted l) = .insideClass)) ∧
    ∀ c, Registry.builtin.compile pattern flags = .ok c →
      (∃ l s, Run Builtin.lookup pattern (.start pattern ⟨.start flags, false⟩) l s ∧ s.rest = [] ∧
        c.rewritten = Segment.emitted l) ∧
      ∀ word ∈ misread, ¬word <:+: marks .outsideClass 0 c.rewritten := by
  refine ⟨fun l s run => ?_, fun c hc => ?_⟩
  · have hscope := run.scopeAfter_emitted (.inr rfl)
    rw [ScanState.start] at hscope
    rw [hscope]
  · obtain ⟨l, s, run, hs, rfl⟩ := exists_run_of_compile hc
    refine ⟨⟨l, s, run, hs, rfl⟩, ?_⟩
    have hfree : Guard.free.Fits Scope.outsideClass pattern := trivial
    exact (run.accepts (.inr rfl) hfree).misread_nowhere

theorem Registry.classes_of_compile_unclosed :
    ∃ c l s, Registry.builtin.compile "[^][[a&&b".toList .empty = .ok c ∧
      c.rewritten = "[\\s\\S][\\[a\\&\\&b".toList ∧
      Run Builtin.lookup "[^][[a&&b".toList (.start "[^][[a&&b".toList ⟨.start .empty, false⟩) l s ∧
      s.scope = .insideClass ∧ ∀ word ∈ misread, ¬word <:+: marks .outsideClass 0 c.rewritten := by
  have hc : Registry.builtin.compile "[^][[a&&b".toList .empty =
      .ok ⟨"[\\s\\S][\\[a\\&\\&b".toList, .start .empty⟩ := by
    rw [Registry.compile_builtin]
    rfl
  obtain ⟨hscope, hcompile⟩ := classes_of_compile "[^][[a&&b".toList .empty
  obtain ⟨⟨l, s, run, -, hl⟩, hwords⟩ := hcompile _ hc
  refine ⟨_, l, s, hc, rfl, run, (hscope l s run).2 ?_, hwords⟩
  rw [← hl]
  decide

end RegexDialect
