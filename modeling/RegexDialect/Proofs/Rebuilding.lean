import RegexDialect.Baseline.Engine
import RegexDialect.Proofs.FlagIndependence
import RegexDialect.Proofs.Patterns

/-! A pattern is built again from its own source and flags. This holds of every copy with other
match flags too, though it keeps what was compiled under the flags of the original. -/
namespace RegexDialect

namespace Registry

variable {pattern letters rest : Text} {f flags : Flags} {c : Compiled}

theorem has_of_modifier (hn : letters ≠ []) (hl : ∀ m ∈ letters, Builtin.isModifier m = true)
    (h : builtin.compile (['(', '?'] ++ letters ++ [')'] ++ rest) flags = .ok c) :
    ∀ m ∈ letters, c.context.flags.has m = true := by
  intro m hm
  rw [flags_of_modifier hn hl h, Flags.has_foldl_add, List.contains_iff_mem.2 hm, Bool.true_or]

/-- A compilation may as well start with the flags it ends with: the modifier at the start adds
nothing to them. -/
theorem compile_ownFlags (h : builtin.compile pattern flags = .ok c) :
    builtin.compile pattern c.context.flags = .ok c := by
  by_cases hp : BeginsWithModifier pattern
  · obtain ⟨letters, rest, hn, hl, rfl⟩ := hp
    have hset := Flags.foldl_add_eq_self (has_of_modifier hn hl h)
    have hflags := flags_of_modifier hn hl h
    rw [compile_behindModifier hn hl, ← hflags] at h
    rw [compile_behindModifier hn hl, hset, h]
  · rw [flags_of_not_modifier hp h, h]

/-- Or with flags that differ from these in letters that are no modes: they are the flags it ends
with then. -/
theorem compile_of_finalModes (h : builtin.compile pattern flags = .ok c)
    (hf : ∀ m ∈ ['i', 'm', 'n', 's', 'x'], f.has m = c.context.flags.has m) :
    builtin.compile pattern f = .ok { c with context := { c.context with flags := f } } := by
  have hmap := compile_of_modes (f := f) (g := c.context.flags)
    (fun m hm => hf m (List.mem_append_right ['i', 'm'] hm)) pattern
  rw [compile_ownFlags h] at hmap
  obtain ⟨d, hd, hsame⟩ : ∃ d, builtin.compile pattern f = .ok d ∧ d.unflagged = c.unflagged := by
    cases hd : builtin.compile pattern f with
    | error e => simp [hd, Except.map] at hmap
    | ok d => exact ⟨d, rfl, by simpa [hd, Except.map] using hmap⟩
  have hflags : d.context.flags = f := by
    by_cases hp : BeginsWithModifier pattern
    · obtain ⟨letters, rest, hn, hl, rfl⟩ := hp
      rw [flags_of_modifier hn hl hd]
      refine Flags.foldl_add_eq_self fun m hm => ?_
      rw [hf m (Builtin.isModifier_iff.1 (hl m hm)), has_of_modifier hn hl h m hm]
    · exact flags_of_not_modifier hp hd
  obtain ⟨rewritten, ⟨dflags, names, named⟩⟩ := d
  obtain ⟨rewritten', ⟨cflags, names', named'⟩⟩ := c
  simp only [Compiled.unflagged, Prod.mk.injEq] at hsame
  obtain ⟨rfl, rfl, rfl⟩ := hsame
  obtain rfl : dflags = f := hflags
  exact hd

end Registry

inductive Copying
  | global (on : Bool)
  | sticky (on : Bool)
  | unchanged
deriving DecidableEq, Repr

namespace Copying

def setting? (c : Char) : Copying → Option Bool
  | global on => if c = 'g' then some on else none
  | sticky on => if c = 'y' then some on else none
  | unchanged => none

/-- What the last of some copies to set a flag sets it to, if one does. -/
def lastSetting? (c : Char) (ways : List Copying) : Option Bool :=
  (ways.filterMap (setting? c)).getLast?

variable {c : Char}

theorem lastSetting?_of_ne (hg : c ≠ 'g') (hy : c ≠ 'y') (ways : List Copying) :
    lastSetting? c ways = none := by
  have hnone : ∀ way, setting? c way = none := fun way => by cases way <;> simp [setting?, hg, hy]
  simp [lastSetting?, List.filterMap_eq_nil_iff.2 fun way _ => hnone way]

theorem getD_lastSetting?_cons (way : Copying) (ways : List Copying) (on : Bool) :
    (lastSetting? c (way :: ways)).getD on =
      (lastSetting? c ways).getD ((way.setting? c).getD on) := by
  rw [lastSetting?, List.filterMap_cons]
  cases way.setting? c with
  | none => rfl
  | some b => simp [lastSetting?, List.getLast?_cons]

end Copying

namespace Pattern

variable {engine : Baseline.Engine} {source flags : Text} {p : Pattern}

def copyBy (p : Pattern) : Copying → Except Error Pattern
  | .global on => .ok (p.withGlobal on)
  | .sticky on => .ok (p.withSticky on)
  | .unchanged => p.copy none

def copies (p : Pattern) (ways : List Copying) : Except Error Pattern := ways.foldlM copyBy p

/-- A copy is the pattern with other flags. -/
theorem exists_copyBy (p : Pattern) (way : Copying) :
    ∃ f, p.copyBy way = .ok { p with flags := f } ∧
    ∀ c, f.has c = (way.setting? c).getD (p.flags.has c) := by
  cases way with
  | global on =>
    refine ⟨_, rfl, fun c => ?_⟩
    rw [Flags.has_toggle]
    by_cases hc : c = 'g' <;> simp [Copying.setting?, hc]
  | sticky on =>
    refine ⟨_, rfl, fun c => ?_⟩
    rw [Flags.has_toggle]
    by_cases hc : c = 'y' <;> simp [Copying.setting?, hc]
  | unchanged => exact ⟨p.flags, rfl, fun c => rfl⟩

/-- So are copies of copies; of the settings of a flag the last one counts. -/
theorem exists_copies (p : Pattern) (ways : List Copying) :
    ∃ f, p.copies ways = .ok { p with flags := f } ∧
    ∀ c, f.has c = (Copying.lastSetting? c ways).getD (p.flags.has c) := by
  induction ways generalizing p with
  | nil => exact ⟨p.flags, rfl, fun c => rfl⟩
  | cons way ways ih =>
    obtain ⟨f, hcopy, hf⟩ := p.exists_copyBy way
    obtain ⟨g, hcopies, hg⟩ := ih { p with flags := f }
    refine ⟨g, ?_, fun c => ?_⟩
    · rw [copies, List.foldlM_cons, hcopy]
      exact hcopies
    · rw [hg, Copying.getD_lastSetting?_cons, hf]

theorem make_of_modes (h : make engine source flags = .ok p) {f : Flags}
    (halpha : ∀ c, f.has c = true → c.isAlpha = true)
    (hf : ∀ m ∈ ['i', 'm', 'n', 's', 'x'], f.has m = p.flags.has m) :
    make engine p.source f.letters = .ok { p with flags := f } ∧
      baselineText p.rewritten f = baselineText p.rewritten p.flags := by
  obtain ⟨g, c, matcher, -, hc, hbuild, rfl⟩ := exists_of_make h
  have hfilter : ['i', 'm'].filter f.has = ['i', 'm'].filter c.context.flags.has :=
    List.filter_congr fun m hm => hf m (List.mem_append_left ['n', 's', 'x'] hm)
  have htext : baselineText c.rewritten f = baselineText c.rewritten c.context.flags := by
    simp only [baselineText, Flags.baselinePrefix, hfilter]
  rw [← htext] at hbuild
  exact ⟨make_of_compile (Flags.parse_letters halpha) (Registry.compile_of_finalModes hc hf) hbuild,
    htext⟩

theorem isAlpha_of_make (h : make engine source flags = .ok p) :
    ∀ c, p.flags.has c = true → c.isAlpha = true := by
  obtain ⟨g, c, matcher, hg, hc, -, rfl⟩ := exists_of_make h
  intro m hm
  by_cases hp : BeginsWithModifier source
  · obtain ⟨letters, rest, hn, hl, rfl⟩ := hp
    rw [Registry.flags_of_modifier hn hl hc, Flags.has_foldl_add, Bool.or_eq_true,
      List.contains_iff_mem] at hm
    rcases hm with hletter | hgiven
    · exact Builtin.isAlpha_of_isModifier (hl m hletter)
    · exact Flags.isAlpha_of_parse hg m hgiven
  · rw [Registry.flags_of_not_modifier hp hc] at hm
    exact Flags.isAlpha_of_parse hg m hm

/-- Every copy of a pattern, and of its copies, is the pattern with other match flags, each as it
was set last. It is what is built from its own source and flags, though the engine was given the
text of the original: the two texts are the same. A further copy changes one flag at most. -/
theorem make_copies (h : make engine source flags = .ok p) (ways : List Copying) :
    ∃ q, p.copies ways = .ok q ∧ q = { p with flags := q.flags } ∧
      (∀ c, q.flags.has c = (Copying.lastSetting? c ways).getD (p.flags.has c)) ∧
      make engine q.source q.flags.letters = .ok q ∧
      baselineText q.rewritten q.flags = baselineText p.rewritten p.flags ∧
      ∀ on, (q.withGlobal on = { q with flags := (q.withGlobal on).flags } ∧
          ∀ c, (q.withGlobal on).flags.has c = if c = 'g' then on else q.flags.has c) ∧
        (q.withSticky on = { q with flags := (q.withSticky on).flags } ∧
          ∀ c, (q.withSticky on).flags.has c = if c = 'y' then on else q.flags.has c) := by
  obtain ⟨f, hcopies, hf⟩ := p.exists_copies ways
  have hmodes : ∀ m ∈ ['i', 'm', 'n', 's', 'x'], f.has m = p.flags.has m := by
    intro m hm
    have hg : m ≠ 'g' := by rintro rfl; exact absurd hm (by decide)
    have hy : m ≠ 'y' := by rintro rfl; exact absurd hm (by decide)
    rw [hf, Copying.lastSetting?_of_ne hg hy]
    rfl
  have halpha : ∀ c, f.has c = true → c.isAlpha = true := by
    intro c hc
    by_cases hg : c = 'g'
    · subst hg; rfl
    by_cases hy : c = 'y'
    · subst hy; rfl
    rw [hf, Copying.lastSetting?_of_ne hg hy] at hc
    exact isAlpha_of_make h c hc
  obtain ⟨hmake, htext⟩ := make_of_modes h halpha hmodes
  refine ⟨_, hcopies, rfl, hf, hmake, htext, fun on => ⟨⟨rfl, fun c => ?_⟩, rfl, fun c => ?_⟩⟩
  · exact f.has_toggle 'g' c on
  · exact f.has_toggle 'y' c on

/-- Flags from a modifier, and match flags that are set again and again. -/
theorem make_copies_modifier :
    ∃ p q, make Baseline.engine "(?nix)(a) (?<b>.)#".toList ['s', 'g'] = .ok p ∧
    p.copies [.sticky false, .global false, .sticky true, .unchanged, .global true, .global false] =
      .ok q ∧
    q.flags.letters = ['i', 'n', 's', 'x', 'y'] ∧
    make Baseline.engine "(?nix)(a) (?<b>.)#".toList ['i', 'n', 's', 'x', 'y'] = .ok q ∧
    baselineText q.rewritten q.flags = "(?i)(?:a)(?:)([\\s\\S])(?:)".toList := by
  have hrun : ((make Baseline.engine "(?nix)(a) (?<b>.)#".toList ['s', 'g']).toOption.any fun p =>
      (p.copies [.sticky false, .global false, .sticky true, .unchanged, .global true,
        .global false]).toOption.any
        fun q => p.source == "(?nix)(a) (?<b>.)#".toList && q.flags.letters ==
          ['i', 'n', 's', 'x', 'y'] &&
          baselineText p.rewritten p.flags == "(?i)(?:a)(?:)([\\s\\S])(?:)".toList) = true := by
    decide +kernel
  obtain ⟨p, hp, hcopied⟩ := exists_of_any_toOption hrun
  obtain ⟨q, hq, htests⟩ := exists_of_any_toOption hcopied
  simp only [Bool.and_eq_true, beq_iff_eq] at htests
  obtain ⟨⟨hsource, hletters⟩, htext⟩ := htests
  obtain ⟨q', hq', hcopy, -, hmake, hsame, -⟩ :=
    make_copies hp [.sticky false, .global false, .sticky true, .unchanged, .global true,
      .global false]
  obtain rfl : q = q' := Except.ok.inj (hq.symm.trans hq')
  have hsource' : q.source = "(?nix)(a) (?<b>.)#".toList := by rw [hcopy, hsource]
  rw [hletters, hsource'] at hmake
  exact ⟨p, q, hp, hq, hletters, hmake, hsame.trans htext⟩

end Pattern
end RegexDialect
