import RegexDialect.Proofs.GroupNames
import RegexDialect.Proofs.LeadingModes

/-! What a compilation does with its flags. It acts on `n`, `s` and `x` alone, so two compilations
that agree on these differ in nothing but the flags they hand on; and these are the given ones with
the letters of a modifier at the very start. -/
namespace RegexDialect

/-- What is added while letters are set does not depend on what was set before. -/
theorem Flags.exists_insertAll (letters : Text) :
    ∃ (result : Except Error Unit) (added : Text), ∀ f : Flags, f.insertAll letters =
      (result, added.foldl add f) := by
  induction letters with
  | nil => exact ⟨.ok (), [], fun f => rfl⟩
  | cons c letters ih =>
    obtain ⟨result, added, h⟩ := ih
    cases hc : c.isAlpha with
    | true => exact ⟨result, c :: added, fun f => by simp [insertAll, insert, hc, h]⟩
    | false => exact ⟨.error (.invalidFlag c), [], fun f => by simp [insertAll, insert, hc]⟩

/-- Contexts with the same groups that agree on the flags that the built-in rules act on. -/
structure Context.Alike (c d : Context) : Prop where
  names : c.names = d.names
  named : c.named = d.named
  modes : ∀ m ∈ ['n', 's', 'x'], c.hasFlag m = d.hasFlag m

def Context.AnswersAlike {α : Type} (a b : α × Context) : Prop := a.1 = b.1 ∧ a.2.Alike b.2

namespace Context.Alike

variable {c d : Context}

theorem start {f g : Flags} (h : ∀ m ∈ ['n', 's', 'x'], f.has m = g.has m) :
    (Context.start f).Alike (.start g) := ⟨rfl, rfl, h⟩

theorem push (h : c.Alike d) (name : Option Text) : (c.push name).Alike (d.push name) :=
  ⟨by rw [Context.push, Context.push, h.names], by rw [Context.push, Context.push, h.named],
    h.modes⟩

theorem setFlags (h : c.Alike d) (letters : Text) :
    AnswersAlike (c.setFlags letters) (d.setFlags letters) := by
  obtain ⟨result, added, hadd⟩ := Flags.exists_insertAll letters
  rw [Context.setFlags, Context.setFlags, hadd, hadd]
  refine ⟨rfl, h.names, h.named, fun m hm => ?_⟩
  have hflag : c.flags.has m = d.flags.has m := h.modes m hm
  simp only [hasFlag, Flags.has_foldl_add, hflag]

theorem index? (h : c.Alike d) (name : Text) : c.index? name = d.index? name := by
  rw [Context.index?, Context.index?, h.names]

end Context.Alike

namespace Builtin

open Context

variable {c d : Context}

theorem isActive_of_alike (h : c.Alike d) (b : Builtin) (scope : Scope) :
    b.isActive scope c = b.isActive scope d := by
  cases b with
  | dot => simp [isActive, awaits, h.modes 's' (by simp)]
  | spacing => simp [isActive, awaits, h.modes 'x' (by simp)]
  | _ => rfl

theorem firing?_of_alike (h : c.Alike d) (rest : Text) (scope : Scope) :
    firing? rest scope c = firing? rest scope d := by
  simp only [firing?, recognizeIn, isActive_of_alike h]

theorem openNamed_of_alike (h : c.Alike d) (name : Text) :
    AnswersAlike (openNamed name c) (openNamed name d) := by
  simp only [openNamed]
  split
  · exact ⟨rfl, h⟩
  · exact ⟨rfl, h.push _⟩

theorem handle_of_alike (h : c.Alike d) (b : Builtin) (token : Token) :
    AnswersAlike (b.handle token c) (b.handle token d) := by
  cases b with
  | group =>
    simp only [handle, ← h.modes 'n' (by simp)]
    split
    · exact ⟨rfl, h⟩
    · split
      · exact ⟨rfl, h⟩
      · exact ⟨rfl, h.push none⟩
  | namedGroup => exact openNamed_of_alike h _
  | taggedGroup => exact openNamed_of_alike h _
  | reference => exact ⟨by simp only [handle, refer, h.index?], h⟩
  | modifier =>
    simp only [handle]
    split
    · exact ⟨rfl, h⟩
    · have hset := h.setFlags ((token.group 1).getD [])
      rcases hc : c.setFlags ((token.group 1).getD []) with ⟨result, c'⟩
      rcases hd : d.setFlags ((token.group 1).getD []) with ⟨result', d'⟩
      rw [hc, hd] at hset
      obtain ⟨rfl, hafter⟩ : result = result' ∧ c'.Alike d' := hset
      cases result with
      | error e => exact ⟨rfl, hafter⟩
      | ok _ => exact ⟨rfl, hafter⟩
  | _ => exact ⟨rfl, h⟩

/-- Rules that are asked in contexts that are alike give the same answer and leave contexts that are
alike. -/
theorem lookup_of_alike {t u : Turn} (h : t.context.Alike u.context) (pattern : Text)
    (position : Nat) (rest : Text) (scope : Scope) :
    (lookup pattern position rest scope t).1 = (lookup pattern position rest scope u).1 ∧
      (lookup pattern position rest scope t).2.context.Alike
        (lookup pattern position rest scope u).2.context := by
  rw [lookup_eq, lookup_eq, firing?_of_alike h]
  cases firing? rest scope u.context with
  | none => exact ⟨rfl, h⟩
  | some p =>
    obtain ⟨b, r⟩ := p
    simp only
    have hhandle := handle_of_alike h b (Token.ofRecognition pattern position rest scope r)
    rcases ht : b.handle (Token.ofRecognition pattern position rest scope r) t.context with
      ⟨result, c⟩
    rcases hu : b.handle (Token.ofRecognition pattern position rest scope r) u.context with
      ⟨result', d⟩
    rw [ht, hu] at hhandle
    obtain ⟨rfl, hafter⟩ : result = result' ∧ c.Alike d := hhandle
    cases result with
    | error e => exact ⟨rfl, hafter⟩
    | ok output => exact ⟨rfl, hafter⟩

theorem Reads.flags_eq {position : Nat} {scope after : Scope} {source rest output : Text}
    (h : Reads position c scope source rest output after d)
    (hp : ¬BeginsWithModifier (source ++ rest)) :
    d.flags = c.flags := by
  cases h with
  | leadingModifier hn hl _ => exact absurd ⟨_, _, hn, hl, rfl⟩ hp
  | _ => rfl

end Builtin

/-- A scan goes the same way from turns that the look-up does not tell apart: the relation between
the two turns is kept round by round. -/
theorem scanFrom_of_related {lookup : Lookup} {pattern : Text} {R : Turn → Turn → Prop}
    (h : ∀ position rest scope t u, R t u →
      (lookup pattern position rest scope t).1 = (lookup pattern position rest scope u).1 ∧
        R (lookup pattern position rest scope t).2 (lookup pattern position rest scope u).2)
    (rounds position : Nat) (rest : Text) (scope : Scope) {t u : Turn} (htu : R t u)
    (done : List Segment) :
    (scanFrom lookup pattern rounds position rest scope t done).1 =
        (scanFrom lookup pattern rounds position rest scope u done).1 ∧
      R (scanFrom lookup pattern rounds position rest scope t done).2
        (scanFrom lookup pattern rounds position rest scope u done).2 := by
  induction rounds generalizing position rest scope t u done with
  | zero => cases rest <;> exact ⟨rfl, htu⟩
  | succ rounds ih =>
    cases rest with
    | nil => exact ⟨rfl, htu⟩
    | cons c r =>
      simp only [scanFrom]
      have hround := h position (c :: r) scope t u htu
      rcases ht : lookup pattern position (c :: r) scope t with ⟨answer, t'⟩
      rcases hu : lookup pattern position (c :: r) scope u with ⟨answer', u'⟩
      rw [ht, hu] at hround
      obtain ⟨rfl, hafter⟩ : answer = answer' ∧ R t' u' := hround
      rcases answer with e | _ | hit
      · exact ⟨rfl, hafter⟩
      · simp only
        split
        · exact ih _ _ _ hafter _
        · exact ih _ _ _ hafter _
      · exact ih _ _ _ hafter _

/-- What a compilation gives besides the flags: the text it rewrites to, the names of the groups and
whether there is a named one. -/
def Compiled.unflagged (c : Compiled) : Text × List (Option Text) × Bool :=
  (c.rewritten, c.context.names, c.context.named)

namespace Registry

variable {pattern rest letters : Text} {flags : Flags} {c : Compiled}

/-- Two compilations that agree on `n`, `s` and `x` differ in their flags only. -/
theorem compile_of_modes {f g : Flags} (h : ∀ m ∈ ['n', 's', 'x'], f.has m = g.has m)
    (pattern : Text) :
    (builtin.compile pattern f).map Compiled.unflagged =
      (builtin.compile pattern g).map Compiled.unflagged := by
  have hscan := scanFrom_of_related (R := fun t u => t.context.Alike u.context)
    (fun position rest scope t u htu => Builtin.lookup_of_alike htu pattern position rest scope)
      pattern.length 0
    pattern .outsideClass (t := ⟨.start f, false⟩) (u := ⟨.start g, false⟩)
      (Context.Alike.start h) []
  rw [← scan, ← scan] at hscan
  rw [compile_builtin, compile_builtin]
  rcases hf : scan Builtin.lookup pattern ⟨.start f, false⟩ with ⟨pieces, t⟩
  rcases hg : scan Builtin.lookup pattern ⟨.start g, false⟩ with ⟨pieces', u⟩
  rw [hf, hg] at hscan
  obtain ⟨rfl, halike⟩ : pieces = pieces' ∧ t.context.Alike u.context := hscan
  cases pieces with
  | error e => rfl
  | ok l => simp [Except.map, Compiled.unflagged, halike.names, halike.named]

theorem flags_of_modifier (hn : letters ≠ []) (hl : ∀ m ∈ letters, Builtin.isModifier m = true)
    (h : builtin.compile (['(', '?'] ++ letters ++ [')'] ++ rest) flags = .ok c) :
    c.context.flags = letters.foldl Flags.add flags := by
  have hposition : Text.bytes (['(', '?'] ++ letters ++ [')']) ≠ 0 :=
    Nat.ne_of_gt (Text.bytes_pos_of_ne_nil (by simp))
  rw [compile_behindModifier hn hl] at h
  split at h
  · next pieces turn hscan =>
    obtain ⟨t, run, -, rfl⟩ := scan_eq_ok_iff.1 hscan
    obtain rfl := Except.ok.inj h
    exact run.flags_eq (.inr rfl) hposition
  · exact absurd h (by simp)

theorem flags_of_not_modifier (hp : ¬BeginsWithModifier pattern)
    (h : builtin.compile pattern flags = .ok c) :
    c.context.flags = flags := by
  obtain ⟨l, t, run, ht, rfl⟩ := exists_run_of_compile h
  cases run with
  | done => rfl
  | @round _ s _ piece l hstep run =>
    obtain ⟨hreads, -⟩ := Builtin.reads_of_step (.inr rfl) hstep
    obtain ⟨hrest, -⟩ := rest_of_step hstep
    have hfirst : s.turn.context.flags = flags := hreads.flags_eq (hrest ▸ hp)
    exact (run.flags_eq_of_step hstep (.inr rfl)).trans hfirst

/-- The flags that a compilation does not act on have no part in it, and only a modifier at the very
start changes any. With flags that agree on `n`, `s` and `x` a pattern gives the same error, or the
same text and names; the flags at the end are the given ones with the letters of the modifier that
the pattern begins with, if it begins with one. -/
theorem compile_flags (pattern : Text) :
    (∀ f g : Flags, (∀ m ∈ ['n', 's', 'x'], f.has m = g.has m) →
      (builtin.compile pattern f).map Compiled.unflagged =
        (builtin.compile pattern g).map Compiled.unflagged) ∧
    ∀ (f : Flags) (c : Compiled), builtin.compile pattern f = .ok c →
      (∀ letters rest, letters ≠ [] → (∀ m ∈ letters, m ∈ ['i', 'm', 'n', 's', 'x']) →
        pattern = ['(', '?'] ++ letters ++ [')'] ++ rest →
        ∀ m, c.context.flags.has m = (letters.contains m || f.has m)) ∧
      ((∀ letters rest, letters ≠ [] → (∀ m ∈ letters, m ∈ ['i', 'm', 'n', 's', 'x']) →
        pattern ≠ ['(', '?'] ++ letters ++ [')'] ++ rest) → c.context.flags = f) := by
  refine ⟨fun f g h => compile_of_modes h pattern, fun f c hc => ⟨?_, fun hnone => ?_⟩⟩
  · rintro letters rest hn hl rfl m
    have hm : ∀ m ∈ letters, Builtin.isModifier m = true :=
      fun m h => Builtin.isModifier_iff.2 (hl m h)
    rw [flags_of_modifier hn hm hc, Flags.has_foldl_add]
  · refine flags_of_not_modifier ?_ hc
    rintro ⟨letters, rest, hn, hm, hpattern⟩
    exact hnone letters rest hn (fun m h => Builtin.isModifier_iff.1 (hm m h)) hpattern

/-- A modifier that turns on blanks, before a group, a modifier that comes too late and a class with
a third one; and a pattern that begins with a letter, not with a modifier. -/
theorem compile_flags_late_modifiers :
    ((builtin.compile "(?xi)(a) (?s)[(?n)].".toList ⟨['g'], by decide⟩).map Compiled.unflagged =
        (builtin.compile "(?xi)(a) (?s)[(?n)].".toList ⟨['I', 'm', 'y'], by decide⟩).map
          Compiled.unflagged ∧
      (builtin.compile "(?xi)(a) (?s)[(?n)].".toList ⟨['g'], by decide⟩).map Compiled.unflagged =
        .ok ("(a)(?:)(?s)[(?n)].".toList, [none], false)) ∧
    (∃ c, builtin.compile "(?xi)(a) (?s)[(?n)].".toList ⟨['I', 'm', 'y'], by decide⟩ = .ok c ∧
      ∀ m, c.context.flags.has m = (['x', 'i'].contains m || ['I', 'm', 'y'].contains m)) ∧
    ∃ c, builtin.compile "a(?n)(b)".toList ⟨['y'], by decide⟩ = .ok c ∧ c.context.flags =
      ⟨['y'], by decide⟩ := by
  have hc : builtin.compile "(?xi)(a) (?s)[(?n)].".toList ⟨['I', 'm', 'y'], by decide⟩ =
      .ok ⟨"(a)(?:)(?s)[(?n)].".toList,
        ⟨⟨['I', 'i', 'm', 'x', 'y'], by decide⟩, [none], false⟩⟩ := by
    rw [compile_builtin]
    rfl
  have hd : builtin.compile "a(?n)(b)".toList ⟨['y'], by decide⟩ =
      .ok ⟨"a(?n)(b)".toList, ⟨⟨['y'], by decide⟩, [none], false⟩⟩ := by
    rw [compile_builtin]
    rfl
  obtain ⟨hagree, hflags⟩ := compile_flags "(?xi)(a) (?s)[(?n)].".toList
  have hsame := hagree ⟨['g'], by decide⟩ ⟨['I', 'm', 'y'], by decide⟩ (by simp [Flags.has])
  refine ⟨⟨hsame, hsame.trans (by rw [hc]; rfl)⟩, ⟨_, hc, ?_⟩, _, hd, ?_⟩
  · exact (hflags _ _ hc).1 ['x', 'i'] "(a) (?s)[(?n)].".toList (by simp) (by simp) rfl
  · refine ((compile_flags "a(?n)(b)".toList).2 _ _ hd).2 fun letters rest _ _ h => ?_
    exact absurd (congrArg List.head? h) (by simp)

end Registry
end RegexDialect
