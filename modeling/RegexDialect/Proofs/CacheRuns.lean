import RegexDialect.Baseline.Engine
import RegexDialect.Cache
import RegexDialect.Proofs.Patterns

/-! Runs of the store of compiled patterns. The store stays small and answers as the compiler does;
two answers are the same compilation when they are for the same key and the store was not emptied in
between. -/
namespace RegexDialect
namespace Cache

open Baseline

def after (engine : Engine) : Cache → List (Text × Text) → Cache
  | c, [] => c
  | c, key :: keys => after engine (c.get engine key.1 key.2).2 keys

def StartsOver (engine : Engine) (c : Cache) (key : Text × Text) : Prop :=
  c.size = 256 ∧ c.find? key.1 key.2 = none ∧ ∃ p, Pattern.make engine key.1 key.2 = .ok p

def Keeps (engine : Engine) : Cache → List (Text × Text) → Prop
  | _, [] => True
  | c, key :: keys => ¬c.StartsOver engine key ∧ Keeps engine (c.get engine key.1 key.2).2 keys

variable {engine : Engine} {c d : Cache} {key other : Text × Text} {keys : List (Text × Text)}
  {e first second : CacheEntry} {entry : (Text × Text) × CacheEntry}
  {answer : Except Error CacheEntry} {n : Nat}

theorem mem_of_find? (h : c.find? key.1 key.2 = some e) : (key, e) ∈ c.entries := by
  obtain ⟨found, hfound, rfl⟩ := Option.map_eq_some_iff.1 h
  have hkey := List.find?_some hfound
  rw [beq_iff_eq] at hkey
  rw [← show found.1 = key from hkey]
  exact List.mem_of_find?_eq_some hfound

theorem find?_eq_none_iff : c.find? key.1 key.2 = none ↔ ∀ entry ∈ c.entries, entry.1 ≠ key := by
  simp only [find?, Option.map_eq_none_iff, List.find?_eq_none, beq_iff_eq, ne_eq]

/-- What a call answers and the store after it: a stored pattern, an error, or a new pattern, which
is then stored. -/
inductive Answers (engine : Engine) (c : Cache) (key : Text × Text) :
    Except Error CacheEntry × Cache → Prop
  | stored {e : CacheEntry} (h : (key, e) ∈ c.entries) : Answers engine c key (.ok e, c)
  | refused {fault : Error} (hn : c.find? key.1 key.2 = none)
      (h : Pattern.make engine key.1 key.2 = .error fault) : Answers engine c key (.error fault, c)
  | made {p : Pattern} (hn : c.find? key.1 key.2 = none)
    (h : Pattern.make engine key.1 key.2 = .ok p) :
      Answers engine c key (.ok ⟨c.issued, p⟩,
        ⟨(key, ⟨c.issued, p⟩) :: if 256 ≤ c.size then [] else c.entries, c.issued + 1⟩)

theorem answers_get (engine : Engine) (c : Cache) (key : Text × Text) :
    c.Answers engine key (c.get engine key.1 key.2) := by
  rw [get]
  cases hf : c.find? key.1 key.2 with
  | some e => exact .stored (mem_of_find? hf)
  | none =>
    cases hm : Pattern.make engine key.1 key.2 with
    | error fault => exact .refused hf hm
    | ok p =>
      simp only [insert, hf]
      exact .made hf hm

/-- What holds of the store at all times: it is bounded, every entry is what its key compiles to,
and neither a key nor a number is stored twice. -/
structure Sound (engine : Engine) (c : Cache) : Prop where
  bounded : c.size ≤ 256
  made : ∀ entry ∈ c.entries, Pattern.make engine entry.1.1 entry.1.2 = .ok entry.2.pattern
  issued : ∀ entry ∈ c.entries, entry.2.number < c.issued
  distinct : ∀ a ∈ c.entries, ∀ b ∈ c.entries, a.1 = b.1 ∨ a.2.number = b.2.number → a = b

theorem sound_empty (engine : Engine) : Sound engine empty where
  bounded := Nat.zero_le _
  made := by simp [empty]
  issued := by simp [empty]
  distinct := by simp [empty]

theorem length_kept_lt (c : Cache) : (if 256 ≤ c.size then [] else c.entries).length < 256 := by
  split
  · decide
  · next h => exact Nat.lt_of_not_le h

theorem mem_kept (h : entry ∈ if 256 ≤ c.size then [] else c.entries) : entry ∈ c.entries := by
  split at h
  · exact absurd h (by simp)
  · exact h

/-- A new entry has a key and a number that no stored entry has. -/
theorem Sound.get (hs : c.Sound engine) (key : Text × Text) :
    Sound engine (c.get engine key.1 key.2).2 := by
  rcases hg : c.get engine key.1 key.2 with ⟨answer, d⟩
  have h := answers_get engine c key
  rw [hg] at h
  cases h with
  | stored => exact hs
  | refused => exact hs
  | @made p hn hp =>
    have hkey := find?_eq_none_iff.1 hn
    refine ⟨?_, ?_, ?_, ?_⟩
    · exact length_kept_lt c
    · intro entry hentry
      rcases List.mem_cons.1 hentry with rfl | hentry
      · exact hp
      · exact hs.made entry (mem_kept hentry)
    · intro entry hentry
      rcases List.mem_cons.1 hentry with rfl | hentry
      · exact Nat.lt_succ_self _
      · exact Nat.lt_succ_of_lt (hs.issued entry (mem_kept hentry))
    · intro a ha b hb hab
      rcases List.mem_cons.1 ha with rfl | ha <;> rcases List.mem_cons.1 hb with rfl | hb
      · rfl
      · have hb := mem_kept hb
        have := hs.issued b hb
        rcases hab with hab | hab
        · exact absurd hab.symm (hkey b hb)
        · simp only at hab
          omega
      · have ha := mem_kept ha
        have := hs.issued a ha
        rcases hab with hab | hab
        · exact absurd hab (hkey a ha)
        · simp only at hab
          omega
      · exact hs.distinct a (mem_kept ha) b (mem_kept hb) hab

theorem Sound.after (hs : c.Sound engine) (keys : List (Text × Text)) :
    Sound engine (c.after engine keys) := by
  induction keys generalizing c with
  | nil => exact hs
  | cons key keys ih => exact ih (hs.get key)

theorem after_append (engine : Engine) (c : Cache) (keys more : List (Text × Text)) :
    c.after engine (keys ++ more) = (c.after engine keys).after engine more := by
  induction keys generalizing c with
  | nil => rfl
  | cons key keys ih => exact ih _

theorem mem_get (h : (c.get engine key.1 key.2).1 = .ok e) :
    (key, e) ∈ (c.get engine key.1 key.2).2.entries := by
  rcases hg : c.get engine key.1 key.2 with ⟨answer, d⟩
  have ha := answers_get engine c key
  rw [hg] at h ha
  cases ha with
  | stored hmem =>
    simp only [Except.ok.injEq] at h
    exact h ▸ hmem
  | refused => simp at h
  | made =>
    simp only [Except.ok.injEq] at h
    simp [h]

theorem mem_get_of_not_startsOver (hs : c.Sound engine) (hk : ¬c.StartsOver engine key)
    (h : entry ∈ c.entries) :
    entry ∈ (c.get engine key.1 key.2).2.entries := by
  rcases hg : c.get engine key.1 key.2 with ⟨answer, d⟩
  have ha := answers_get engine c key
  rw [hg] at ha
  cases ha with
  | stored => exact h
  | refused => exact h
  | @made p hn hp =>
    have hroom : ¬256 ≤ c.size := fun hfull => hk ⟨Nat.le_antisymm hs.bounded hfull, hn, p, hp⟩
    simp [hroom, h]

theorem mem_after_of_keeps (hs : c.Sound engine) (hk : c.Keeps engine keys)
    (h : entry ∈ c.entries) :
    entry ∈ (c.after engine keys).entries := by
  induction keys generalizing c with
  | nil => exact h
  | cons key keys ih => exact ih (hs.get key) hk.2 (mem_get_of_not_startsOver hs hk.1 h)

/-- Number `n` was given out, and nothing that is stored is that old. -/
structure Beyond (n : Nat) (c : Cache) : Prop where
  issued : n < c.issued
  younger : ∀ entry ∈ c.entries, n < entry.2.number

theorem issued_le_get (engine : Engine) (c : Cache) (key : Text × Text) :
    c.issued ≤ (c.get engine key.1 key.2).2.issued := by
  rcases hg : c.get engine key.1 key.2 with ⟨answer, d⟩
  have ha := answers_get engine c key
  rw [hg] at ha
  cases ha with
  | stored => exact Nat.le_refl _
  | refused => exact Nat.le_refl _
  | made => exact Nat.le_succ _

theorem Beyond.get (h : Beyond n c) (engine : Engine) (key : Text × Text) :
    Beyond n (c.get engine key.1 key.2).2 := by
  refine ⟨Nat.lt_of_lt_of_le h.issued (issued_le_get engine c key), ?_⟩
  rcases hg : c.get engine key.1 key.2 with ⟨answer, d⟩
  have ha := answers_get engine c key
  rw [hg] at ha
  cases ha with
  | stored => exact h.younger
  | refused => exact h.younger
  | made =>
    intro entry hentry
    rcases List.mem_cons.1 hentry with rfl | hentry
    · exact h.issued
    · exact h.younger entry (mem_kept hentry)

theorem Beyond.after (h : Beyond n c) (engine : Engine) (keys : List (Text × Text)) :
    Beyond n (c.after engine keys) := by
  induction keys generalizing c with
  | nil => exact h
  | cons key keys ih => exact ih (h.get engine key)

theorem beyond_of_startsOver (hn : n < c.issued) (h : c.StartsOver engine key) :
    Beyond n (c.get engine key.1 key.2).2 := by
  obtain ⟨hfull, hnone, p, hp⟩ := h
  refine ⟨Nat.lt_of_lt_of_le hn (issued_le_get engine c key), ?_⟩
  rcases hg : c.get engine key.1 key.2 with ⟨answer, d⟩
  have ha := answers_get engine c key
  rw [hg] at ha
  cases ha with
  | stored hmem => exact absurd rfl (find?_eq_none_iff.1 hnone _ hmem)
  | refused _ hfault => exact absurd (hp.symm.trans hfault) (by simp)
  | made => simpa [hfull] using hn

theorem beyond_of_not_keeps (hn : n < c.issued) (h : ¬c.Keeps engine keys) :
    Beyond n (c.after engine keys) := by
  induction keys generalizing c with
  | nil => exact absurd trivial h
  | cons key keys ih =>
    by_cases hs : c.StartsOver engine key
    · exact (beyond_of_startsOver hn hs).after engine keys
    · exact ih (Nat.lt_of_lt_of_le hn (issued_le_get engine c key)) fun hk => h ⟨hs, hk⟩

/-- An entry and a later answer are the same when the keys are and no call up to the later one
empties the store. -/
theorem same_iff (hs : c.Sound engine) (h : (key, first) ∈ c.entries)
    (hget : ((c.after engine keys).get engine other.1 other.2).1 = .ok second) :
    (first.number = second.number ↔ key = other ∧ c.Keeps engine (keys ++ [other])) ∧
      (first.number = second.number → first = second) := by
  have hsecond : (other, second) ∈ (c.after engine (keys ++ [other])).entries := by
    rw [after_append]
    exact mem_get hget
  by_cases hk : c.Keeps engine (keys ++ [other])
  · have hfirst := mem_after_of_keeps hs hk h
    have hsame := (hs.after (keys ++ [other])).distinct _ hfirst _ hsecond
    refine ⟨⟨fun hn => ⟨congrArg Prod.fst (hsame (.inr hn)), hk⟩, fun hkey => ?_⟩,
      fun hn => congrArg Prod.snd (hsame (.inr hn))⟩
    exact congrArg (fun entry => entry.2.number) (hsame (.inl hkey.1))
  · have hlt : first.number < second.number :=
      (beyond_of_not_keeps (hs.issued _ h) hk).younger _ hsecond
    exact ⟨⟨fun hn => by omega, fun hkey => absurd hkey.2 hk⟩, fun hn => by omega⟩

/-- The store over any run of calls, from an empty one. It never holds more than 256 patterns, each
the one that its key compiles to. A call has the error of the compilation, and leaves the store as
it is, or has the pattern that is made. Two answers are one and the same exactly when they are for
the same key and no call after the first, up to the second, found 256 patterns stored and stored a
new one. -/
theorem bounded_and_transparent (engine : Engine) :
    (∀ calls, (empty.after engine calls).size ≤ 256 ∧
      ∀ entry ∈ (empty.after engine calls).entries,
        Pattern.make engine entry.1.1 entry.1.2 = .ok entry.2.pattern) ∧
    (∀ calls source flags,
      match Pattern.make engine source flags with
      | .error fault =>
        (empty.after engine calls).get engine source flags =
          (.error fault, empty.after engine calls)
      | .ok p =>
        ∃ e, ((empty.after engine calls).get engine source flags).1 = .ok e ∧ e.pattern = p) ∧
    ∀ before key between other first second,
      ((empty.after engine before).get engine key.1 key.2).1 = .ok first →
      ((empty.after engine (before ++ key :: between)).get engine other.1 other.2).1 = .ok second →
      (first.number = second.number ↔
        key = other ∧ (empty.after engine (before ++ [key])).Keeps engine (between ++ [other])) ∧
      (first.number = second.number → first = second) := by
  have hsound : ∀ calls, Sound engine (empty.after engine calls) := (sound_empty engine).after
  refine ⟨fun calls => ⟨(hsound calls).bounded, (hsound calls).made⟩,
    fun calls source flags => ?_, ?_⟩
  · rcases hg : (empty.after engine calls).get engine source flags with ⟨answer, d⟩
    have ha := answers_get engine (empty.after engine calls) (source, flags)
    rw [hg] at ha
    cases ha with
    | @stored e hmem =>
      have hmade := (hsound calls).made _ hmem
      simp only at hmade
      simp [hmade]
    | refused _ hfault =>
      simp only at hfault
      simp [hfault]
    | made _ hp =>
      simp only at hp
      simp [hp]
  · intro before key between other first second hfirst hsecond
    have hmem : (key, first) ∈ (empty.after engine (before ++ [key])).entries := by
      rw [after_append]
      exact mem_get hfirst
    rw [show before ++ key :: between = (before ++ [key]) ++ between by simp,
      after_append] at hsecond
    exact same_iff (hsound (before ++ [key])) hmem hsecond

/-- A call for the same key after one that fails and one with other flags. -/
theorem bounded_and_transparent_again : ∃ first second : CacheEntry,
    ((empty.after Baseline.engine []).get Baseline.engine ['a'] ['i']).1 = .ok first ∧
    ((empty.after Baseline.engine ([] ++ (['a'], ['i']) :: [(['a'], ['!']), (['a'], [])])).get
      Baseline.engine ['a'] ['i']).1 = .ok second ∧
    first = second ∧ second.pattern.rewritten = ['a'] := by
  obtain ⟨p, hp, hrewritten⟩ := exists_of_any_toOption
    (show (Pattern.make Baseline.engine ['a'] ['i']).toOption.any (fun p => p.rewritten == ['a']) =
      true by
      decide +kernel)
  obtain ⟨q, hq, -⟩ := exists_of_any_toOption
    (show (Pattern.make Baseline.engine ['a'] []).toOption.any (fun p => p.rewritten == ['a']) =
      true by decide +kernel)
  have hbad : Pattern.make Baseline.engine ['a'] ['!'] = .error (.invalidFlag '!') := rfl
  have hfirst : ((empty.after Baseline.engine []).get Baseline.engine ['a'] ['i']).1 =
      .ok ⟨0, p⟩ := by
    simp [after, get, find?, empty, insert, hp]
  have hsecond :
      ((empty.after Baseline.engine ([] ++ (['a'], ['i']) :: [(['a'], ['!']), (['a'], [])])).get
      Baseline.engine ['a'] ['i']).1 = .ok ⟨0, p⟩ := by
    simp [after, get, find?, empty, insert, hp, hq, hbad, size, limit]
  have hkeeps : (empty.after Baseline.engine ([] ++ [(['a'], ['i'])])).Keeps Baseline.engine
      ([(['a'], ['!']), (['a'], [])] ++ [(['a'], ['i'])]) := by
    simp [Keeps, StartsOver, after, get, find?, empty, insert, hp, hq, hbad, size, limit]
  have hsame :=
    (bounded_and_transparent Baseline.engine).2.2 [] (['a'], ['i']) [(['a'], ['!']), (['a'], [])]
    (['a'], ['i']) _ _ hfirst hsecond
  exact ⟨_, _, hfirst, hsecond, hsame.2 (hsame.1.2 ⟨rfl, hkeeps⟩), by simpa using hrewritten⟩

end Cache
end RegexDialect
