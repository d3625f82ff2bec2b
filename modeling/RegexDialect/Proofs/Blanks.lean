import RegexDialect.Unicode.Letters

/-! No blank is a word character. -/
namespace RegexDialect.Unicode

/-- The blanks beyond the ASCII ones, with the blocks of the category table that they are in. -/
def blankBlocks : List ((Nat × String) × List Nat) := [
  ((0x7C, "Sm1Pe1Sm1Cc33Zs1Po1Sc4So1Po1Sk1So1Lo1Pi1Sm1Cf1So1Sk1So1Sm1No2Sk1Ll1Po2Sk1No1Lo1"),
    [0x85, 0xA0]),
  ((0x1369, "No20Cn3Lo16So10Cn6Lu86Cn2Ll6Cn2Pd1Lo620So1Po1Lo17Zs1Lo26Ps1Pe1Cn3Lo75Po3Nl3Lo8"),
    [0x1680]),
  ((0x1FED, "Sk3Cn2Ll3Cn1Ll2Lu4Lt1Sk2Cn1Zs11Cf5Pd6Po2Pi1Pf1Ps1Pi2Pf1Ps1Pi1Po8Zl1Zp1Cf5Zs1Po9"),
    [0x2000, 0x2001, 0x2002, 0x2003, 0x2004, 0x2005, 0x2006, 0x2007, 0x2008, 0x2009, 0x200A, 0x2028,
      0x2029, 0x202F]),
  ((0x2039, "Pi1Pf1Po4Pc2Po3Sm1Ps1Pe1Po11Sm1Po1Pc1Po10Zs1Cf5Cn1Cf10No1Lm1Cn2No6Sm3Ps1Pe1Lm1"),
    [0x205F]),
  ((0x2E80, "So26Cn1So89Cn12So214Cn26So12Cn4Zs1Po3So1Lm1Lo1Nl1Ps1Pe1Ps1Pe1Ps1Pe1Ps1Pe1Ps1Pe1"),
    [0x3000])]

theorem exists_blankBlock {c : Char} (h : isBlank c = true) (hc : 128 ≤ c.toNat) :
    ∃ b ∈ blankBlocks, c.toNat ∈ b.2 := by
  simp only [isBlank, inRanges, blankRanges, List.any_cons, List.any_nil, Bool.or_false,
    Bool.or_eq_true, Bool.and_eq_true, decide_eq_true_eq] at h
  simp only [blankBlocks, List.mem_cons, List.not_mem_nil, or_false, exists_eq_or_imp,
    exists_eq_left]
  omega

theorem categoryBlock_of_blank :
    ∀ b ∈ blankBlocks, ∀ n ∈ b.2, categoryBlock categoryBlocks n (0, "") = b.1 := by
  decide +kernel

theorem categoryInBlock_of_blank : ∀ b ∈ blankBlocks, ∀ n ∈ b.2,
    categoryInBlock b.1.2.length b.1.2.toList (n - b.1.1) ∈ [Category.cc, .zs, .zl, .zp] := by
  decide +kernel

theorem category_of_isBlank {c : Char} (h : isBlank c = true) (hc : 128 ≤ c.toNat) :
    category c ∈ [Category.cc, .zs, .zl, .zp] := by
  obtain ⟨b, hb, hn⟩ := exists_blankBlock h hc
  have hm := categoryInBlock_of_blank b hb c.toNat hn
  rw [← categoryBlock_of_blank b hb c.toNat hn] at hm
  exact hm

theorem isWord_of_isBlank {c : Char} (h : isBlank c = true) : isWord c = false := by
  by_cases hc : c.toNat < 128
  · have ascii : ∀ n < 128, inRanges blankRanges n = true →
        ((Char.ofNat n).isAlphanum || Char.ofNat n == '_') = false := by decide
    have h := ascii c.toNat hc h
    rwa [isWord_of_ascii hc, ← Char.ofNat_toNat c]
  · obtain ⟨b, hb, hn⟩ := exists_blankBlock h (by omega)
    have hk := category_of_isBlank h (by omega)
    have ha : inRanges otherAlphabetic c.toNat = false :=
      (by decide +kernel : ∀ b ∈ blankBlocks, ∀ n ∈ b.2, inRanges otherAlphabetic n = false) b hb _
        hn
    have hj : c.toNat ≠ 0x200C ∧ c.toNat ≠ 0x200D :=
      (by decide : ∀ b ∈ blankBlocks, ∀ n ∈ b.2, n ≠ 0x200C ∧ n ≠ 0x200D) b hb _ hn
    simp only [List.mem_cons, List.not_mem_nil, or_false] at hk
    rcases hk with hk | hk | hk | hk <;>
      simp [isWord, isAlphabetic, hc, hk, ha, hj, Category.isLetter, Category.isMark]
end RegexDialect.Unicode
