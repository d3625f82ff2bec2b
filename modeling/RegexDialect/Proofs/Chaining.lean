import Mathlib.Data.List.Forall2
import RegexDialect.Baseline.Engine
import RegexDialect.Chain
import RegexDialect.Proofs.Patterns

/-! Chains compose. A chain goes through its stages with all values at once, and gives what each
value would give on its own, one after the other; only which of several errors it meets first may
differ. -/
namespace RegexDialect

/-- Results without an error are answers throughout. -/
theorem untilError_eq_iff {α : Type} {l : List (Except Error α)} {as : List α} :
    untilError l = (as, none) ↔ l = as.map .ok := by
  induction l generalizing as with
  | nil => simp [untilError, eq_comm]
  | cons r l ih =>
    cases r with
    | error e => cases as <;> simp [untilError]
    | ok a =>
      rcases hl : untilError l with ⟨bs, e⟩
      cases as with
      | nil => simp [untilError, hl]
      | cons b as => simp [untilError, hl, ← ih, and_assoc]

namespace Stage

variable {s : Stage} {text : Text} {values more vs : List Text}

theorem values_eq_ok_iff : s.values text = .ok vs ↔
    ∃ ms : List Match, s.pattern.results text = ms.map .ok ∧ vs = ms.map s.extract := by
  simp only [← untilError_eq_iff, Stage.values]
  rcases untilError (s.pattern.results text) with ⟨ms, _ | e⟩
  · simp [eq_comm]
  · simp

theorem valuesOfAll_singleton (s : Stage) (text : Text) : s.valuesOfAll [text] = s.values text := by
  simp only [valuesOfAll]
  cases s.values text with
  | error e => rfl
  | ok vs => simp [bind, Except.bind]

theorem valuesOfAll_append (s : Stage) (values more : List Text) : s.valuesOfAll (values ++ more) =
    s.valuesOfAll values >>= fun first => s.valuesOfAll more >>= fun last =>
      .ok (first ++ last) := by
  induction values with
  | nil => cases h : s.valuesOfAll more <;> simp [valuesOfAll, h, bind, Except.bind]
  | cons t values ih =>
    simp only [List.cons_append, valuesOfAll, ih]
    cases s.values t <;> cases s.valuesOfAll values <;> cases s.valuesOfAll more <;>
      simp [bind, Except.bind]

theorem valuesOfAll_eq_nil (h : ∀ t ∈ values, s.pattern.results t = []) :
    s.valuesOfAll values = .ok [] := by
  induction values with
  | nil => rfl
  | cons t values ih =>
    have hfirst : s.values t = .ok [] := values_eq_ok_iff.2 ⟨[], h t (by simp), rfl⟩
    rw [valuesOfAll, hfirst, ih fun t ht => h t (by simp [ht])]
    rfl

end Stage

section Chains

variable {s : Stage} {stages first last : List Stage} {text : Text} {values more r : List Text}

theorem chainFrom_empty (stages : List Stage) : chainFrom [] stages = .ok [] := by
  cases stages <;> rfl

/-- That a chain ends early when a stage finds nothing makes no difference. -/
theorem chainFrom_cons (values : List Text) (s : Stage) (stages : List Stage) :
    chainFrom values (s :: stages) = s.valuesOfAll values >>= fun next =>
      chainFrom next stages := by
  rw [chainFrom]
  congr 1
  funext next
  cases next with
  | nil => exact (chainFrom_empty stages).symm
  | cons t next => rfl

/-- Stages that follow others start with what those find. -/
theorem chainFrom_append_stages (values : List Text) (first last : List Stage) :
    chainFrom values (first ++ last) = chainFrom values first >>= fun found =>
      chainFrom found last := by
  induction first generalizing values with
  | nil => rfl
  | cons s first ih =>
    rw [List.cons_append, chainFrom_cons, chainFrom_cons]
    cases s.valuesOfAll values with
    | error e => rfl
    | ok next => exact ih next

/-- Values go through the stages apart from one another. -/
theorem chainFrom_append_values_iff : chainFrom (values ++ more) stages = .ok r ↔
    ∃ a b, chainFrom values stages = .ok a ∧ chainFrom more stages = .ok b ∧ r = a ++ b := by
  induction stages generalizing values more with
  | nil => simp [chainFrom, eq_comm]
  | cons s stages ih =>
    simp only [chainFrom_cons, Stage.valuesOfAll_append]
    constructor
    · intro h
      obtain ⟨next, hnext, h⟩ := exists_of_bind_eq_ok h
      obtain ⟨u, hu, hnext⟩ := exists_of_bind_eq_ok hnext
      obtain ⟨v, hv, hnext⟩ := exists_of_bind_eq_ok hnext
      obtain rfl := Except.ok.inj hnext
      rw [hu, hv]
      exact ih.1 h
    · rintro ⟨a, b, ha, hb, rfl⟩
      obtain ⟨u, hu, ha⟩ := exists_of_bind_eq_ok ha
      obtain ⟨v, hv, hb⟩ := exists_of_bind_eq_ok hb
      rw [hu, hv]
      exact ih.2 ⟨a, b, ha, hb, rfl⟩

/-- A chain gives what it gives for each value, one after the other. -/
theorem chainFrom_eq_ok_iff : chainFrom values stages = .ok r ↔
    ∃ rs, List.Forall₂ (fun t found => matchChain t stages = .ok found) values rs ∧
      r = rs.flatten := by
  induction values generalizing r with
  | nil => simp [chainFrom_empty, eq_comm]
  | cons t values ih =>
    rw [← List.singleton_append, chainFrom_append_values_iff]
    constructor
    · rintro ⟨a, b, ha, hb, rfl⟩
      obtain ⟨rs, hrs, rfl⟩ := ih.1 hb
      exact ⟨a :: rs, .cons ha hrs, rfl⟩
    · rintro ⟨rs, hrs, rfl⟩
      cases hrs with
      | @cons _ a _ rs ha hrs => exact ⟨a, rs.flatten, ha, ih.2 ⟨rs, hrs, rfl⟩, rfl⟩

theorem chainFrom_append_eq_ok_iff : chainFrom values (first ++ last) = .ok r ↔
    ∃ found rs, chainFrom values first = .ok found ∧
      List.Forall₂ (fun t found => matchChain t last = .ok found) found rs ∧ r = rs.flatten := by
  rw [chainFrom_append_stages]
  constructor
  · intro h
    obtain ⟨found, hfound, h⟩ := exists_of_bind_eq_ok h
    obtain ⟨rs, hrs, hr⟩ := chainFrom_eq_ok_iff.1 h
    exact ⟨found, rs, hfound, hrs, hr⟩
  · rintro ⟨found, rs, hfound, hrs, hr⟩
    rw [hfound]
    exact chainFrom_eq_ok_iff.2 ⟨rs, hrs, hr⟩

theorem chainFrom_of_nothing {found : List Text} (hfound : chainFrom values first = .ok found)
    (h : ∀ t ∈ found, s.pattern.results t = []) :
      chainFrom values (first ++ s :: last) = .ok [] := by
  rw [chainFrom_append_stages, hfound]
  change chainFrom found (s :: last) = .ok []
  rw [chainFrom_cons, Stage.valuesOfAll_eq_nil h]
  exact chainFrom_empty last

theorem matchChain_singleton (text : Text) (s : Stage) : matchChain text [s] = s.values text := by
  rw [matchChain, chainFrom_cons, Stage.valuesOfAll_singleton]
  cases s.values text <;> rfl

/-- Chains compose: stages behind others go on with each value that those found, and the answers
stand in the order of the values. When they fail for one of the values, the whole chain fails. A
stage that finds nothing in any of its values ends the chain without a value, whatever follows; else
it gives one value, perhaps an empty one, for every match. -/
theorem matchChain_append (text : Text) (first last : List Stage) :
    (∀ r, matchChain text (first ++ last) = .ok r ↔ ∃ found rs, matchChain text first = .ok found ∧
      List.Forall₂ (fun t values => matchChain t last = .ok values) found rs ∧ r = rs.flatten) ∧
    ((∀ found, matchChain text first = .ok found → ∃ t ∈ found, ∃ e, matchChain t last = .error e) →
      ∃ e, matchChain text (first ++ last) = .error e) ∧
    (∀ s found, matchChain text first = .ok found → (∀ t ∈ found, s.pattern.results t = []) →
      matchChain text (first ++ s :: last) = .ok []) ∧
    ∀ s t values, matchChain t [s] = .ok values ↔
      ∃ ms : List Match, s.pattern.results t = ms.map .ok ∧ values = ms.map s.extract := by
  refine ⟨fun r => chainFrom_append_eq_ok_iff, fun hfails => ?_, fun s found =>
    chainFrom_of_nothing, ?_⟩
  · cases h : matchChain text (first ++ last) with
    | error e => exact ⟨e, rfl⟩
    | ok r =>
      obtain ⟨found, rs, hfound, hrs, -⟩ := chainFrom_append_eq_ok_iff.1 h
      obtain ⟨t, ht, e, he⟩ := hfails found hfound
      obtain ⟨i, rfl⟩ := List.get_of_mem ht
      have hvalues := hrs.get i.isLt (hrs.length_eq ▸ i.isLt)
      exact absurd (he.symm.trans hvalues) (by simp)
  · intro s t values
    rw [matchChain_singleton]
    exact Stage.values_eq_ok_iff

/-- A group that took no part, a stage with no match in front of one that fails, and the failing
stage behind values. -/
theorem matchChain_append_groups : ∃ pairs digits failing,
    Pattern.make Baseline.engine "(\\w)=(\\d+)?".toList [] = .ok pairs ∧
    Pattern.make Baseline.engine "\\d".toList [] = .ok digits ∧
    Pattern.build Baseline.engine .builtin "(?=[a1])(?:a|1)*c".toList [] (some 1) = .ok failing ∧
    matchChain "a=12,b=".toList [⟨pairs, some (.number 2)⟩] = .ok [['1', '2'], []] ∧
    matchChain "a=12,b=".toList ([⟨pairs, some (.number 2)⟩] ++ [⟨digits, none⟩]) =
      .ok [['1'], ['2']] ∧
    (∃ e, matchChain "a=12,b=".toList ([⟨pairs, some (.number 2)⟩] ++ [⟨failing, none⟩]) =
      .error e) ∧
    matchChain "a=12,b=".toList
      ([⟨pairs, some (.number 2)⟩] ++ ⟨pairs, none⟩ :: [⟨failing, none⟩]) = .ok [] := by
  have hrun : ((Pattern.make Baseline.engine "(\\w)=(\\d+)?".toList []).toOption.any fun pairs =>
      (Pattern.make Baseline.engine "\\d".toList []).toOption.any fun digits =>
        (Pattern.build Baseline.engine .builtin "(?=[a1])(?:a|1)*c".toList [] (some 1)).toOption.any
          fun failing =>
          (matchChain "a=12,b=".toList [⟨pairs, some (.number 2)⟩]).toOption == some
            [['1', '2'], []] &&
          (matchChain ['1', '2'] [⟨digits, none⟩]).toOption == some [['1'], ['2']] &&
          (matchChain [] [⟨digits, none⟩]).toOption == some [] &&
          (matchChain ['1', '2'] [⟨failing, none⟩]).toOption == none &&
          (pairs.results ['1', '2']).isEmpty && (pairs.results []).isEmpty) = true := by
    decide +kernel
  obtain ⟨pairs, hpairs, hrun⟩ := exists_of_any_toOption hrun
  obtain ⟨digits, hdigits, hrun⟩ := exists_of_any_toOption hrun
  obtain ⟨failing, hfailing, hrun⟩ := exists_of_any_toOption hrun
  simp only [Bool.and_eq_true, beq_iff_eq, List.isEmpty_iff, toOption_eq_some_iff,
    toOption_eq_none_iff] at hrun
  obtain ⟨⟨⟨⟨⟨hfound, htwo⟩, hnone⟩, hfails⟩, hnothing⟩, hempty⟩ := hrun
  refine ⟨pairs, digits, failing, hpairs, hdigits, hfailing, hfound, ?_, ?_, ?_⟩
  · exact ((matchChain_append _ _ _).1 _).2 ⟨_, _, hfound, .cons htwo (.cons hnone .nil), rfl⟩
  · refine (matchChain_append _ _ _).2.1 fun found h => ⟨['1', '2'], ?_, hfails⟩
    simp [Except.ok.inj (h.symm.trans hfound)]
  · refine (matchChain_append _ _ _).2.2.1 _ _ hfound ?_
    simp [hnothing, hempty]

end Chains
end RegexDialect
