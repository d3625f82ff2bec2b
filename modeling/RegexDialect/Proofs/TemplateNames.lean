import RegexDialect.Baseline.Engine
import RegexDialect.Proofs.GroupNames
import RegexDialect.Proofs.Patterns
import RegexDialect.Template

/-! Names of groups in replacement templates. A name in braces stands for its group when the
template reads it as a name, which is not so for every name that a pattern can give to a group. -/
namespace RegexDialect

namespace TemplatePart

theorem flatMap_render_parseFrom (m : Match) (taken : Nat) (reversed t : Text) :
    (parseFrom taken reversed t).flatMap (render m) =
      reversed.reverse ++ (parseFrom taken [] t).flatMap (render m) := by
  have hliteral : ∀ r : Text, (ofLiteral r).flatMap (render m) = r.reverse := by
    intro r
    cases r with
    | nil => rfl
    | cons c r => simp [ofLiteral, render]
  induction t generalizing taken reversed with
  | nil => cases taken <;> simp [parseFrom, hliteral]
  | cons c r ih =>
    cases taken with
    | succ taken => exact ih taken reversed
    | zero =>
      simp only [parseFrom]
      split
      · split
        · simp [hliteral]
        · rw [ih, ih _ ['$']]
          simp
        · rw [ih, ih _ ['$']]
          simp
      · rw [ih, ih _ [c]]
        simp

theorem parseFrom_reference {t : Text} {part : TemplatePart} {n : Nat}
    (h : reference? t = some (some part, n)) :
    parseFrom 0 [] ('$' :: t) = part :: parseFrom n [] t := by
  simp [parseFrom, h, ofLiteral]

theorem parseFrom_length (a reversed t : Text) :
    parseFrom a.length reversed (a ++ t) = parseFrom 0 reversed t := by
  induction a with
  | nil => rfl
  | cons c a ih => exact ih

theorem bracedName?_of_braces {name : Text} (hn : name ≠ []) (hc : ∀ c ∈ name, c ≠ '}') (t : Text) :
    bracedName? ('\x7b' :: (name ++ '}' :: t)) = if name.all isNameChar then some name
      else none := by
  have hinner : (name ++ '}' :: t).takeWhile (· != '}') = name :=
    Text.takeWhile_run (fun c h => bne_iff_ne.2 (hc c h)) (by simp)
  by_cases hall : name.all isNameChar = true <;> simp [bracedName?, hinner, hn, hall]

end TemplatePart

open TemplatePart

variable {m : Match} {name : Text}

/-- A name in braces is a part of its own when it consists of characters that the template takes for
a name. -/
theorem renderTemplate_braces (hn : name ≠ []) (hc : ∀ c ∈ name, c ≠ '}') :
    renderTemplate m (['$', '\x7b'] ++ name ++ ['}']) =
      if name.all TemplatePart.isNameChar then render m (.braced name)
      else ['$', '\x7b'] ++ renderTemplate m (name ++ ['}']) := by
  have hname := bracedName?_of_braces hn hc []
  have htemplate : ['$', '\x7b'] ++ name ++ ['}'] = '$' :: '\x7b' :: (name ++ ['}']) := by simp
  rw [renderTemplate, parse, htemplate]
  by_cases hall : name.all TemplatePart.isNameChar = true
  · have hend : parseFrom (name.length + 2) [] ('\x7b' :: (name ++ ['}'])) = [] := by
      simpa [parseFrom, ofLiteral] using parseFrom_length ('\x7b' :: (name ++ ['}'])) [] []
    rw [if_pos hall] at hname ⊢
    rw [parseFrom_reference (by rw [reference?, hname]; rfl), hend, List.flatMap_singleton]
  · rw [if_neg hall] at hname ⊢
    have hopen : parseFrom 0 [] ('$' :: '\x7b' :: (name ++ ['}'])) =
        parseFrom 0 ['\x7b', '$'] (name ++ ['}']) := by
      simp [parseFrom, reference?, hname]
    rw [hopen, flatMap_render_parseFrom, renderTemplate, parse]
    rfl

/-- Where only one entry is the one sought, it is the same from both ends. -/
theorem findIdx?_of_count_eq_one {α : Type} [BEq α] [LawfulBEq α] {l : List α} {a : α}
    (h : l.count a = 1) :
    ∃ i < l.length, l.findIdx? (· == a) = some i ∧ l.reverse.findIdx? (· == a) =
      some (l.length - (i + 1)) := by
  have hmem : a ∈ l := List.count_pos_iff.1 (by omega)
  obtain ⟨k, r, rfl, hk⟩ := List.eq_append_cons_of_mem hmem
  have hr : a ∉ r := by
    rw [List.count_append, List.count_cons_self] at h
    exact List.count_eq_zero.1 (by omega)
  have hnone : ∀ {u : List α}, a ∉ u → u.findIdx? (· == a) = none := fun hu =>
    List.findIdx?_eq_none_iff.2 fun x hx => beq_eq_false_iff_ne.2 fun e => hu (e ▸ hx)
  refine ⟨k.length, by simp, ?_, ?_⟩
  · simp [List.findIdx?_append, hnone hk, List.findIdx?_cons]
  · have hlength : r.length = k.length + (r.length + 1) - (k.length + 1) := by omega
    have hreverse : a ∉ r.reverse := fun h => hr (List.mem_reverse.1 h)
    simpa [List.findIdx?_append, hnone hreverse, List.findIdx?_cons] using hlength

theorem Match.exists_group_of_count_eq_one (h : m.names.count (some name) = 1) :
    ∃ n, m.groupIndex name = some n ∧ m.namedGroup name = m.group n := by
  obtain ⟨i, hi, hfirst, hlast⟩ := findIdx?_of_count_eq_one h
  refine ⟨i + 1, by simp [groupIndex, hfirst], ?_⟩
  have hindex : m.names.length - (m.names.length - (i + 1)) = i + 1 := by omega
  rw [namedGroup, hlast]
  simp only [hindex]

theorem render_braced_of_count_eq_one (h : m.names.count (some name) = 1)
    (hd : name.all Char.isDigit = false) :
    render m (.braced name) = (m.namedGroup name).getD [] := by
  obtain ⟨n, hindex, hgroup⟩ := m.exists_group_of_count_eq_one h
  have hnumber : Text.toNat? name = none := by simp [Text.toNat?, hd]
  simp only [render, bracedGroup?, hnumber, hindex, hgroup]

theorem isGroupName_of_make {engine : Baseline.Engine} {source flags : Text} {p : Pattern}
    (h : Pattern.make engine source flags = .ok p) (hn : some name ∈ p.names) :
      IsGroupName name := by
  obtain ⟨f, c, matcher, -, hc, -, rfl⟩ := Pattern.exists_of_make h
  exact Registry.declares_of_compile hc (some name) hn

/-- A template with the name of a single group in braces: it gives the text of the group, or nothing
for a group that took no part, when the template takes the name for one, and else the braces come
out as they are written. -/
theorem renderTemplate_groupName {engine : Baseline.Engine} {source flags text : Text}
    {position : Nat} {sticky : Bool} {p : Pattern} (hp : Pattern.make engine source flags = .ok p)
    (hm : p.execAt text position sticky = .ok (some m)) (hn : p.names.count (some name) = 1) :
    renderTemplate m (['$', '\x7b'] ++ name ++ ['}']) =
      if name.all TemplatePart.isNameChar then (m.namedGroup name).getD []
      else ['$', '\x7b'] ++ renderTemplate m (name ++ ['}']) := by
  have hname := isGroupName_of_make hp (List.count_pos_iff.1 (hn ▸ Nat.one_pos))
  obtain ⟨-, span, groups, -, rfl⟩ := Pattern.exists_of_execAt hm
  have hclosing : ∀ c ∈ name, c ≠ '}' := by
    rintro c hc rfl
    exact absurd (hname.chars _ hc) (by decide)
  rw [renderTemplate_braces hname.nonempty hclosing,
    render_braced_of_count_eq_one hn hname.notNumber]

theorem renderTemplate_groupName_combining :
    ∃ p m, Pattern.make Baseline.engine "(?<e\u0301>x)".toList [] = .ok p ∧
      p.execAt "x".toList 0 false = .ok (some m) ∧ p.names.count (some "e\u0301".toList) = 1 ∧
      m.namedGroup "e\u0301".toList = some ['x'] ∧
      renderTemplate m (['$', '\x7b'] ++ "e\u0301".toList ++ ['}']) =
        ['$', '\x7b'] ++ "e\u0301".toList ++ ['}'] := by
  have hrun : ((Pattern.make Baseline.engine "(?<e\u0301>x)".toList []).toOption.any fun p =>
      (p.execAt "x".toList 0 false).toOption.any fun found => found.any fun m =>
        p.names.count (some "e\u0301".toList) == 1 && m.namedGroup "e\u0301".toList == some ['x']) =
          true := by
    decide +kernel
  obtain ⟨p, hp, hfound⟩ := exists_of_any_toOption hrun
  obtain ⟨found, hm, hmatch⟩ := exists_of_any_toOption hfound
  obtain ⟨m, rfl, htests⟩ := (Option.any_eq_true _ _).1 hmatch
  simp only [Bool.and_eq_true, beq_iff_eq] at htests
  refine ⟨p, m, hp, hm, htests.1, htests.2, ?_⟩
  have hletters : "e\u0301".toList.all TemplatePart.isNameChar = false := by decide +kernel
  rw [renderTemplate_groupName hp hm htests.1, hletters]
  rfl

end RegexDialect
