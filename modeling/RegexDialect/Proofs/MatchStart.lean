import RegexDialect.Proofs.AnchoredAutomaton
import RegexDialect.Proofs.AnchoredMachine
import RegexDialect.Proofs.GroupNumbers

/-! Where a match starts. A match of an expression that is tied to the start of the text starts
there, unless a part of the expression moves the start of the match. -/
namespace RegexDialect.Baseline

namespace Automaton

section Start

variable {head body : List Insn} {chars : Array Char} {t u : Thread} {slots : Slots}
  {i : Insn} {e : Expr}

end Start

end Automaton

namespace Expr

mutual

def movesStart : Expr → Bool
  | keepOut => true
  | sequence parts | choice parts => movesStartOfList parts
  | group _ body | repeated body _ _ _ | look _ body | atomic body => movesStart body
  | conditional condition yes no => movesStart condition || movesStart yes || movesStart no
  | _ => false

def movesStartOfList : List Expr → Bool
  | [] => false
  | e :: es => movesStart e || movesStartOfList es

end

theorem not_mem_groupsOfList {k : Nat} {l : List Expr} :
    k ∉ groupsOfList l ↔ ∀ e ∈ l, k ∉ e.groups := by
  induction l with
  | nil => simp [groupsOfList]
  | cons e l ih => simp [groupsOfList, ih]

end Expr

namespace Machine

/-- An instruction that leaves the saved start of the match as it is. -/
def Insn.KeepsStart : Insn → Prop
  | .save slot | .reset slot => slot ≠ 0
  | .round _ _ _ _ counter => counter ≠ 0
  | .roundNonEmpty _ _ _ counter start => counter ≠ 0 ∧ start ≠ 0
  | .whole _ groups _ => 0 ∉ groups
  | _ => True

def KeepStart (l : List Insn) : Prop := ∀ i ∈ l, i.KeepsStart

@[simp] theorem keepStart_nil : KeepStart [] := by simp [KeepStart]

@[simp] theorem keepStart_cons {i : Insn} {l : List Insn} :
    KeepStart (i :: l) ↔ i.KeepsStart ∧ KeepStart l :=
  List.forall_mem_cons

@[simp] theorem keepStart_append {k l : List Insn} :
    KeepStart (k ++ l) ↔ KeepStart k ∧ KeepStart l :=
  List.forall_mem_append

@[simp] theorem keepsStart_fork (greedy : Bool) (inside outside : Nat) :
    (fork greedy inside outside).KeepsStart := by
  cases greedy <;> trivial

/-- What is emitted leaves the saved start as it is, and the free slots come after that of the
start. -/
abbrev Keeps : Except BuildFault Emitted → Prop := Results fun x => KeepStart x.1 ∧ 0 < x.2

section Emit

variable {referenced : List Nat} {slot : Nat}

theorem keepStart_of_mapM {parts : List Expr} {l : List Insn} (h : parts.mapM single? = some l) :
    KeepStart l := by
  induction parts generalizing l with
  | nil =>
    obtain rfl : l = [] := by simpa using h.symm
    simp
  | cons e parts ih =>
    rw [List.mapM_cons] at h
    simp only [Option.bind_eq_bind, Option.bind_eq_some_iff, Option.pure_def,
      Option.some.injEq] at h
    obtain ⟨i, hi, rest, hrest, rfl⟩ := h
    refine keepStart_cons.2 ⟨?_, ih hrest⟩
    unfold single? at hi
    split at hi
    · rw [← Option.some.inj hi]
      trivial
    · rw [← Option.some.inj hi]
      trivial
    · exact absurd hi (by simp)

theorem results_easyParts {parts : List Expr} (hgroups : 0 ∉ Expr.groupsOfList parts) :
    Results KeepStart (easyParts parts) := by
  unfold easyParts
  split
  · exact .ok keepStart_nil
  · split
    · next h => exact .ok (keepStart_of_mapM h)
    · refine .bind_any ?_
      intro program
      refine .ok (keepStart_cons.2 ⟨?_, keepStart_nil⟩)
      rw [Insn.KeepsStart, Expr.groups_ofParts]
      exact hgroups

theorem keeps_easyParts {parts : List Expr} (hgroups : 0 ∉ Expr.groupsOfList parts)
    (hslot : 0 < slot) :
    Keeps ((easyParts parts).map (·, slot)) := by
  intro x hx
  obtain ⟨l, hl, rfl⟩ := exists_of_map_eq_ok hx
  exact ⟨results_easyParts hgroups l hl, hslot⟩

theorem keeps_emitBehind {s : Shape} {body : (base slot : Nat) → Except BuildFault Emitted}
    (h : ∀ base slot, 0 < slot → Keeps (body base slot)) (base slot : Nat) (hslot : 0 < slot) :
    Keeps (emitBehind s body base slot) := by
  unfold emitBehind
  split
  · refine (h _ _ (Nat.succ_pos slot)).bind ?_
    rintro ⟨inner, after⟩ ⟨hinner, hafter⟩
    refine .ok ⟨?_, hafter⟩
    simpa [Insn.KeepsStart] using ⟨Nat.ne_of_gt hslot, hinner⟩
  · exact .error _

theorem keeps_emitNotBehind {s : Shape} {body : (base slot : Nat) → Except BuildFault Emitted}
    (h : ∀ base slot, 0 < slot → Keeps (body base slot)) (base slot : Nat) (hslot : 0 < slot) :
    Keeps (emitNotBehind s body base slot) := by
  unfold emitNotBehind
  split
  · refine (h _ _ hslot).bind ?_
    rintro ⟨inner, after⟩ ⟨hinner, hafter⟩
    refine .ok ⟨?_, hafter⟩
    simpa [Insn.KeepsStart] using hinner
  · exact .error _

theorem not_mem_groupsOfList_take {k : Nat} {l : List Expr}
    (h : k ∉ Expr.groupsOfList l) (n : Nat) :
    k ∉ Expr.groupsOfList (l.take n) := by
  rw [Expr.not_mem_groupsOfList] at h ⊢
  exact fun e he => h e (List.mem_of_mem_take he)

theorem not_mem_groupsOfList_drop {k : Nat} {l : List Expr}
    (h : k ∉ Expr.groupsOfList l) (n : Nat) :
    k ∉ Expr.groupsOfList (l.drop n) := by
  rw [Expr.not_mem_groupsOfList] at h ⊢
  exact fun e he => h e (List.mem_of_mem_drop he)

structure Steady (e : Expr) : Prop where
  groups : 0 ∉ e.groups
  start : e.movesStart = false

structure SteadyList (l : List Expr) : Prop where
  groups : 0 ∉ Expr.groupsOfList l
  start : Expr.movesStartOfList l = false

theorem steadyList_cons {e : Expr} {l : List Expr} :
    SteadyList (e :: l) ↔ Steady e ∧ SteadyList l := by
  constructor
  · rintro ⟨hgroups, hstart⟩
    rw [Expr.groupsOfList, List.mem_append, not_or] at hgroups
    rw [Expr.movesStartOfList, Bool.or_eq_false_iff] at hstart
    exact ⟨⟨hgroups.1, hstart.1⟩, ⟨hgroups.2, hstart.2⟩⟩
  · rintro ⟨⟨hgroups, hstart⟩, ⟨hgroups', hstart'⟩⟩
    refine ⟨?_, ?_⟩
    · rw [Expr.groupsOfList, List.mem_append, not_or]
      exact ⟨hgroups, hgroups'⟩
    · rw [Expr.movesStartOfList, Bool.or_eq_false_iff]
      exact ⟨hstart, hstart'⟩

namespace Steady

variable {e : Expr} {parts : List Expr}

theorem single (h : Steady e) : 0 ∉ Expr.groupsOfList [e] := by
  simpa [Expr.groupsOfList] using h.groups

theorem sequence (h : Steady (.sequence parts)) : SteadyList parts :=
  ⟨by simpa [Expr.groups] using h.groups, by simpa [Expr.movesStart] using h.start⟩

theorem choice (h : Steady (.choice parts)) : SteadyList parts :=
  ⟨by simpa [Expr.groups] using h.groups, by simpa [Expr.movesStart] using h.start⟩

theorem group {index : Nat} (h : Steady (.group index e)) : index ≠ 0 ∧ Steady e := by
  obtain ⟨hgroups, hstart⟩ := h
  rw [Expr.groups, List.mem_cons, not_or] at hgroups
  rw [Expr.movesStart] at hstart
  exact ⟨Ne.symm hgroups.1, hgroups.2, hstart⟩

theorem repeated {least : Nat} {most : Option Nat} {greedy : Bool}
    (h : Steady (.repeated e least most greedy)) :
    Steady e := ⟨by simpa [Expr.groups] using h.groups, by simpa [Expr.movesStart] using h.start⟩

theorem look {kind : Look} (h : Steady (.look kind e)) : Steady e :=
  ⟨by simpa [Expr.groups] using h.groups, by simpa [Expr.movesStart] using h.start⟩

theorem atomic (h : Steady (.atomic e)) : Steady e :=
  ⟨by simpa [Expr.groups] using h.groups, by simpa [Expr.movesStart] using h.start⟩

theorem conditional {yes no : Expr} (h : Steady (.conditional e yes no)) :
    Steady e ∧ Steady yes ∧ Steady no := by
  obtain ⟨hgroups, hstart⟩ := h
  simp only [Expr.groups, List.mem_append, not_or] at hgroups
  simp only [Expr.movesStart, Bool.or_eq_false_iff] at hstart
  exact ⟨⟨hgroups.1.1, hstart.1.1⟩, ⟨hgroups.1.2, hstart.1.2⟩, ⟨hgroups.2, hstart.2⟩⟩

end Steady

mutual

theorem keeps_emit (referenced : List Nat) :
    ∀ (hard : Bool) (e : Expr) (base slot : Nat), Steady e → 0 < slot →
    Keeps (emit referenced hard e base slot)
  | hard, .sequence parts, base, slot, h, hslot => by
    simp only [emit]
    split
    · exact keeps_easyParts h.sequence.groups hslot
    · refine (results_easyParts (not_mem_groupsOfList_take h.sequence.groups _)).bind ?_
      intro head hhead
      refine (keeps_emitParts referenced _ _ parts _ slot h.sequence hslot).bind ?_
      rintro ⟨middle, after⟩ ⟨hmiddle, hafter⟩
      refine (results_easyParts (not_mem_groupsOfList_drop h.sequence.groups _)).bind ?_
      intro tail htail
      exact .ok ⟨by simp [hhead, hmiddle, htail], hafter⟩
  | hard, .choice parts, base, slot, h, hslot => by
    simp only [emit]
    split
    · exact keeps_easyParts h.single hslot
    · exact keeps_emitChoice referenced hard parts base slot h.choice hslot
  | hard, .group index body, base, slot, h, hslot => by
    simp only [emit]
    split
    · exact keeps_easyParts h.single hslot
    · refine (keeps_emit referenced hard body (base + 1) slot h.group.2 hslot).bind ?_
      rintro ⟨inner, after⟩ ⟨hinner, hafter⟩
      have hstart : 2 * index ≠ 0 := Nat.mul_ne_zero (by decide) h.group.1
      exact .ok ⟨by simp [Insn.KeepsStart, hstart, hinner], hafter⟩
  | hard, .repeated body least most greedy, base, slot, h, hslot => by
    have hbody : ∀ hard base slot, 0 < slot → Keeps (emit referenced hard body base slot) :=
      fun hard base slot => keeps_emit referenced hard body base slot h.repeated
    simp only [emit]
    split
    · exact keeps_easyParts h.single hslot
    · split
      · refine (hbody hard _ slot hslot).bind ?_
        rintro ⟨inner, after⟩ ⟨hinner, hafter⟩
        exact .ok ⟨by simp [hinner], hafter⟩
      · split
        · refine (hbody true _ (slot + 2) (Nat.succ_pos _)).bind ?_
          rintro ⟨inner, after⟩ ⟨hinner, hafter⟩
          exact .ok ⟨by simp [Insn.KeepsStart, hinner, Nat.ne_of_gt hslot], hafter⟩
        · split
          · refine (hbody true _ slot hslot).bind ?_
            rintro ⟨inner, after⟩ ⟨hinner, hafter⟩
            exact .ok ⟨by simp [hinner, show (Insn.jump base).KeepsStart from trivial], hafter⟩
          · split
            · refine (hbody true _ slot hslot).bind ?_
              rintro ⟨inner, after⟩ ⟨hinner, hafter⟩
              exact .ok ⟨by simp [hinner], hafter⟩
            · refine (hbody true _ (slot + 1) (Nat.succ_pos _)).bind ?_
              rintro ⟨inner, after⟩ ⟨hinner, hafter⟩
              exact .ok ⟨by simp [Insn.KeepsStart, hinner, Nat.ne_of_gt hslot], hafter⟩
  | hard, .look .ahead body, base, slot, h, hslot => by
    simp only [emit]
    refine (keeps_emit referenced false body _ _ h.look (Nat.succ_pos slot)).bind ?_
    rintro ⟨inner, after⟩ ⟨hinner, hafter⟩
    exact .ok ⟨by simp [Insn.KeepsStart, hinner, Nat.ne_of_gt hslot], hafter⟩
  | hard, .look .notAhead body, base, slot, h, hslot => by
    simp only [emit]
    refine (keeps_emit referenced false body _ _ h.look hslot).bind ?_
    rintro ⟨inner, after⟩ ⟨hinner, hafter⟩
    exact .ok ⟨by simp [Insn.KeepsStart, hinner], hafter⟩
  | hard, .look .behind body, base, slot, h, hslot => by
    have hbody := keeps_emitBehind (s := body.shape referenced)
      (fun base slot => keeps_emit referenced false body base slot h.look)
    have hchoice := keeps_emitBehindChoice_of_eq referenced body h.look
    unfold emit
    dsimp only
    split
    · next parts _ => exact hchoice parts rfl base slot hslot
    · exact hbody base slot hslot
  | hard, .look .notBehind body, base, slot, h, hslot => by
    have hbody := keeps_emitNotBehind (s := body.shape referenced)
      (fun base slot => keeps_emit referenced false body base slot h.look)
    have hchoice := keeps_emitNotBehindAll_of_eq referenced body h.look
    unfold emit
    dsimp only
    split
    · next parts _ => exact hchoice parts rfl base slot hslot
    · exact hbody base slot hslot
  | hard, .atomic body, base, slot, h, hslot => by
    simp only [emit]
    refine (keeps_emit referenced false body _ _ h.atomic hslot).bind ?_
    rintro ⟨inner, after⟩ ⟨hinner, hafter⟩
    exact .ok ⟨by simp [Insn.KeepsStart, hinner], hafter⟩
  | hard, .conditional condition yes no, base, slot, h, hslot => by
    obtain ⟨hcondition, hyes, hno⟩ := h.conditional
    simp only [emit]
    refine (keeps_emit referenced hard condition _ _ hcondition hslot).bind ?_
    rintro ⟨c, slot⟩ ⟨hc, hslot⟩
    refine (keeps_emit referenced hard yes _ _ hyes hslot).bind ?_
    rintro ⟨y, slot⟩ ⟨hy, hslot⟩
    refine (keeps_emit referenced hard no _ _ hno hslot).bind ?_
    rintro ⟨n, slot⟩ ⟨hn, hslot⟩
    exact .ok ⟨by simp [Insn.KeepsStart, hc, hy, hn], hslot⟩
  | _, .keepOut, _, slot, h, _ => absurd h.start (by simp [Expr.movesStart])
  | _, .atom a, _, slot, _, hslot | _, .anchor a, _, slot, _, hslot | _, .backreference group, _,
    slot, _, hslot |
    _, .groupSet group, _, slot, _, hslot | _, .searchStart, _, slot, _, hslot | _, .empty, _, slot,
      _, hslot => by
    simp only [emit]
    exact .ok ⟨by simp [Insn.KeepsStart], hslot⟩

theorem keeps_emitParts (referenced : List Nat) :
    ∀ (omitted count : Nat) (l : List Expr) (base slot : Nat),
    SteadyList l → 0 < slot → Keeps (emitParts referenced omitted count l base slot)
  | _, _, [], _, slot, _, hslot => by
    simp only [emitParts]
    exact .ok ⟨keepStart_nil, hslot⟩
  | _, 0, _ :: _, _, slot, _, hslot => by
    simp only [emitParts]
    exact .ok ⟨keepStart_nil, hslot⟩
  | omitted + 1, count + 1, _ :: es, base, slot, h, hslot => by
    simp only [emitParts]
    exact keeps_emitParts referenced omitted (count + 1) es base slot (steadyList_cons.1 h).2 hslot
  | 0, count + 1, e :: es, base, slot, h, hslot => by
    simp only [emitParts]
    refine (keeps_emit referenced true e base slot (steadyList_cons.1 h).1 hslot).bind ?_
    rintro ⟨first, slot⟩ ⟨hfirst, hslot⟩
    refine (keeps_emitParts referenced 0 count es _ slot (steadyList_cons.1 h).2 hslot).bind ?_
    rintro ⟨rest, slot⟩ ⟨hrest, hslot⟩
    exact .ok ⟨by simp [hfirst, hrest], hslot⟩

theorem keeps_emitChoice (referenced : List Nat) :
    ∀ (hard : Bool) (l : List Expr) (base slot : Nat),
    SteadyList l → 0 < slot → Keeps (emitChoice referenced hard l base slot)
  | _, [], _, slot, _, hslot => by
    simp only [emitChoice]
    exact .ok ⟨keepStart_nil, hslot⟩
  | hard, [e], base, slot, h, hslot => by
    simp only [emitChoice]
    exact keeps_emit referenced hard e base slot (steadyList_cons.1 h).1 hslot
  | hard, e :: e' :: es, base, slot, h, hslot => by
    simp only [emitChoice]
    refine (keeps_emit referenced hard e _ slot (steadyList_cons.1 h).1 hslot).bind ?_
    rintro ⟨first, slot⟩ ⟨hfirst, hslot⟩
    refine (keeps_emitChoice referenced hard (e' :: es) _ slot (steadyList_cons.1 h).2 hslot).bind
      ?_
    rintro ⟨rest, slot⟩ ⟨hrest, hslot⟩
    exact .ok ⟨by simp [Insn.KeepsStart, hfirst, hrest], hslot⟩

theorem keeps_emitBehindChoice_of_eq (referenced : List Nat) :
    ∀ (e : Expr), Steady e → ∀ parts : List Expr,
    e = .choice parts → ∀ base slot, 0 < slot → Keeps (emitBehindChoice referenced parts base slot)
  | .choice parts, h, _, rfl, base, slot, hslot =>
    keeps_emitBehindChoice referenced parts base slot h.choice hslot

theorem keeps_emitNotBehindAll_of_eq (referenced : List Nat) :
    ∀ (e : Expr), Steady e → ∀ parts : List Expr,
    e = .choice parts → ∀ base slot, 0 < slot → Keeps (emitNotBehindAll referenced parts base slot)
  | .choice parts, h, _, rfl, base, slot, hslot =>
    keeps_emitNotBehindAll referenced parts base slot h.choice hslot

theorem keeps_emitBehindChoice (referenced : List Nat) :
    ∀ (l : List Expr) (base slot : Nat), SteadyList l → 0 < slot →
    Keeps (emitBehindChoice referenced l base slot)
  | [], _, slot, _, hslot => by
    simp only [emitBehindChoice]
    exact .ok ⟨keepStart_nil, hslot⟩
  | [e], base, slot, h, hslot => by
    simp only [emitBehindChoice]
    exact keeps_emitBehind
      (fun base slot => keeps_emit referenced false e base slot (steadyList_cons.1 h).1)
        base slot hslot
  | e :: e' :: es, base, slot, h, hslot => by
    have hbody := keeps_emitBehind (s := e.shape referenced)
      (fun base slot => keeps_emit referenced false e base slot (steadyList_cons.1 h).1)
    simp only [emitBehindChoice]
    refine (hbody (base + 1) slot hslot).bind ?_
    rintro ⟨first, slot⟩ ⟨hfirst, hslot⟩
    refine (keeps_emitBehindChoice referenced (e' :: es) _ slot (steadyList_cons.1 h).2 hslot).bind
      ?_
    rintro ⟨rest, slot⟩ ⟨hrest, hslot⟩
    exact .ok ⟨by simp [Insn.KeepsStart, hfirst, hrest], hslot⟩

theorem keeps_emitNotBehindAll (referenced : List Nat) :
    ∀ (l : List Expr) (base slot : Nat), SteadyList l → 0 < slot →
    Keeps (emitNotBehindAll referenced l base slot)
  | [], _, slot, _, hslot => by
    simp only [emitNotBehindAll]
    exact .ok ⟨keepStart_nil, hslot⟩
  | e :: es, base, slot, h, hslot => by
    have hbody := keeps_emitNotBehind (s := e.shape referenced)
      (fun base slot => keeps_emit referenced false e base slot (steadyList_cons.1 h).1)
    simp only [emitNotBehindAll]
    refine (hbody base slot hslot).bind ?_
    rintro ⟨first, slot⟩ ⟨hfirst, hslot⟩
    refine (keeps_emitNotBehindAll referenced es _ slot (steadyList_cons.1 h).2 hslot).bind ?_
    rintro ⟨rest, slot⟩ ⟨hrest, hslot⟩
    exact .ok ⟨by simp [hfirst, hrest], hslot⟩

end

end Emit

section Run

variable {chars : Array Char} {origin height : Nat} {v : Option Nat}

variable {first : State} {k : Nat} {head body : List Insn} {alternatives : List State}
  {program : Program}

end Run

end Machine

end RegexDialect.Baseline
