import RegexDialect.Baseline.Machine
import RegexDialect.Proofs.Patterns

/-! Instructions at another place. What an expression is built to depends on the address of its
first instruction only through the targets in it, which move along with that address. -/
namespace RegexDialect.Baseline

section Placed

variable {α : Type} {shift : Nat → α → α} {head : List α}

/-- The instructions of a body behind those of a head; the targets of the body are its own
addresses. -/
def placed (shift : Nat → α → α) (head body : List α) : Array α :=
  (head ++ body.map (shift head.length)).toArray

end Placed

namespace Automaton

def Insn.shift (k : Nat) : Insn → Insn
  | .split a b => .split (a + k) (b + k)
  | .jump a => .jump (a + k)
  | i => i

abbrev placed (head body : List Insn) : Array Insn := Baseline.placed Insn.shift head body

@[simp] theorem shift_split (k a b : Nat) : (Insn.split a b).shift k = .split (a + k) (b + k) := rfl

@[simp] theorem shift_jump (k a : Nat) : (Insn.jump a).shift k = .jump (a + k) := rfl

@[simp] theorem shift_save (k slot : Nat) : (Insn.save slot).shift k = .save slot := rfl

@[simp] theorem shift_fork (k : Nat) (greedy : Bool) (inside outside : Nat) :
    (fork greedy inside outside).shift k = fork greedy (inside + k) (outside + k) := by
  cases greedy <;> rfl

section Copies

variable {body : Nat → List Insn} {n k : Nat}

theorem copies_add (h : ∀ base, body (base + k) = (body base).map (Insn.shift k)) (m base : Nat) :
    copies body n m (base + k) = (copies body n m base).map (Insn.shift k) := by
  induction m generalizing base with
  | zero => rfl
  | succ m ih => rw [copies, copies, List.map_append, h, Nat.add_right_comm, ih]

theorem optionalCopies_add (h : ∀ base, body (base + k) = (body base).map (Insn.shift k))
    (greedy : Bool) (stop m base : Nat) : optionalCopies body n greedy (stop + k) m (base + k) =
      (optionalCopies body n greedy stop m base).map (Insn.shift k) := by
  induction m generalizing base with
  | zero => rfl
  | succ m ih =>
    rw [optionalCopies, optionalCopies, Nat.add_right_comm base k 1, h,
      Nat.add_right_comm (base + 1) k n, ih]
    simp

theorem repetition_add (h : ∀ base, body (base + k) = (body base).map (Insn.shift k))
    (nullable greedy : Bool) (least : Nat) (most : Option Nat) (base : Nat) :
      repetition body n nullable greedy least most (base + k) =
      (repetition body n nullable greedy least most base).map (Insn.shift k) := by
  cases most with
  | some most =>
    simp only [repetition, List.map_append]
    rw [copies_add h, Nat.add_right_comm base k (least * n),
      Nat.add_right_comm (base + least * n) k, optionalCopies_add h]
  | none =>
    simp only [repetition]
    split
    · rw [Nat.add_right_comm base k 1, h, Nat.add_right_comm base k n,
        Nat.add_right_comm (base + n) k 2]
      cases nullable <;> simp
    · rw [copies_add h, Nat.add_right_comm base k, Nat.add_right_comm _ k n,
        Nat.add_right_comm _ k 1]
      simp

end Copies

mutual

theorem code_add (k : Nat) :
    ∀ (e : Expr) (base : Nat), code (base + k) e = (code base e).map (Insn.shift k)
  | .atom _, _ | .anchor _, _ => rfl
  | .sequence parts, base => by
    rw [code, code, codeOfParts_add k parts base]
  | .choice parts, base => by
    rw [code, code, Nat.add_right_comm, codeOfChoice_add k parts base]
  | .group index body, base => by
    rw [code, code, Nat.add_right_comm, code_add k body (base + 1)]
    simp
  | .repeated body least most greedy, base => by
    rw [code, code, repetition_add (fun base => code_add k body base)]
  | .empty, _ | .look _ _, _ | .atomic _, _ | .backreference _, _ | .groupSet _,
    _ | .conditional _ _ _, _ | .keepOut, _ | .searchStart, _ => by simp [code]

theorem codeOfParts_add (k : Nat) : ∀ (l : List Expr) (base : Nat),
    codeOfParts (base + k) l = (codeOfParts base l).map (Insn.shift k)
  | [], _ => rfl
  | e :: es, base => by
    rw [codeOfParts, codeOfParts, List.map_append, code_add k e base, Nat.add_right_comm,
      codeOfParts_add k es]

theorem codeOfChoice_add (k : Nat) : ∀ (l : List Expr) (base stop : Nat),
    codeOfChoice (base + k) (stop + k) l = (codeOfChoice base stop l).map (Insn.shift k)
  | [], _, _ => rfl
  | [e], base, stop => by
    rw [codeOfChoice, codeOfChoice, code_add k e base]
  | e :: e' :: es, base, stop => by
    have hne : e' :: es = [] → False := List.cons_ne_nil e' es
    rw [codeOfChoice.eq_3 _ _ _ _ hne, codeOfChoice.eq_3 _ _ _ _ hne]
    simp only [Nat.add_right_comm base k, Nat.add_right_comm (base + _) k, code_add k e (base + 1),
      codeOfChoice_add k (e' :: es), List.map_append, List.map_cons, List.map_nil,
        shift_split, shift_jump]

end

end Automaton

namespace Machine

def Insn.shift (k : Nat) : Insn → Insn
  | .split a b => .split (a + k) (b + k)
  | .jump a => .jump (a + k)
  | .round greedy least most next counter => .round greedy least most (next + k) counter
  | .roundNonEmpty greedy least next counter start =>
    .roundNonEmpty greedy least (next + k) counter start
  | i => i

abbrev placed (head body : List Insn) : Array Insn := Baseline.placed Insn.shift head body

def Emitted.shift (k : Nat) (x : Emitted) : Emitted := (x.1.map (Insn.shift k), x.2)

@[simp] theorem shift_split (k a b : Nat) : (Insn.split a b).shift k = .split (a + k) (b + k) := rfl

@[simp] theorem shift_jump (k a : Nat) : (Insn.jump a).shift k = .jump (a + k) := rfl

@[simp] theorem shift_round (k : Nat) (greedy : Bool) (least : Nat) (most : Option Nat)
    (next counter : Nat) :
    (Insn.round greedy least most next counter).shift k =
      .round greedy least most (next + k) counter := rfl

@[simp] theorem shift_roundNonEmpty (k : Nat) (greedy : Bool) (least next counter start : Nat) :
    (Insn.roundNonEmpty greedy least next counter start).shift k =
      .roundNonEmpty greedy least (next + k) counter start := rfl

@[simp] theorem shift_fork (k : Nat) (greedy : Bool) (inside outside : Nat) :
    (fork greedy inside outside).shift k = fork greedy (inside + k) (outside + k) := by
  cases greedy <;> rfl

@[simp] theorem Emitted.shift_mk (k : Nat) (l : List Insn) (slot : Nat) :
    Emitted.shift k (l, slot) = (l.map (Insn.shift k), slot) := rfl

theorem shift_of_single? {e : Expr} {i : Insn} (h : single? e = some i) (k : Nat) :
    i.shift k = i := by
  unfold single? at h
  split at h
  · obtain rfl := Option.some.inj h
    rfl
  · obtain rfl := Option.some.inj h
    rfl
  · exact absurd h (by simp)

theorem map_shift_of_mapM {parts : List Expr} {l : List Insn}
    (h : parts.mapM single? = some l) (k : Nat) :
    l.map (Insn.shift k) = l := by
  induction parts generalizing l with
  | nil =>
    obtain rfl : l = [] := by simpa using h.symm
    rfl
  | cons e parts ih =>
    rw [List.mapM_cons] at h
    simp only [Option.bind_eq_bind, Option.bind_eq_some_iff, Option.pure_def,
      Option.some.injEq] at h
    obtain ⟨i, hi, rest, hrest, rfl⟩ := h
    rw [List.map_cons, shift_of_single? hi, ih hrest]

theorem map_shift_of_easyParts {parts : List Expr} {l : List Insn}
    (h : easyParts parts = .ok l) (k : Nat) :
    l.map (Insn.shift k) = l := by
  unfold easyParts at h
  split at h
  · obtain rfl := Except.ok.inj h
    rfl
  · split at h
    · next hm =>
      obtain rfl := Except.ok.inj h
      exact map_shift_of_mapM hm k
    · obtain ⟨program, -, h⟩ := exists_of_bind_eq_ok h
      obtain rfl := Except.ok.inj h
      rfl

section Emit

variable {referenced : List Nat} {k : Nat}

/-- What is made of moved instructions is moved, where the rest of the computation moves them
along. -/
theorem bind_add {x y : Except BuildFault Emitted} {f g : Emitted → Except BuildFault Emitted}
    (hxy : y = x.map (Emitted.shift k))
    (h : ∀ inner slot, g (inner.map (Insn.shift k), slot) =
      (f (inner, slot)).map (Emitted.shift k)) :
    (y >>= g) = (x >>= f).map (Emitted.shift k) := by
  subst hxy
  rcases x with fault | ⟨inner, slot⟩
  · rfl
  · exact h inner slot

theorem easyParts_bind_add {parts : List Expr} {f g : List Insn → Except BuildFault Emitted}
    (h : ∀ l, l.map (Insn.shift k) = l → g l = (f l).map (Emitted.shift k)) :
    (easyParts parts >>= g) = (easyParts parts >>= f).map (Emitted.shift k) := by
  rcases hl : easyParts parts with fault | l
  · rfl
  · exact h l (map_shift_of_easyParts hl k)

theorem easyParts_shift (parts : List Expr) (slot : Nat) :
    (easyParts parts).map (·, slot) = ((easyParts parts).map (·, slot)).map (Emitted.shift k) := by
  rcases h : easyParts parts with e | l
  · rfl
  · simp [Except.map, map_shift_of_easyParts h]

theorem emitBehind_add {s : Shape} {body : (base slot : Nat) → Except BuildFault Emitted}
    (h : ∀ base slot, body (base + k) slot = (body base slot).map (Emitted.shift k))
    (base slot : Nat) :
    emitBehind s body (base + k) slot = (emitBehind s body base slot).map (Emitted.shift k) := by
  unfold emitBehind
  split
  · rw [Nat.add_right_comm]
    refine bind_add (h _ _) ?_
    intro inner after
    simp [Except.map, Insn.shift]
  · rfl

theorem emitNotBehind_add {s : Shape} {body : (base slot : Nat) → Except BuildFault Emitted}
    (h : ∀ base slot, body (base + k) slot = (body base slot).map (Emitted.shift k))
    (base slot : Nat) :
    emitNotBehind s body (base + k) slot =
      (emitNotBehind s body base slot).map (Emitted.shift k) := by
  unfold emitNotBehind
  split
  · rw [Nat.add_right_comm base k 2]
    refine bind_add (h _ _) ?_
    intro inner after
    simp [Except.map, Insn.shift, Nat.add_right_comm _ k]
  · rfl

mutual

theorem emit_add (referenced : List Nat) (k : Nat) : ∀ (hard : Bool) (e : Expr) (base slot : Nat),
    emit referenced hard e (base + k) slot =
      (emit referenced hard e base slot).map (Emitted.shift k)
  | hard, .sequence parts, base, slot => by
    simp only [emit]
    split
    · exact easyParts_shift parts slot
    · refine easyParts_bind_add fun head hhead => ?_
      rw [Nat.add_right_comm]
      refine bind_add (emitParts_add referenced k _ _ parts _ slot) fun middle after => ?_
      refine easyParts_bind_add fun tail htail => ?_
      simp [Except.map, hhead, htail]
  | hard, .choice parts, base, slot => by
    simp only [emit]
    split
    · exact easyParts_shift _ slot
    · exact emitChoice_add referenced k hard parts base slot
  | hard, .group index body, base, slot => by
    simp only [emit]
    split
    · exact easyParts_shift _ slot
    · rw [Nat.add_right_comm]
      refine bind_add (emit_add referenced k hard body _ slot) fun inner after => ?_
      simp [Except.map, Insn.shift]
  | hard, .repeated body least most greedy, base, slot => by
    simp only [emit]
    split
    · exact easyParts_shift _ slot
    · simp only [Nat.add_right_comm base k]
      split
      · refine bind_add (emit_add referenced k hard body _ slot) fun inner after => ?_
        simp [Except.map, Nat.add_right_comm _ k]
      · split
        · refine bind_add (emit_add referenced k true body _ _) fun inner after => ?_
          simp [Except.map, Insn.shift, Nat.add_right_comm _ k]
        · split
          · refine bind_add (emit_add referenced k true body _ slot) fun inner after => ?_
            simp [Except.map, Nat.add_right_comm _ k]
          · split
            · refine bind_add (emit_add referenced k true body base slot) fun inner after => ?_
              simp [Except.map, Nat.add_right_comm _ k]
            · refine bind_add (emit_add referenced k true body _ _) fun inner after => ?_
              simp [Except.map, Insn.shift, Nat.add_right_comm _ k]
  | hard, .look .ahead body, base, slot => by
    simp only [emit]
    rw [Nat.add_right_comm]
    refine bind_add (emit_add referenced k false body _ _) fun inner after => ?_
    simp [Except.map, Insn.shift]
  | hard, .look .notAhead body, base, slot => by
    simp only [emit]
    rw [Nat.add_right_comm]
    refine bind_add (emit_add referenced k false body _ slot) fun inner after => ?_
    simp [Except.map, Insn.shift, Nat.add_right_comm _ k]
  | hard, .look .behind body, base, slot => by
    have hbody :=
      emitBehind_add (s := body.shape referenced)
        (fun base slot => emit_add referenced k false body base slot)
    have hchoice := emitBehindChoice_add_of_eq referenced k body
    unfold emit
    dsimp only
    split
    · next parts _ => exact hchoice parts rfl base slot
    · exact hbody base slot
  | hard, .look .notBehind body, base, slot => by
    have hbody := emitNotBehind_add (s := body.shape referenced)
      (fun base slot => emit_add referenced k false body base slot)
    have hchoice := emitNotBehindAll_add_of_eq referenced k body
    unfold emit
    dsimp only
    split
    · next parts _ => exact hchoice parts rfl base slot
    · exact hbody base slot
  | hard, .atomic body, base, slot => by
    simp only [emit]
    rw [Nat.add_right_comm]
    refine bind_add (emit_add referenced k false body _ slot) fun inner after => ?_
    simp [Except.map, Insn.shift]
  | hard, .conditional condition yes no, base, slot => by
    simp only [emit]
    rw [Nat.add_right_comm]
    refine bind_add (emit_add referenced k hard condition _ slot) fun c slot => ?_
    simp only [List.length_map, Nat.add_right_comm _ k]
    refine bind_add (emit_add referenced k hard yes _ slot) fun y slot => ?_
    simp only [List.length_map]
    refine bind_add (emit_add referenced k hard no _ slot) fun n slot => ?_
    simp [Except.map, Insn.shift]
  | _, .atom a, _, slot | _, .anchor a, _, slot | _, .backreference group, _, slot | _,
    .groupSet group, _, slot |
    _, .keepOut, _, slot | _, .searchStart, _, slot | _, .empty, _, slot => by
    simp only [emit]
    rfl

theorem emitParts_add (referenced : List Nat) (k : Nat) :
    ∀ (omitted count : Nat) (l : List Expr) (base slot : Nat),
    emitParts referenced omitted count l (base + k) slot =
      (emitParts referenced omitted count l base slot).map (Emitted.shift k)
  | _, _, [], _, slot => by
    simp only [emitParts]
    rfl
  | _, 0, _ :: _, _, slot => by
    simp only [emitParts]
    rfl
  | omitted + 1, count + 1, _ :: es, base, slot => by
    simp only [emitParts]
    exact emitParts_add referenced k omitted (count + 1) es base slot
  | 0, count + 1, e :: es, base, slot => by
    simp only [emitParts]
    refine bind_add (emit_add referenced k true e base slot) fun first slot => ?_
    simp only [List.length_map, Nat.add_right_comm base k]
    refine bind_add (emitParts_add referenced k 0 count es _ slot) fun rest slot => ?_
    simp [Except.map]

theorem emitChoice_add (referenced : List Nat) (k : Nat) :
    ∀ (hard : Bool) (l : List Expr) (base slot : Nat),
    emitChoice referenced hard l (base + k) slot =
      (emitChoice referenced hard l base slot).map (Emitted.shift k)
  | _, [], _, slot => by
    simp only [emitChoice]
    rfl
  | hard, [e], base, slot => by
    simp only [emitChoice]
    exact emit_add referenced k hard e base slot
  | hard, e :: e' :: es, base, slot => by
    simp only [emitChoice]
    rw [Nat.add_right_comm]
    refine bind_add (emit_add referenced k hard e _ slot) fun first slot => ?_
    simp only [List.length_map, Nat.add_right_comm _ k]
    refine bind_add (emitChoice_add referenced k hard (e' :: es) _ slot) fun rest slot => ?_
    simp [Except.map]

theorem emitBehindChoice_add_of_eq (referenced : List Nat) (k : Nat) :
    ∀ (e : Expr) (parts : List Expr),
    e = .choice parts → ∀ base slot, emitBehindChoice referenced parts (base + k) slot =
      (emitBehindChoice referenced parts base slot).map (Emitted.shift k)
  | .choice parts, _, rfl, base, slot => emitBehindChoice_add referenced k parts base slot

theorem emitNotBehindAll_add_of_eq (referenced : List Nat) (k : Nat) :
    ∀ (e : Expr) (parts : List Expr),
    e = .choice parts → ∀ base slot, emitNotBehindAll referenced parts (base + k) slot =
      (emitNotBehindAll referenced parts base slot).map (Emitted.shift k)
  | .choice parts, _, rfl, base, slot => emitNotBehindAll_add referenced k parts base slot

theorem emitBehindChoice_add (referenced : List Nat) (k : Nat) :
    ∀ (l : List Expr) (base slot : Nat), emitBehindChoice referenced l (base + k) slot =
      (emitBehindChoice referenced l base slot).map (Emitted.shift k)
  | [], _, slot => by
    simp only [emitBehindChoice]
    rfl
  | [e], base, slot => by
    simp only [emitBehindChoice]
    exact emitBehind_add (fun base slot => emit_add referenced k false e base slot) base slot
  | e :: e' :: es, base, slot => by
    have hbody :=
      emitBehind_add (s := e.shape referenced)
        (fun base slot => emit_add referenced k false e base slot)
    simp only [emitBehindChoice]
    rw [Nat.add_right_comm]
    refine bind_add (hbody _ slot) fun first slot => ?_
    simp only [List.length_map, Nat.add_right_comm _ k]
    refine bind_add (emitBehindChoice_add referenced k (e' :: es) _ slot) fun rest slot => ?_
    simp [Except.map]

theorem emitNotBehindAll_add (referenced : List Nat) (k : Nat) :
    ∀ (l : List Expr) (base slot : Nat), emitNotBehindAll referenced l (base + k) slot =
      (emitNotBehindAll referenced l base slot).map (Emitted.shift k)
  | [], _, slot => by
    simp only [emitNotBehindAll]
    rfl
  | e :: es, base, slot => by
    have hbody :=
      emitNotBehind_add (s := e.shape referenced)
        (fun base slot => emit_add referenced k false e base slot)
    simp only [emitNotBehindAll]
    refine bind_add (hbody base slot) fun first slot => ?_
    simp only [List.length_map, Nat.add_right_comm base k]
    refine bind_add (emitNotBehindAll_add referenced k es _ slot) fun rest slot => ?_
    simp [Except.map]

end

end Emit

end Machine
end RegexDialect.Baseline
