import Mathlib.Data.List.Forall2
import RegexDialect.Proofs.Declarations

/-! How a text in baseline syntax reads from left to right, with the escapes that the scan knows as
units. An escape at the end of a piece may take a few characters of what is emitted behind it, but
only letters, digits and the braces of a quantifier. -/
namespace RegexDialect

namespace Baseline

/-- A character of a text, the scope it is read in and whether it belongs to an escape. -/
structure Mark where
  char : Char
  scope : Scope
  escaped : Bool
deriving DecidableEq, Repr

def escapeLength (scope : Scope) (t : Text) : Nat :=
  if t.head? = some '\\' then BaselineToken.length scope t else 0

/-- The scope after a character that belongs to no escape: an opening bracket opens a class outside
of classes, and a closing bracket closes the class it is in. -/
def scopeBehind (scope : Scope) (c : Char) : Scope :=
  if scope = .outsideClass ∧ c = '[' then .insideClass
  else if scope = .insideClass ∧ c = ']' then .outsideClass
  else scope

/-- The characters of a text as they read in a scope; the first `skip` of them belong to the escape
before them. -/
def marks : Scope → (skip : Nat) → Text → List Mark
  | _, _, [] => []
  | scope, skip + 1, c :: r => ⟨c, scope, true⟩ :: marks scope skip r
  | scope, 0, c :: r =>
    match escapeLength scope (c :: r) with
    | 0 => ⟨c, scope, false⟩ :: marks (scopeBehind scope c) 0 r
    | n + 1 => ⟨c, scope, true⟩ :: marks scope n r

def scopeAfter : Scope → (skip : Nat) → Text → Scope
  | scope, _, [] => scope
  | scope, skip + 1, _ :: r => scopeAfter scope skip r
  | scope, 0, c :: r =>
    match escapeLength scope (c :: r) with
    | 0 => scopeAfter (scopeBehind scope c) 0 r
    | n + 1 => scopeAfter scope n r

example : marks .outsideClass 0 "\\[[a\\]]".toList =
    [⟨'\\', .outsideClass, true⟩, ⟨'[', .outsideClass, true⟩, ⟨'[', .outsideClass, false⟩,
      ⟨'a', .insideClass, false⟩,
      ⟨'\\', .insideClass, true⟩, ⟨']', .insideClass, true⟩,
        ⟨']', .insideClass, false⟩] := by decide

/-- Characters of escapes and quantifiers, which mean nothing more in a class or outside. -/
def isDull (c : Char) : Bool := BaselineToken.isTail c || BaselineToken.isQuantifierSign c

theorem isDull_of_isTail {c : Char} (h : BaselineToken.isTail c = true) : isDull c = true := by
  simp [isDull, h]

theorem isDull_of_isQuantifierSign {c : Char} (h : BaselineToken.isQuantifierSign c = true) :
    isDull c = true := by
  simp [isDull, h]

theorem ne_of_isDull {c d : Char} (h : isDull c = true) (hd : isDull d = false) :
    c ≠ d := Text.ne_of_test h hd

/-- A mark is the other one, or the same dull character made part of an escape. -/
def Mark.Takes (x y : Mark) : Prop := x = y ∨ isDull y.char = true ∧ x = { y with escaped := true }

theorem scopeBehind_of_ne {scope : Scope} {c : Char} (ho : c ≠ '[') (hc : c ≠ ']') :
    scopeBehind scope c = scope := by
  simp [scopeBehind, ho, hc]

theorem scopeBehind_eq_after {scope : Scope} (hs : scope = .insideClass ∨ scope = .outsideClass)
    (c : Char) :
    scopeBehind scope c = scope.after c := by
  have hne : Scope.insideClass ≠ .outsideClass := by decide
  rcases hs with rfl | rfl
  · by_cases ho : c = '['
    · simp [scopeBehind, Scope.after, ho, hne]
    · by_cases hc : c = ']' <;> simp [scopeBehind, Scope.after, ho, hc]
  · by_cases ho : c = '['
    · simp [scopeBehind, Scope.after, ho]
    · by_cases hc : c = ']' <;> simp [scopeBehind, Scope.after, ho, hc, hne.symm]

theorem Mark.Takes.trans {x y z : Mark} (h : x.Takes y) (h' : y.Takes z) : x.Takes z := by
  rcases h with rfl | ⟨hd, rfl⟩
  · exact h'
  · rcases h' with rfl | ⟨hd', rfl⟩
    · exact .inr ⟨hd, rfl⟩
    · exact .inr ⟨hd', rfl⟩

theorem takes_refl (l : List Mark) :
    List.Forall₂ Mark.Takes l l := List.forall₂_same.2 fun _ _ => .inl rfl

theorem takes_trans {k l m : List Mark} (h : List.Forall₂ Mark.Takes k l)
    (h' : List.Forall₂ Mark.Takes l m) :
    List.Forall₂ Mark.Takes k m := by
  induction h generalizing m with
  | nil => exact h'
  | cons hx _ ih =>
    cases h' with
    | cons hy hl => exact .cons (hx.trans hy) (ih hl)

/-- A text reads as the marks `new`, and behind them as `rest` does on its own in the scope `after`,
but for dull characters that an escape may take. -/
structure Peel (scope : Scope) (t : Text) (new : List Mark) (after : Scope) (rest : Text) :
    Prop where
  marks : List.Forall₂ Mark.Takes (marks scope 0 t) (new ++ Baseline.marks after 0 rest)
  scope : scopeAfter scope 0 t = scopeAfter after 0 rest

@[simp] theorem marks_nil (scope : Scope) (skip : Nat) : marks scope skip [] = [] := by
  cases skip <;> rfl

@[simp] theorem scopeAfter_nil (scope : Scope) (skip : Nat) : scopeAfter scope skip [] = scope := by
  cases skip <;> rfl

theorem escapeLength_of_ne {scope : Scope} {c : Char} (h : c ≠ '\\') (t : Text) :
    escapeLength scope (c :: t) = 0 := by
  simp [escapeLength, h]

/-- An escape takes its backslash, the character behind it and what belongs to that. -/
theorem escapeLength_backslash {scope : Scope} (hs : scope = .insideClass ∨ scope = .outsideClass)
    (c : Char)
    (t : Text) : ∃ k, escapeLength scope ('\\' :: c :: t) = k + 2 ∧ BaselineToken.Tail c t k := by
  rcases hs with rfl | rfl
  · obtain ⟨k, hk, ht⟩ := BaselineToken.tail_classEscape c t
    refine ⟨k, ?_, ht⟩
    simp only [escapeLength, List.head?_cons, if_true, BaselineToken.length_insideClass,
      BaselineToken.inClass_backslash, hk]
    omega
  · obtain ⟨k, hk, ht⟩ := BaselineToken.tail_outerEscape c t
    refine ⟨k, ?_, ht⟩
    simp only [escapeLength, List.head?_cons, if_true, BaselineToken.length_outsideClass,
      BaselineToken.outside_backslash, hk]
    omega

theorem eq_braces_of_length {p : Char → Bool} {a u : Text}
    (h : BaselineToken.braced p (a ++ u) = a.length)
    (hn : BaselineToken.braced p (a ++ u) ≠ 0) : ∃ name, a = '\x7b' :: (name ++ ['}']) ∧
      ∀ d ∈ name, p d = true := by
  obtain ⟨name, after, hau, hname, hlen⟩ := exists_of_braced hn
  have heq : a ++ u = '\x7b' :: (name ++ ['}']) ++ after := by simpa using hau
  exact ⟨name, (List.append_inj heq (by simp; omega)).1, hname⟩

theorem isDull_of_trails {u v : Text} (hv : Trails u v)
    (hu : BaselineToken.braced (· != '}') u = 0) :
    ∀ d ∈ v.take (BaselineToken.braced (· != '}') v), isDull d = true := by
  by_cases hn : BaselineToken.braced (· != '}') v = 0
  · simp [hn]
  obtain ⟨b, w, rfl, hb⟩ := hv.bounds hu hn
  have hsign := BaselineToken.isQuantifierSign_of_counted hb
  have hno : ∀ d ∈ b, (d != '}') = true := by
    intro d hd
    refine bne_iff_ne.2 ?_
    rintro rfl
    exact absurd (hb _ hd) (by decide)
  rw [braced_of_closed hno (by decide), show '\x7b' :: (b ++ '}' :: w) =
    '\x7b' :: (b ++ ['}']) ++ w by simp, List.take_left' (by simp)]
  exact fun d hd => isDull_of_isQuantifierSign (hsign d hd)

/-- An escape of the source ends where it ended in front of what is emitted after it, or it is dull
and takes dull characters. -/
theorem escapeLength_append {scope : Scope} {c : Char} {a u v : Text}
    (hs : scope = .insideClass ∨ scope = .outsideClass) (h : BaselineToken.Tail c (a ++ u) a.length)
    (hv : Trails u v) : ∃ k, escapeLength scope ('\\' :: c :: (a ++ v)) = k + 2 ∧
      (k = a.length ∨ (∀ d ∈ a, isDull d = true) ∧ ∀ d ∈ (a ++ v).take k, isDull d = true) := by
  obtain ⟨k, hk, ht⟩ := escapeLength_backslash hs c (a ++ v)
  refine ⟨k, hk, ?_⟩
  rw [BaselineToken.Tail] at h ht
  by_cases ho : Place.opensName c (a ++ u) = true
  · -- The name of a property is closed at the same place whatever is behind it.
    left
    rw [if_pos ho] at h
    simp only [Place.opensName, Bool.and_eq_true, bne_iff_ne, ne_eq] at ho
    obtain ⟨name, rfl, hname⟩ := eq_braces_of_length h.symm ho.2
    have hclosed : BaselineToken.braced (· != '}') ('\x7b' :: (name ++ ['}']) ++ v) =
        name.length + 2 := by
      simpa using braced_of_closed hname (by decide) v
    have hopen : Place.opensName c ('\x7b' :: (name ++ ['}']) ++ v) = true := by
      rw [Place.opensName, hclosed]
      simpa using ho.1
    rw [if_pos hopen, hclosed] at ht
    simpa using ht
  · right
    rw [if_neg ho, List.take_left] at h
    refine ⟨fun d hd => isDull_of_isTail (h.1 d hd), ?_⟩
    split at ht
    · next hopen =>
      have hc : c = 'p' ∨ c = 'P' := by
        simp only [Place.opensName, Bool.and_eq_true, Bool.or_eq_true, beq_iff_eq] at hopen
        exact hopen.1
      obtain rfl : a = [] := List.length_eq_zero_iff.1 (h.2 hc)
      rw [ht]
      refine isDull_of_trails hv ?_
      rcases hc with rfl | rfl <;> simpa [Place.opensName] using ho
    · exact fun d hd => isDull_of_isTail (ht.1 d hd)

theorem Trails.refl (t : Text) : Trails t t := ⟨id, fun h h' => absurd h h'⟩

namespace Peel

variable {scope after last : Scope} {c : Char} {a t u v : Text} {new more : List Mark} {k : Nat}

theorem nothing (scope : Scope) (t : Text) : Peel scope t [] scope t := ⟨takes_refl _, rfl⟩

theorem trans (h : Peel scope t new after u) (h' : Peel after u more last v) :
    Peel scope t (new ++ more) last v where
  marks := by
    rw [List.append_assoc]
    exact takes_trans h.marks (List.rel_append (takes_refl new) h'.marks)
  scope := h.scope.trans h'.scope

theorem of_eq (h : Baseline.marks scope 0 t = new ++ Baseline.marks after 0 u ∧
    scopeAfter scope 0 t = scopeAfter after 0 u) : Peel scope t new after u :=
  ⟨h.1 ▸ takes_refl _, h.2⟩

theorem marks_bare (h : escapeLength scope (c :: t) = 0) :
    Baseline.marks scope 0 (c :: t) = [⟨c, scope, false⟩] ++
      Baseline.marks (scopeBehind scope c) 0 t ∧
      scopeAfter scope 0 (c :: t) = scopeAfter (scopeBehind scope c) 0 t := by
  simp [Baseline.marks, scopeAfter, h]

theorem bare (h : escapeLength scope (c :: t) = 0) :
    Peel scope (c :: t) [⟨c, scope, false⟩] (scopeBehind scope c) t := of_eq (marks_bare h)

/-- Characters that neither start an escape nor turn the scope are read one by one. -/
theorem marks_plain (h : ∀ d ∈ a, d ≠ '\\' ∧ scopeBehind scope d = scope) (t : Text) :
    Baseline.marks scope 0 (a ++ t) = a.map (⟨·, scope, false⟩) ++ Baseline.marks scope 0 t ∧
      scopeAfter scope 0 (a ++ t) = scopeAfter scope 0 t := by
  induction a with
  | nil => exact ⟨rfl, rfl⟩
  | cons d a ih =>
    obtain ⟨hd, hs⟩ := h d (by simp)
    obtain ⟨hmarks, hafter⟩ := marks_bare (@escapeLength_of_ne scope d hd (a ++ t))
    obtain ⟨ih₁, ih₂⟩ := ih fun e he => h e (by simp [he])
    rw [List.cons_append, hmarks, hafter, hs, ih₁, ih₂]
    exact ⟨rfl, rfl⟩

theorem plain (h : ∀ d ∈ a, d ≠ '\\' ∧ scopeBehind scope d = scope) (t : Text) :
    Peel scope (a ++ t) (a.map (⟨·, scope, false⟩)) scope t := of_eq (marks_plain h t)

theorem plain_of_isDull (h : isDull c = true) : c ≠ '\\' ∧ scopeBehind scope c = scope :=
  ⟨ne_of_isDull h (by decide), scopeBehind_of_ne (ne_of_isDull h (by decide))
    (ne_of_isDull h (by decide))⟩

theorem marks_skip (scope : Scope) (a t : Text) :
    Baseline.marks scope a.length (a ++ t) = a.map (⟨·, scope, true⟩) ++ Baseline.marks scope 0 t ∧
      scopeAfter scope a.length (a ++ t) = scopeAfter scope 0 t := by
  induction a with
  | nil => exact ⟨rfl, rfl⟩
  | cons d a ih => simp [Baseline.marks, scopeAfter, ih.1, ih.2]

/-- Dull characters may belong to the escape before them or not; nothing else changes. -/
theorem marks_takes (h : ∀ d ∈ t.take k, isDull d = true) :
    List.Forall₂ Mark.Takes (Baseline.marks scope k t) (Baseline.marks scope 0 t) ∧
      scopeAfter scope k t = scopeAfter scope 0 t := by
  induction t generalizing k with
  | nil => simp
  | cons d t ih =>
    cases k with
    | zero => exact ⟨takes_refl _, rfl⟩
    | succ k =>
      have hd := h d (by simp)
      obtain ⟨hne, hscope⟩ := @plain_of_isDull scope d hd
      obtain ⟨ih₁, ih₂⟩ := @ih k fun e he => h e (by simp [he])
      rw [Baseline.marks, scopeAfter, Baseline.marks, scopeAfter, escapeLength_of_ne hne, hscope]
      exact ⟨.cons (.inr ⟨hd, rfl⟩) ih₁, ih₂⟩

theorem marks_backslash (h : escapeLength scope ('\\' :: c :: t) = k + 2) :
    Baseline.marks scope 0 ('\\' :: c :: t) =
      ⟨'\\', scope, true⟩ :: ⟨c, scope, true⟩ :: Baseline.marks scope k t ∧
      scopeAfter scope 0 ('\\' :: c :: t) = scopeAfter scope k t := by
  simp [Baseline.marks, scopeAfter, h]

theorem marks_escape (h : escapeLength scope ('\\' :: c :: (a ++ t)) = a.length + 2) :
    Baseline.marks scope 0 ('\\' :: c :: (a ++ t)) =
        ('\\' :: c :: a).map (⟨·, scope, true⟩) ++ Baseline.marks scope 0 t ∧
      scopeAfter scope 0 ('\\' :: c :: (a ++ t)) = scopeAfter scope 0 t := by
  obtain ⟨hm, hafter⟩ := marks_backslash h
  obtain ⟨hskip, hscope⟩ := marks_skip scope a t
  rw [hm, hafter, hskip, hscope]
  exact ⟨rfl, rfl⟩

theorem dull (hk : escapeLength scope ('\\' :: c :: (a ++ v)) = k + 2)
    (ha : ∀ d ∈ a, isDull d = true) (htake : ∀ d ∈ (a ++ v).take k, isDull d = true) :
    Peel scope ('\\' :: c :: (a ++ v))
      (⟨'\\', scope, true⟩ :: ⟨c, scope, true⟩ :: a.map (⟨·, scope, false⟩)) scope v := by
  obtain ⟨hm, hafter⟩ := marks_backslash hk
  obtain ⟨htakes, hscope⟩ := @marks_takes scope (a ++ v) k htake
  have hplain := @plain scope a (fun d hd => plain_of_isDull (ha d hd)) v
  refine ⟨?_, hafter.trans (hscope.trans hplain.scope)⟩
  rw [hm]
  exact .cons (.inl rfl) (.cons (.inl rfl) (takes_trans htakes hplain.marks))

/-- An escape of the source is one in front of what is emitted after it, but for dull characters at
its end. -/
theorem escape (hs : scope = .insideClass ∨ scope = .outsideClass)
    (h : BaselineToken.Tail c (a ++ u) a.length)
    (hv : Trails u v) : ∃ new, Peel scope ('\\' :: c :: (a ++ v)) new scope v ∧ new ≠ [] ∧
      ∀ x ∈ new, x.scope = scope ∧ (x.escaped = true ∨ isDull x.char = true) := by
  obtain ⟨k, hk, htake⟩ := escapeLength_append hs h hv
  rcases htake with rfl | ⟨ha, htake⟩
  · refine ⟨_, of_eq (marks_escape hk), by simp, fun x hx => ?_⟩
    obtain ⟨d, -, rfl⟩ := List.mem_map.1 hx
    exact ⟨rfl, .inl rfl⟩
  · refine ⟨_, dull hk ha htake, by simp, fun x hx => ?_⟩
    rw [List.mem_cons, List.mem_cons, List.mem_map] at hx
    rcases hx with rfl | rfl | ⟨d, hd, rfl⟩
    · exact ⟨rfl, .inl rfl⟩
    · exact ⟨rfl, .inl rfl⟩
    · exact ⟨rfl, .inr (ha d hd)⟩

theorem letter (hs : scope = .insideClass ∨ scope = .outsideClass) (hp : c ≠ 'p')
    (hP : c ≠ 'P') (v : Text) :
    Peel scope ('\\' :: c :: v) [⟨'\\', scope, true⟩, ⟨c, scope, true⟩] scope v := by
  obtain ⟨k, hk, ht⟩ := escapeLength_backslash hs c v
  rw [BaselineToken.Tail, opensName_of_ne hp hP, if_neg (by simp)] at ht
  exact @dull scope c [] v k hk (by simp) fun d hd => isDull_of_isTail (ht.1 d hd)

end Peel

end Baseline

end RegexDialect
