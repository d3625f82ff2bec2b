import RegexDialect.Proofs.Reading

/-! Reading a text and reading it with a closing parenthesis behind it. Where both succeed they take
the same, and what is left differs by that parenthesis, unless a comment at the end of the text has
taken it. -/
namespace RegexDialect.Baseline.Reader

/-- The second text is the first with a closing parenthesis behind it, or a comment has taken all of
both. -/
inductive Enclosed : Text → Text → Prop
  | closed (t : Text) : Enclosed t (t ++ [')'])
  | taken : Enclosed [] []

namespace Enclosed

variable {c : Char} {t s : Text}

theorem of_nil (h : Enclosed [] s) : s = [')'] ∨ s = [] := by
  cases h with
  | closed => exact .inl rfl
  | taken => exact .inr rfl

theorem of_cons (h : Enclosed (c :: t) s) : s = c :: (t ++ [')']) := by
  cases h
  rfl

theorem length_eq (h : Enclosed t s) (ht : t ≠ []) : s.length = t.length + 1 := by
  cases h with
  | closed => simp
  | taken => exact absurd rfl ht

theorem beq_length {u v : Text} (h : Enclosed u v) :
    (v.length == (c :: (t ++ [')'])).length) = (u.length == (c :: t).length) := by
  rw [Bool.eq_iff_iff]
  cases h with
  | closed => simp
  | taken => simp

end Enclosed

def Parallel {ε α β : Type} (R : α → β → Prop) (x : Except ε α) (y : Except ε β) : Prop :=
  ∀ a b, x = .ok a → y = .ok b → R a b

/-- The same result and the same notes, with rests of an enclosed text. -/
inductive SameStep {α : Type} : Step α → Step α → Prop
  | intro (a : α) (n : Notes) {t s : Text} (h : Enclosed t s) : SameStep (a, t, n) (a, s, n)

namespace Parallel

variable {ε α β γ δ : Type} {R : α → β → Prop} {S : γ → δ → Prop} {x : Except ε α} {y : Except ε β}

theorem ok {a : α} {b : β} (h : R a b) : Parallel R (.ok a : Except ε α) (.ok b) := by
  intro a' b' ha hb
  obtain rfl := Except.ok.inj ha
  obtain rfl := Except.ok.inj hb
  exact h

theorem error_left (e : ε) (y : Except ε β) : Parallel R (.error e) y := by
  intro a b ha
  exact absurd ha (by simp)

theorem error_right (x : Except ε α) (e : ε) : Parallel R x (.error e) := by
  intro a b _ hb
  exact absurd hb (by simp)

theorem bind {f : α → Except ε γ} {g : β → Except ε δ} (h : Parallel R x y)
    (hf : ∀ a b, R a b → Parallel S (f a) (g b)) : Parallel S (x >>= f) (y >>= g) := by
  intro c d hc hd
  obtain ⟨a, ha, hc⟩ := exists_of_bind_eq_ok hc
  obtain ⟨b, hb, hd⟩ := exists_of_bind_eq_ok hd
  exact hf a b (h a b ha hb) c d hc hd

theorem of_ok (h : ∀ a, x = .ok a → ∃ b, y = .ok b ∧ R a b) : Parallel R x y := by
  intro a b ha hb
  obtain ⟨b', hb', hr⟩ := h a ha
  obtain rfl := Except.ok.inj (hb'.symm.trans hb)
  exact hr

end Parallel

section Skip

variable {spacing : Bool} {k : Skip} {t s : Text} {n m : Notes}

def skipped (n : Notes) (t : Text) : Text := (skipIn n t).toOption.getD []

theorem not_comment_append {c : Char} {r : Text} (h : ∀ u, c = '(' → r = '?' :: '#' :: u → False) :
    ∀ u, c = '(' → r ++ [')'] = '?' :: '#' :: u → False := by
  intro u hc hr
  rcases r with _ | ⟨d, _ | ⟨e, r⟩⟩
  · simp at hr
  · simp at hr
  · obtain ⟨rfl, rfl, -⟩ : d = '?' ∧ e = '#' ∧ r ++ [')'] = u := by simpa using hr
    exact h r hc rfl

/-- What is skipped at the start of a text is skipped with a parenthesis behind it. -/
theorem enclosed_skip (spacing : Bool) (k : Skip) (t : Text) :
    Enclosed ((skip spacing k t).toOption.getD [])
      ((skip spacing k (t ++ [')'])).toOption.getD []) := by
  fun_induction skip spacing k t with
  | case1 => exact .taken
  | case2 r ih => exact ih
  | case3 head r ih => exact ih
  | case4 head r hclosing hescape ih =>
    cases r with
    | nil =>
      -- A backslash in front of the parenthesis takes it, and the comment does not end.
      by_cases hhead : head = '\\'
      · subst hhead
        exact .taken
      · have hskip : skip spacing .groupComment ([head] ++ [')']) =
            skip spacing .groupComment ([] ++ [')']) := by
          rw [List.cons_append, skip]
          · exact hclosing
          · exact fun _ _ h => absurd h hhead
        rwa [hskip]
    | cons d r =>
      have hhead : head ≠ '\\' := fun h => hescape d r h rfl
      have hskip : skip spacing .groupComment (head :: d :: r ++ [')']) =
          skip spacing .groupComment (d :: r ++ [')']) := by
        rw [List.cons_append, skip]
        · exact hclosing
        · exact fun _ _ h => absurd h hhead
      rwa [hskip]
  | case5 r ih => exact ih
  | case6 head r hfeed ih =>
    rw [List.cons_append, skip]
    · exact ih
    · exact hfeed
  | case7 r ih => exact ih
  | case8 c r hcomment hsign ih =>
    rw [List.cons_append, skip, if_pos hsign]
    · exact ih
    · exact not_comment_append hcomment
  | case9 c r hcomment hsign hblank ih =>
    rw [List.cons_append, skip, if_neg hsign, if_pos hblank]
    · exact ih
    · exact not_comment_append hcomment
  | case10 c r hcomment hsign hblank =>
    rw [List.cons_append, skip, if_neg hsign, if_neg hblank]
    · exact .closed (c :: r)
    · exact not_comment_append hcomment
  | case11 k hk =>
    cases k with
    | groupComment => exact absurd rfl hk
    | lineComment => exact .taken
    | between =>
      have hskip : skip spacing .between [')'] = .ok [')'] := by cases spacing <;> rfl
      rw [List.nil_append, hskip]
      exact .closed []

theorem enclosed_skipped (h : Enclosed t s) (n : Notes) : Enclosed (skipped n t) (skipped n s) := by
  cases h with
  | closed => exact enclosed_skip n.mode.spacing .between t
  | taken => exact .taken

theorem skipped_of_ok {u : Text} (h : skipIn n t = .ok u) : skipped n t = u := by
  rw [skipped, h]; rfl

theorem parallel_skipIn (h : Enclosed t s) : Parallel Enclosed (skipIn n t) (skipIn n s) := by
  intro u v hu hv
  rw [← skipped_of_ok hu, ← skipped_of_ok hv]
  exact enclosed_skipped h n

theorem parallel_closing (h : Enclosed t s) : Parallel Enclosed (closing n t) (closing n s) := by
  refine (parallel_skipIn h).bind ?_
  intro u v huv
  rcases u with _ | ⟨c, u⟩
  · exact .error_left _ _
  · obtain rfl := huv.of_cons
    split
    · next r hr =>
      obtain ⟨rfl, rfl⟩ := List.cons.inj hr
      exact .ok (.closed u)
    · exact absurd ‹_› (by simp)
    · exact .error_left _ _

end Skip

section Words

variable {t rest u close : Text} {n m : Notes} {k : Nat}

theorem takeWhile_append_of_not {p : Char → Bool} {c : Char} (hc : p c = false) (t : Text) :
    (t ++ [c]).takeWhile p = t.takeWhile p := by
  induction t with
  | nil => simp [hc]
  | cons d t ih =>
    cases hd : p d with
    | true => simp [hd, ih]
    | false => simp [hd]

theorem drop_takeWhile_append (p : Char → Bool) (t u : Text) :
    (t ++ u).drop (t.takeWhile p).length = t.drop (t.takeWhile p).length ++ u :=
  List.drop_append_of_le_length (List.takeWhile_prefix p).length_le

theorem number?_append (t : Text) :
    number? (t ++ [')']) = (number? t).map fun x => (x.1, x.2 ++ [')']) := by
  simp only [number?, takeWhile_append_of_not (show Char.isDigit ')' = false by decide),
    drop_takeWhile_append]
  cases Text.toNat? (t.takeWhile Char.isDigit) with
  | none => rfl
  | some k =>
    dsimp only
    split <;> rfl

theorem dropHead?_append_of_some (h : Text.dropHead? close t = some rest) (u : Text) :
    Text.dropHead? close (t ++ u) = some (rest ++ u) := by
  rw [Text.eq_append_of_dropHead? h, List.append_assoc, Text.dropHead?_append]

/-- A run that something follows is not longer with more text behind that. -/
theorem takeWhile_append_of_drop_ne_nil {p : Char → Bool} (h : t.drop (t.takeWhile p).length ≠ [])
    (u : Text) :
    (t ++ u).takeWhile p = t.takeWhile p := by
  obtain ⟨a, b, rfl, ha, hb⟩ := Text.exists_run p t
  rw [Text.takeWhile_run ha hb, List.drop_left] at h
  have hu : ∀ c ∈ (b ++ u).head?, p c = false := by
    intro c hc
    rw [List.head?_append, Option.mem_def, List.head?_eq_some_head h, Option.some_or] at hc
    exact hb c (by rw [Option.mem_def, List.head?_eq_some_head h, hc])
  rw [Text.takeWhile_run ha hb, List.append_assoc, Text.takeWhile_run ha hu]

theorem name?_append {name : Text} (hclose : close ≠ []) (h : name? close t = some (name, rest))
    (u : Text) :
    name? close (t ++ u) = some (name, rest ++ u) := by
  unfold name? at h
  dsimp only at h
  split at h
  · exact absurd h (by simp)
  · next hname =>
    obtain ⟨r, hr, he⟩ := Option.map_eq_some_iff.1 h
    obtain ⟨rfl, rfl⟩ := Prod.mk.inj he
    have hne : t.drop (t.takeWhile isNameChar).length ≠ [] := by
      rw [Text.eq_append_of_dropHead? hr]
      simp [hclose]
    have hrun := takeWhile_append_of_drop_ne_nil hne u
    simp only [name?, hrun, drop_takeWhile_append]
    rw [if_neg hname, dropHead?_append_of_some hr]
    rfl

theorem relative?_append {opened : Nat} (h : relative? opened close t = some (k, rest)) :
    relative? opened close (t ++ [')']) = some (k, rest ++ [')']) := by
  unfold relative? at h
  split at h
  · next r =>
    simp only [Option.bind_eq_bind, Option.bind_eq_some_iff] at h
    obtain ⟨⟨d, v⟩, hd, w, hw, h⟩ := h
    have hnumber : number? (r ++ [')']) = some (d, v ++ [')']) := by rw [number?_append, hd]; rfl
    simp only [relative?, List.cons_append, hnumber, Option.bind_eq_bind, Option.bind_some,
      dropHead?_append_of_some hw]
    split at h
    · next hz =>
      obtain ⟨rfl, rfl⟩ := Prod.mk.inj (Option.some.inj h)
      rw [if_pos hz]
    · next hz =>
      split at h
      · exact absurd h (by simp)
      · next hlt =>
        obtain ⟨rfl, rfl⟩ := Prod.mk.inj (Option.some.inj h)
        rw [if_neg hz, if_neg hlt]
  · exact absurd h (by simp)

theorem name?_of_relative? {opened : Nat} {found : Nat × Text}
    (h : relative? opened close t = some found) (u : Text) :
    name? close (t ++ u) = none := by
  unfold relative? at h
  split at h
  · next r =>
    have hhyphen : isNameChar '-' = false := by decide
    simp [name?, hhyphen]
  · exact absurd h (by simp)

/-- A reference by name is read up to the text that closes it. -/
theorem namedReference_append {relative : Bool} (hclose : close ≠ [])
    (h : namedReference close relative t n = .ok (k, rest, m)) :
    namedReference close relative (t ++ [')']) n = .ok (k, rest ++ [')'], m) := by
  unfold namedReference at h
  dsimp only at h
  split at h
  · next group r hfound =>
    simp only [Except.ok.injEq, Prod.mk.injEq] at h
    obtain ⟨rfl, rfl, rfl⟩ := h
    split at hfound
    · next name v hname =>
      simp only [namedReference, name?_append hclose hname]
      split at hfound
      · obtain ⟨rfl, rfl⟩ := Prod.mk.inj (Option.some.inj hfound)
        rfl
      · obtain ⟨x, hx, hrest⟩ := Option.bind_eq_some_iff.1 hfound
        split at hrest
        · next hempty =>
          obtain ⟨rfl, rfl⟩ := Prod.mk.inj (Option.some.inj hrest)
          simp only [hx, Option.bind_some, if_pos hempty]
        · exact absurd hrest (by simp)
    · split at hfound
      · next hrelative =>
        simp only [namedReference, name?_of_relative? hfound, hrelative, if_true,
          relative?_append hfound]
      · exact absurd hfound (by simp)
  · exact absurd h (by simp)

theorem parallel_numberedReference (size size' : Nat) (t : Text) (n : Notes) :
    Parallel SameStep (numberedReference size t n) (numberedReference size' (t ++ [')']) n) := by
  unfold numberedReference
  rw [number?_append]
  rcases number? t with _ | ⟨k, rest⟩
  · exact .error_left _ _
  · dsimp only [Option.map_some]
    split
    · split
      · exact .ok (.intro k _ (.closed rest))
      · exact .error_right _ _
    · exact .error_left _ _

theorem hexEscape_append {digits : Nat} {c : Char} (hd : 0 < digits)
    (h : hexEscape digits t = .ok (c, rest)) (u : Text) :
    hexEscape digits (t ++ u) = .ok (c, rest ++ u) := by
  unfold hexEscape at h
  dsimp only at h
  split at h
  · next hfirst =>
    simp only [Bool.and_eq_true, beq_iff_eq, List.length_take] at hfirst
    have hle : digits ≤ t.length := by omega
    obtain ⟨d, hchar, h⟩ := exists_of_bind_eq_ok h
    simp only [Except.ok.injEq, Prod.mk.injEq] at h
    obtain ⟨rfl, rfl⟩ := h
    have hlength : min digits t.length = digits := by omega
    simp [hexEscape, List.take_append_of_le_length hle, List.drop_append_of_le_length hle, hfirst.2,
      hchar, hlength, bind, Except.bind]
  · split at h
    · next r _ =>
      split at h
      · next v hv =>
        split at h
        · exact absurd h (by simp)
        · next hinner =>
          obtain ⟨d, hchar, h⟩ := exists_of_bind_eq_ok h
          simp only [Except.ok.injEq, Prod.mk.injEq] at h
          obtain ⟨rfl, rfl⟩ := h
          have hbrace : Text.isHexDigit '\x7b' = false := by decide
          have hrun :=
            takeWhile_append_of_drop_ne_nil (p := Text.isHexDigit) (t := r) (by rw [hv]; simp) u
          obtain ⟨k, rfl⟩ : ∃ k, digits = k + 1 := ⟨digits - 1, by omega⟩
          simp only [hexEscape, List.cons_append, List.take_succ_cons, List.all_cons, hbrace,
            Bool.false_and,
            Bool.and_false, Bool.false_eq_true, if_false, hrun, drop_takeWhile_append, hv]
          rw [if_neg hinner, hchar]
          rfl
      · exact absurd h (by simp)
    · exact absurd h (by simp)

theorem propertyText_append {inner : Text} (h : propertyText t = .ok (inner, rest)) (u : Text) :
    propertyText (t ++ u) = .ok (inner, rest ++ u) := by
  unfold propertyText at h
  split at h
  · next r =>
    dsimp only at h
    split at h
    · next v hv =>
      simp only [Except.ok.injEq, Prod.mk.injEq] at h
      obtain ⟨rfl, rfl⟩ := h
      have hrun := takeWhile_append_of_drop_ne_nil (p := (· != '}')) (t := r) (by rw [hv]; simp) u
      simp only [propertyText, List.cons_append, hrun, drop_takeWhile_append, hv]
    · exact absurd h (by simp)
  · next c r hbrace =>
    simp only [Except.ok.injEq, Prod.mk.injEq] at h
    obtain ⟨rfl, rfl⟩ := h
    rw [List.cons_append, propertyText]
    exact hbrace
  · exact absurd h (by simp)

end Words

section Quantifier

variable {t s : Text}

inductive SameBounds : Nat × Option Nat × Text → Nat × Option Nat × Text → Prop
  | intro (least : Nat) (most : Option Nat) {t s : Text} (h : Enclosed t s) :
    SameBounds (least, most, t) (least, most, s)

/-- The greatest number of bounds, if there is one, and the text after it. -/
def most? (t : Text) : Option Nat × Text :=
  match number? t with
  | some (m, r) => (some m, r)
  | none => (none, t)

def boundsEnd (least : Nat) (most : Option Nat) : Text → Option (Nat × Option Nat × Text)
  | '}' :: r => some (least, most, r)
  | _ => none

theorem boundsEnd_skipped (n : Notes) (least : Nat) (most : Option Nat) (t : Text) :
    ((skipIn n t).toOption.bind fun u => boundsEnd least most u) =
      boundsEnd least most (skipped n t) := by
  rw [skipped]
  rcases skipIn n t with e | u <;> rfl

def boundsRest (n : Notes) (least : Nat) : Text → Option (Nat × Option Nat × Text)
  | '}' :: r => some (least, some least, r)
  | ',' :: r => boundsEnd least (most? (skipped n r)).1 (skipped n (most? (skipped n r)).2)
  | _ => none

theorem boundsAfter?_eq (n : Notes) (least : Nat) (t : Text) :
    boundsAfter? n least t = boundsRest n least (skipped n t) := by
  unfold boundsAfter?
  rcases ht : skipIn n t with e | u
  · have hnone : skipped n t = [] := by rw [skipped, ht]; rfl
    rw [hnone]
    rfl
  · rw [skipped_of_ok ht]
    simp only [Except.toOption, Option.bind_eq_bind, Option.bind_some]
    split
    · rfl
    · next r =>
      rw [boundsRest]
      rcases hr : skipIn n r with e | v
      · have hnone : skipped n r = [] := by rw [skipped, hr]; rfl
        change none = boundsEnd least (most? (skipped n r)).1 (skipped n (most? (skipped n r)).2)
        rw [hnone]
        rfl
      · simp only [skipped_of_ok hr, Option.bind_some]
        rcases hnumber : number? v with _ | ⟨m, w⟩
        · have hmost : most? v = (none, v) := by rw [most?, hnumber]
          rw [hmost]
          exact boundsEnd_skipped n least none v
        · have hmost : most? v = (some m, w) := by rw [most?, hnumber]
          rw [hmost]
          exact boundsEnd_skipped n least (some m) w
    · next hclose hcomma =>
      rw [boundsRest]
      · exact hclose
      · exact hcomma

def boundsStart (n : Notes) : Text → Option (Nat × Option Nat × Text)
  | ',' :: r => boundsAfter? n 0 (',' :: r)
  | r => (number? r).bind fun x => boundsAfter? n x.1 x.2

theorem bounds?_eq (n : Notes) (t : Text) : bounds? n t = boundsStart n (skipped n t) := by
  unfold bounds?
  rcases ht : skipIn n t with e | u
  · have hnone : skipped n t = [] := by rw [skipped, ht]; rfl
    rw [hnone]
    rfl
  · rw [skipped_of_ok ht]
    rfl

theorem same_most? (h : Enclosed t s) :
    (most? s).1 = (most? t).1 ∧ Enclosed (most? t).2 (most? s).2 := by
  cases h with
  | taken => exact ⟨rfl, .taken⟩
  | closed =>
    rw [most?, most?, number?_append]
    rcases number? t with _ | ⟨k, r⟩
    · exact ⟨rfl, .closed t⟩
    · exact ⟨rfl, .closed r⟩

theorem rel_boundsEnd (least : Nat) (most : Option Nat) (h : Enclosed t s) :
    Option.Rel SameBounds (boundsEnd least most t) (boundsEnd least most s) := by
  rcases t with _ | ⟨c, t⟩
  · rcases h.of_nil with rfl | rfl <;> exact .none
  · obtain rfl := h.of_cons
    by_cases hc : c = '}'
    · subst hc
      exact .some (.intro least most (.closed t))
    · have hother : ∀ r, boundsEnd least most (c :: r) = none := by
        intro r
        rw [boundsEnd]
        intro u hu
        exact hc (List.cons.inj hu).1
      rw [hother, hother]
      exact .none

theorem rel_boundsRest (n : Notes) (least : Nat) (h : Enclosed t s) :
    Option.Rel SameBounds (boundsRest n least t) (boundsRest n least s) := by
  rcases t with _ | ⟨c, t⟩
  · rcases h.of_nil with rfl | rfl <;> exact .none
  · obtain rfl := h.of_cons
    by_cases hc : c = '}'
    · subst hc
      exact .some (.intro least _ (.closed t))
    · by_cases hcomma : c = ','
      · subst hcomma
        obtain ⟨hmost, htail⟩ := same_most? (enclosed_skipped (.closed t) n)
        rw [boundsRest, boundsRest, hmost]
        exact rel_boundsEnd least _ (enclosed_skipped htail n)
      · have hother : ∀ r, boundsRest n least (c :: r) = none := by
          intro r
          rw [boundsRest]
          · intro u hu
            exact hc (List.cons.inj hu).1
          · intro u hu
            exact hcomma (List.cons.inj hu).1
        rw [hother, hother]
        exact .none

theorem rel_boundsAfter? (n : Notes) (least : Nat) (h : Enclosed t s) :
    Option.Rel SameBounds (boundsAfter? n least t) (boundsAfter? n least s) := by
  rw [boundsAfter?_eq, boundsAfter?_eq]
  exact rel_boundsRest n least (enclosed_skipped h n)

theorem rel_bounds? (n : Notes) (h : Enclosed t s) :
    Option.Rel SameBounds (bounds? n t) (bounds? n s) := by
  have hskipped := enclosed_skipped h n
  rw [bounds?_eq, bounds?_eq]
  revert hskipped
  generalize skipped n t = u
  generalize skipped n s = v
  intro huv
  rcases u with _ | ⟨c, u⟩
  · rcases huv.of_nil with rfl | rfl <;> exact .none
  · obtain rfl := huv.of_cons
    by_cases hcomma : c = ','
    · subst hcomma
      exact rel_boundsAfter? n 0 (.closed _)
    · have hother : ∀ r, boundsStart n (c :: r) = (number? (c :: r)).bind fun x =>
          boundsAfter? n x.1 x.2 := by
        intro r
        rw [boundsStart]
        intro u hu
        exact hcomma (List.cons.inj hu).1
      rw [hother, hother, ← List.cons_append, number?_append]
      rcases number? (c :: u) with _ | ⟨k, r⟩
      · exact .none
      · exact rel_boundsAfter? n k (.closed r)

theorem rel_quantifier? (n : Notes) (h : Enclosed t s) :
    Option.Rel SameBounds (quantifier? n t) (quantifier? n s) := by
  rcases t with _ | ⟨c, t⟩
  · rcases h.of_nil with rfl | rfl <;> exact .none
  · obtain rfl := h.of_cons
    unfold quantifier?
    split
    · next r hr =>
      obtain ⟨rfl, rfl⟩ := List.cons.inj hr
      exact .some (.intro 0 _ (.closed t))
    · next r hr =>
      obtain ⟨rfl, rfl⟩ := List.cons.inj hr
      exact .some (.intro 0 _ (.closed t))
    · next r hr =>
      obtain ⟨rfl, rfl⟩ := List.cons.inj hr
      exact .some (.intro 1 _ (.closed t))
    · next r hr =>
      obtain ⟨rfl, rfl⟩ := List.cons.inj hr
      exact rel_bounds? n (.closed t)
    · next h1 h2 h3 h4 =>
      split
      · next r hr => exact absurd (List.cons.inj hr).1 fun hc => h1 t (by rw [hc])
      · next r hr => exact absurd (List.cons.inj hr).1 fun hc => h2 t (by rw [hc])
      · next r hr => exact absurd (List.cons.inj hr).1 fun hc => h3 t (by rw [hc])
      · next r hr => exact absurd (List.cons.inj hr).1 fun hc => h4 t (by rw [hc])
      · exact .none

end Quantifier

section Classes

variable {t rest : Text}

theorem hexDigits_append {digits : Nat} {piece : Text} (hd : 0 < digits)
    (h : (hexEscape digits t >>= fun x => Except.ok (classChar x.1, x.2)) = .ok (piece, rest))
    (u : Text) :
    (hexEscape digits (t ++ u) >>= fun x => Except.ok (classChar x.1, x.2)) =
      (Except.ok (piece, rest ++ u) : Except BuildFault (Text × Text)) := by
  obtain ⟨⟨a, r⟩, ha, h⟩ := exists_of_bind_eq_ok h
  simp only [Except.ok.injEq, Prod.mk.injEq] at h
  obtain ⟨rfl, rfl⟩ := h
  rw [hexEscape_append hd ha]
  rfl

theorem property_append {c : Char} {piece : Text}
    (h : (propertyText t >>= fun x => Except.ok (['\\', c] ++ x.1, x.2)) = .ok (piece, rest))
    (u : Text) :
    (propertyText (t ++ u) >>= fun x => Except.ok (['\\', c] ++ x.1, x.2)) =
      (Except.ok (piece, rest ++ u) : Except BuildFault (Text × Text)) := by
  obtain ⟨⟨a, r⟩, ha, h⟩ := exists_of_bind_eq_ok h
  simp only [Except.ok.injEq, Prod.mk.injEq] at h
  obtain ⟨rfl, rfl⟩ := h
  rw [propertyText_append ha]
  rfl

theorem classEscape_append {piece : Text} (h : classEscape t = .ok (piece, rest)) (u : Text) :
    classEscape (t ++ u) = .ok (piece, rest ++ u) := by
  have hplain : ∀ {a r : Text}, (Except.ok (a, r) : Except BuildFault (Text × Text)) =
      .ok (piece, rest) →
      (Except.ok (a, r ++ u) : Except BuildFault (Text × Text)) = .ok (piece, rest ++ u) := by
    intro a r h
    simp only [Except.ok.injEq, Prod.mk.injEq] at h
    obtain ⟨rfl, rfl⟩ := h
    rfl
  cases t with
  | nil => exact absurd h (by simp [classEscape])
  | cons c r =>
    simp only [List.cons_append]
    unfold classEscape at h ⊢
    simp only at h ⊢
    split at h
    · exact absurd h (by simp)
    · next hdigit =>
      rw [if_neg hdigit]
      split at h
      · exact hplain h
      · exact hplain h
      · exact hplain h
      · exact hplain h
      · exact hplain h
      · exact hplain h
      · exact hplain h
      · exact hplain h
      · exact hexDigits_append (by decide) h u
      · exact hexDigits_append (by decide) h u
      · exact hexDigits_append (by decide) h u
      · exact property_append h u
      · exact property_append h u
      · exact hplain h
      · split at h
        · exact hplain h
        · split at h
          · exact absurd h (by simp)
          · next hknown =>
            rw [if_neg hknown]
            exact hplain h

theorem classBody_append {fuel fuel' nesting : Nat} {done pieces : List Text}
    (h : classBody fuel nesting done t = .ok (pieces, rest)) (hle : fuel ≤ fuel') (u : Text) :
    classBody fuel' nesting done (t ++ u) = .ok (pieces, rest ++ u) := by
  fun_induction classBody fuel nesting done t generalizing fuel' with
  | case1 => exact absurd h (by simp)
  | case2 => exact absurd h (by simp)
  | case3 nesting done fuel r ih =>
    obtain ⟨f, rfl⟩ : ∃ f, fuel' = f + 1 := ⟨fuel' - 1, by omega⟩
    obtain ⟨⟨piece, mid⟩, hpiece, h⟩ := exists_of_bind_eq_ok h
    rw [List.cons_append, classBody, classEscape_append hpiece]
    exact ih piece mid h (by omega)
  | case4 nesting done fuel r ih =>
    obtain ⟨f, rfl⟩ : ∃ f, fuel' = f + 1 := ⟨fuel' - 1, by omega⟩
    exact ih h (by omega)
  | case5 fuel done r =>
    obtain ⟨f, rfl⟩ : ∃ f, fuel' = f + 1 := ⟨fuel' - 1, by omega⟩
    simp only [Except.ok.injEq, Prod.mk.injEq] at h
    obtain ⟨rfl, rfl⟩ := h
    rfl
  | case6 fuel nesting done r ih =>
    obtain ⟨f, rfl⟩ : ∃ f, fuel' = f + 1 := ⟨fuel' - 1, by omega⟩
    exact ih h (by omega)
  | case7 fuel nesting done c r hslash hopen hclose hclose' ih =>
    obtain ⟨f, rfl⟩ : ∃ f, fuel' = f + 1 := ⟨fuel' - 1, by omega⟩
    rw [List.cons_append, classBody]
    · exact ih h (by omega)
    · exact hslash
    · exact hopen
    · exact hclose
    · exact hclose'

/-- The start of a class with the caret behind its bracket, and the text after it. -/
def classCaret : Text → Text × Text
  | '^' :: r => (['[', '^'], r)
  | r => (['['], r)

/-- The start of a class with a closing bracket that is a plain character there, and the text after
it. -/
def classBracket (head : Text) : Text → Text × Text
  | ']' :: r => (head ++ [']'], r)
  | r => (head, r)

theorem classCaret_append (ht : t ≠ []) (u : Text) :
    classCaret (t ++ u) = ((classCaret t).1, (classCaret t).2 ++ u) := by
  rcases t with _ | ⟨c, t⟩
  · exact absurd rfl ht
  · by_cases hc : c = '^'
    · subst hc
      rfl
    · have hother : ∀ r, classCaret (c :: r) = (['['], c :: r) := by
        intro r
        rw [classCaret]
        intro v hv
        exact hc (List.cons.inj hv).1
      rw [List.cons_append, hother, hother, List.cons_append]

theorem classBracket_append (head : Text) (ht : t ≠ []) (u : Text) :
    classBracket head (t ++ u) = ((classBracket head t).1, (classBracket head t).2 ++ u) := by
  rcases t with _ | ⟨c, t⟩
  · exact absurd rfl ht
  · by_cases hc : c = ']'
    · subst hc
      rfl
    · have hother : ∀ r, classBracket head (c :: r) = (head, c :: r) := by
        intro r
        rw [classBracket]
        intro v hv
        exact hc (List.cons.inj hv).1
      rw [List.cons_append, hother, hother, List.cons_append]

theorem readClass_eq (t : Text) : readClass t =
    (let start := classBracket (classCaret t).1 (classCaret t).2
    classBody (start.2.length + 1) 0 [start.1] start.2 >>= fun x =>
      CharSet.read x.1.reverse.flatten >>= fun s => .ok (s, x.2)) := rfl

theorem readClass_append {c : CharSet} (h : readClass t = .ok (c, rest)) (u : Text) :
    readClass (t ++ u) = .ok (c, rest ++ u) := by
  rw [readClass_eq] at h ⊢
  obtain ⟨⟨pieces, after⟩, hbody, h⟩ := exists_of_bind_eq_ok h
  have hcaret : (classCaret t).2 ≠ [] := by
    intro hnil
    rw [hnil] at hbody
    exact absurd hbody (by simp [classBracket, classBody])
  have ht : t ≠ [] := by
    rintro rfl
    exact hcaret rfl
  obtain ⟨s, hs, h⟩ := exists_of_bind_eq_ok h
  simp only [Except.ok.injEq, Prod.mk.injEq] at h
  obtain ⟨rfl, rfl⟩ := h
  rw [classCaret_append ht, classBracket_append _ hcaret]
  dsimp only
  rw [classBody_append hbody (by simp) u]
  dsimp only [bind, Except.bind]
  rw [hs]

end Classes

section Flags

variable {t s : Text}

/-- The flags of a group, read up to its parenthesis or its colon. -/
theorem parallel_flags {fuel fuel' taken : Nat} {off : Bool} {n : Notes} (h : Enclosed t s) :
    Parallel SameStep (flags fuel taken off t n) (flags fuel' taken off s n) := by
  induction fuel generalizing fuel' taken off t s n with
  | zero => exact .error_left _ _
  | succ fuel ih =>
    rcases fuel' with _ | fuel'
    · exact .error_right _ _
    · rcases t with _ | ⟨d, t⟩
      · rw [flags, show skipIn n [] = .ok [] from rfl]
        exact .error_left _ _
      · rw [flags, flags]
        refine (parallel_skipIn h).bind ?_
        intro u v huv
        rcases u with _ | ⟨c, u⟩
        · exact .error_left _ _
        · rw [huv.length_eq (by simp), h.length_eq (by simp), Nat.add_sub_add_right]
          obtain rfl := huv.of_cons
          dsimp only
          split
          · exact absurd ‹_› (by simp)
          · next r hr =>
            obtain ⟨rfl, rfl⟩ := List.cons.inj hr
            split
            · exact .error_left _ _
            · exact ih (.closed _)
          · next r hr =>
            obtain ⟨rfl, rfl⟩ := List.cons.inj hr
            split
            · exact .error_left _ _
            · exact .ok (.intro _ _ (.closed _))
          · next r hr =>
            obtain ⟨rfl, rfl⟩ := List.cons.inj hr
            split
            · exact .error_left _ _
            · exact .ok (.intro _ _ (.closed _))
          · next c' r hhyphen hclose hcolon hr =>
            obtain ⟨rfl, rfl⟩ := List.cons.inj hr
            rcases hset : Mode.set? n.mode c !off with _ | mode
            · exact .error_left _ _
            · dsimp only
              split
              · exact absurd ‹_› (by simp)
              · next hr => exact absurd (List.cons.inj hr).1 hhyphen
              · next hr => exact absurd (List.cons.inj hr).1 hclose
              · next hr => exact absurd (List.cons.inj hr).1 hcolon
              · next hr =>
                obtain ⟨rfl, rfl⟩ := List.cons.inj hr
                rw [hset]
                exact ih (.closed _)

end Flags

section Escapes

variable {t : Text} {n : Notes}

/-- What is read without regard to the text behind it. -/
theorem parallel_same (e : Expr) (t : Text) (n : Notes) :
    Parallel SameStep (.ok (e, t, n) : Except BuildFault (Step Expr)) (.ok (e, t ++ [')'], n)) :=
  .ok (.intro e n (.closed t))

theorem parallel_hex {digits : Nat} (hd : 0 < digits) (f : Char → Expr) (t : Text) (n : Notes) :
    Parallel SameStep (hexEscape digits t >>= fun x => .ok (f x.1, x.2, n))
      (hexEscape digits (t ++ [')']) >>= fun x => .ok (f x.1, x.2, n)) := by
  refine Parallel.bind (R := fun x y => y = (x.1, x.2 ++ [')'])) ?_ ?_
  · refine .of_ok ?_
    intro x hx
    exact ⟨_, hexEscape_append hd hx _, rfl⟩
  · rintro x _ rfl
    exact parallel_same _ _ _

theorem parallel_property (negated : Bool) (f : CharSet → Expr) (t : Text) (n : Notes) :
    Parallel SameStep
      (propertyText t >>= fun x => CharSet.readProperty negated x.1 >>= fun s =>
        .ok (f s.1, x.2, n))
      (propertyText (t ++ [')']) >>= fun x => CharSet.readProperty negated x.1 >>= fun s =>
        .ok (f s.1, x.2, n)) := by
  refine Parallel.bind (R := fun x y => y = (x.1, x.2 ++ [')'])) ?_ ?_
  · refine .of_ok ?_
    intro x hx
    exact ⟨_, propertyText_append hx _, rfl⟩
  · rintro x _ rfl
    rcases CharSet.readProperty negated x.1 with e | s
    · exact .error_left _ _
    · exact parallel_same _ _ _

theorem parallel_reference {close : Text} {relative : Bool} (hclose : close ≠ []) (t : Text)
    (n : Notes) :
    Parallel SameStep (namedReference close relative t n)
      (namedReference close relative (t ++ [')']) n) := by
  refine .of_ok ?_
  rintro ⟨k, rest, m⟩ h
  exact ⟨_, namedReference_append hclose h, .intro k m (.closed rest)⟩

theorem parallel_map {α β : Type} (f : α → β) {x y : Except BuildFault (Step α)}
    (h : Parallel SameStep x y) :
    Parallel SameStep (x >>= fun z => .ok (f z.1, z.2.1, z.2.2))
      (y >>= fun z => .ok (f z.1, z.2.1, z.2.2)) := by
  refine h.bind ?_
  rintro _ _ ⟨a, m, hu⟩
  exact .ok (.intro (f a) m hu)

/-- An escape; how large the numbers of groups may be grows with the pattern. -/
theorem parallel_escape (size size' : Nat) (t : Text) (n : Notes) :
    Parallel SameStep (escape size t n) (escape size' (t ++ [')']) n) := by
  cases t with
  | nil => exact .error_left _ _
  | cons c r =>
    have hbrace : ((r ++ [')']).head? == some '\x7b') = (r.head? == some '\x7b') := by
      cases r <;> rfl
    rw [List.cons_append]
    unfold escape
    simp only [hbrace]
    split
    · exact parallel_map _ (parallel_numberedReference size size' (c :: r) n)
    · split
      · split
        · exact parallel_map _ (parallel_reference (by simp) _ n)
        · exact parallel_map _ (parallel_reference (by simp) _ n)
        · exact .error_left _ _
      · exact parallel_same _ _ _
      · exact parallel_same _ _ _
      · split
        · exact .error_left _ _
        · exact parallel_same _ _ _
      · split
        · exact .error_left _ _
        · exact parallel_same _ _ _
      · exact parallel_same _ _ _
      · exact parallel_same _ _ _
      · exact parallel_same _ _ _
      · exact parallel_same _ _ _
      · exact parallel_same _ _ _
      · exact parallel_same _ _ _
      · exact parallel_same _ _ _
      · exact parallel_same _ _ _
      · exact parallel_same _ _ _
      · exact parallel_same _ _ _
      · exact parallel_hex (by decide) (fun a => .atom (.char a n.mode.caseless)) r n
      · exact parallel_hex (by decide) (fun a => .atom (.char a n.mode.caseless)) r n
      · exact parallel_hex (by decide) (fun a => .atom (.char a n.mode.caseless)) r n
      · exact parallel_property false (fun s => .atom (.set s n.mode.caseless)) r n
      · exact parallel_property true (fun s => .atom (.set s n.mode.caseless)) r n
      · exact parallel_same _ _ _
      · exact parallel_same _ _ _
      · split
        · exact parallel_same _ _ _
        · split
          · exact .error_left _ _
          · exact parallel_same _ _ _

end Escapes

end RegexDialect.Baseline.Reader
