import RegexDialect.Rule.Registry

/-! Which of the built-in rules takes the token at the start of a text. The rules are asked in a
fixed order; the first that is active and recognizes a token fires, and decides what the registry
answers. -/
namespace RegexDialect
namespace Builtin

/-- The token that a rule finds at the start of a text, where the rule is active. -/
def recognizeIn (b : Builtin) (rest : Text) (scope : Scope) (context : Context) :
    Option Recognition :=
  if b.isActive scope context then b.recognize rest else none

def firing? (rest : Text) (scope : Scope) (context : Context) : Option (Builtin × Recognition) :=
  all.reverse.findSome? fun b => (b.recognizeIn rest scope context).map fun r => (b, r)

theorem attempt_of_recognizeIn_none {b : Builtin} {pattern rest : Text} {position : Nat}
    {scope : Scope} {context : Context} (h : b.recognizeIn rest scope context = none) :
    b.attempt pattern position rest scope context = (.ok none, context) := by
  simp only [recognizeIn] at h
  simp only [attempt]
  split at h
  · next ha => simp [ha, h]
  · next ha => simp [ha]

theorem attempt_of_recognizeIn {b : Builtin} {pattern rest : Text} {position : Nat} {scope : Scope}
    {context : Context} {r : Recognition} (h : b.recognizeIn rest scope context = some r) :
    b.attempt pattern position rest scope context =
      match b.handle (Token.ofRecognition pattern position rest scope r) context with
      | (.ok output, c) => (.ok (some ⟨output, rest.take r.length⟩), c)
      | (.error e, c) => (.error e, c) := by
  simp only [recognizeIn] at h
  split at h
  · next ha =>
    simp only [attempt, ha, h, if_true]
    rfl
  · exact absurd h (by simp)

theorem attemptAll_eq (pattern : Text) (position : Nat) (rest : Text) (scope : Scope)
    (bs : List Builtin) (context : Context) :
    attemptAll pattern position rest scope bs context =
      match bs.findSome? fun b => (b.recognizeIn rest scope context).map fun r => (b, r) with
      | none => (.ok none, context)
      | some (b, r) =>
        match b.handle (Token.ofRecognition pattern position rest scope r) context with
        | (.ok output, c) => (.ok (some ⟨output, rest.take r.length⟩), c)
        | (.error e, c) => (.error e, c) := by
  induction bs with
  | nil => rfl
  | cons b bs ih =>
    cases hb : b.recognizeIn rest scope context with
    | none => simp [attemptAll, attempt_of_recognizeIn_none hb, hb, ih]
    | some r =>
      simp only [attemptAll, attempt_of_recognizeIn hb, List.findSome?_cons, hb, Option.map_some]
      rcases b.handle (Token.ofRecognition pattern position rest scope r) context with
        ⟨e | output, c⟩ <;> rfl

theorem lookup_eq (pattern : Text) (position : Nat) (rest : Text) (scope : Scope) (turn : Turn) :
    lookup pattern position rest scope turn =
      match firing? rest scope turn.context with
      | none => (.ok none, turn)
      | some (b, r) =>
        match b.handle (Token.ofRecognition pattern position rest scope r) turn.context with
        | (.ok output, c) => (.ok (some ⟨output, rest.take r.length⟩), { turn with context := c })
        | (.error e, c) => (.error e, { turn with context := c }) := by
  simp only [lookup, attemptAll_eq, firing?]
  cases all.reverse.findSome? fun b => (b.recognizeIn rest scope turn.context).map fun r =>
    (b, r) with
  | none => rfl
  | some p =>
    obtain ⟨b, r⟩ := p
    simp only
    rcases b.handle (Token.ofRecognition pattern position rest scope r) turn.context with
      ⟨e | output, c⟩ <;> rfl

variable {rest t : Text} {scope : Scope} {context : Context}

theorem lookup_of_firing {pattern : Text} {position : Nat} {turn : Turn} {b : Builtin}
    {r : Recognition} {c : Context}
    {output : Text} (h : firing? rest scope turn.context = some (b, r))
    (hh : b.handle (Token.ofRecognition pattern position rest scope r) turn.context =
      (.ok output, c)) :
    lookup pattern position rest scope turn =
      (.ok (some ⟨output, rest.take r.length⟩), { turn with context := c }) := by
  rw [lookup_eq, h]
  simp only [hh]

theorem lookup_of_firing_error {pattern : Text} {position : Nat} {turn : Turn} {b : Builtin}
    {r : Recognition} {c : Context} {e : Error} (h : firing? rest scope turn.context = some (b, r))
    (hh : b.handle (Token.ofRecognition pattern position rest scope r) turn.context =
      (.error e, c)) :
    lookup pattern position rest scope turn = (.error e, { turn with context := c }) := by
  rw [lookup_eq, h]
  simp only [hh]

theorem lookup_of_not_firing {pattern : Text} {position : Nat} {turn : Turn}
    (h : firing? rest scope turn.context = none) : lookup pattern position rest scope turn =
      (.ok none, turn) := by
  rw [lookup_eq, h]

theorem exists_of_lookup_error {pattern : Text} {position : Nat} {turn turn' : Turn} {e : Error}
    (h : lookup pattern position rest scope turn = (.error e, turn')) :
    ∃ b r, firing? rest scope turn.context = some (b, r) ∧
      (b.handle (Token.ofRecognition pattern position rest scope r) turn.context).1 = .error e := by
  cases hf : firing? rest scope turn.context with
  | none =>
    rw [lookup_of_not_firing hf] at h
    exact absurd h (by simp)
  | some p =>
    obtain ⟨b, r⟩ := p
    refine ⟨b, r, rfl, ?_⟩
    rcases hh : b.handle (Token.ofRecognition pattern position rest scope r) turn.context with
      ⟨f | output, c⟩
    · rw [lookup_of_firing_error hf hh] at h
      simp only [Prod.mk.injEq, Except.error.injEq] at h
      rw [h.1]
    · rw [lookup_of_firing hf hh] at h
      exact absurd h (by simp)

def earlier (b : Builtin) : List Builtin := all.reverse.takeWhile (· ≠ b)

theorem firing?_eq_none_iff :
    firing? rest scope context = none ↔ ∀ b : Builtin, b.recognizeIn rest scope context = none := by
  simp only [firing?, List.findSome?_eq_none_iff, Option.map_eq_none_iff]
  constructor
  · intro h b
    exact h b (by cases b <;> decide)
  · intro h b _
    exact h b

theorem findSome?_pair_eq_some_iff {β : Type} {f : Builtin → Option β} {bs : List Builtin}
    (hn : bs.Nodup)
    {b : Builtin} (hb : b ∈ bs) {r : β} : (bs.findSome? fun a => (f a).map fun x => (a, x)) =
      some (b, r) ↔ f b = some r ∧ ∀ a ∈ bs.takeWhile (· ≠ b), f a = none := by
  induction bs with
  | nil => simp at hb
  | cons a bs ih =>
    have ha := List.nodup_cons.1 hn
    by_cases h : a = b
    · subst h
      cases hf : f a with
      | none =>
        suffices hs : (bs.findSome? fun c => (f c).map fun x => (c, x)) ≠ some (a, r) by
          simp [hf, hs]
        intro hs
        obtain ⟨c, hc, hx⟩ := List.exists_of_findSome?_eq_some hs
        obtain ⟨x, -, e⟩ := Option.map_eq_some_iff.1 hx
        exact ha.1 ((Prod.mk.inj e).1 ▸ hc)
      | some x => simp [hf]
    · have hm : b ∈ bs := (List.mem_cons.1 hb).resolve_left fun e => h e.symm
      cases hf : f a with
      | none => simp [hf, h, ih ha.2 hm]
      | some x => simp [hf, h]

theorem firing?_eq_some_iff {b : Builtin} {r : Recognition} :
    firing? rest scope context = some (b, r) ↔ b.recognizeIn rest scope context = some r ∧
      ∀ a ∈ b.earlier, a.recognizeIn rest scope context = none :=
  findSome?_pair_eq_some_iff (by decide) (by cases b <;> decide)

theorem earlier_eq (b : Builtin) : b.earlier =
    match b with
    | classSign => []
    | dot => [classSign]
    | spacing => [classSign, dot]
    | modifier => [classSign, dot, spacing]
    | emptyClass => [classSign, dot, spacing, modifier]
    | reference => [classSign, dot, spacing, modifier, emptyClass]
    | taggedGroup => [classSign, dot, spacing, modifier, emptyClass, reference]
    | namedGroup => [classSign, dot, spacing, modifier, emptyClass, reference, taggedGroup]
    | comment => [classSign, dot, spacing, modifier, emptyClass, reference, taggedGroup, namedGroup]
    | group =>
      [classSign, dot, spacing, modifier, emptyClass, reference, taggedGroup, namedGroup,
        comment] := by
  cases b <;> rfl

theorem isActive_outside (b : Builtin) :
    b.isActive .outsideClass context = (b != classSign && b.awaits.all context.hasFlag) := by
  cases b <;> simp [isActive, Builtin.scope, Scope.meets, Scope.insideClass,
    Scope.outsideClass, awaits]

theorem isActive_inside (b : Builtin) : b.isActive .insideClass context = (b == classSign) := by
  cases b <;> simp [isActive, Builtin.scope, Scope.meets, Scope.insideClass,
    Scope.outsideClass, awaits]

theorem recognizeIn_outside {b : Builtin} {r : Recognition} :
    b.recognizeIn rest .outsideClass context = some r ↔
      b ≠ classSign ∧ b.awaits.all context.hasFlag = true ∧ b.recognize rest = some r := by
  simp [recognizeIn, isActive_outside, and_assoc]

theorem recognizeIn_inside {b : Builtin} {r : Recognition} :
    b.recognizeIn rest .insideClass context = some r ↔ b = classSign ∧
      b.recognize rest = some r := by
  simp [recognizeIn, isActive_inside]

/-- A rule that is on and finds no token outside classes recognizes none. -/
theorem recognize_of_recognizeIn_none {b : Builtin} (hb : b ≠ classSign)
    (ha : b.awaits.all context.hasFlag = true)
    (h : b.recognizeIn rest .outsideClass context = none) : b.recognize rest = none := by
  rwa [recognizeIn, isActive_outside, if_pos (by simp [hb, ha])] at h

/-- A rule takes a token outside classes when it is on, recognizes the token and the rules before it
do not. -/
theorem firing?_outside (b : Builtin) {r : Recognition} (hb : b ≠ classSign)
    (ha : b.awaits.all context.hasFlag = true) (hr : b.recognize rest = some r)
    (he : ∀ a ∈ b.earlier, a ≠ classSign → a.recognize rest = none) :
    firing? rest .outsideClass context = some (b, r) := by
  refine firing?_eq_some_iff.2 ⟨recognizeIn_outside.2 ⟨hb, ha, hr⟩, fun a h => ?_⟩
  by_cases hc : a = classSign
  · simp [recognizeIn, isActive_outside, hc]
  · simp [recognizeIn, he a h hc]

theorem firing?_eq_none_of_recognize (h : ∀ b : Builtin, b ≠ classSign → b.recognize t = none) :
    firing? t .outsideClass context = none := by
  refine firing?_eq_none_iff.2 fun b => ?_
  by_cases hb : b = classSign
  · simp [recognizeIn, isActive_outside, hb]
  · simp [recognizeIn, h b hb]

end Builtin

section Consult

variable {pattern : Text} {position : Nat} {rest : Text} {scope : Scope} {turn after : Turn}

theorem Rule.consult_builtin (b : Builtin) :
    (Rule.builtin b).consult pattern position rest scope turn =
      ((b.attempt pattern position rest scope turn.context).1,
        { turn with context := (b.attempt pattern position rest scope turn.context).2 }) := by
  rw [Rule.consult]

theorem Rule.consultAll_nil :
    Rule.consultAll [] pattern position rest scope turn = (.ok none, turn) := by
  rw [Rule.consultAll]

theorem Rule.consultAll_cons_of_none {r : Rule} {rs : List Rule}
    (h : r.consult pattern position rest scope turn = (.ok none, after)) :
    Rule.consultAll (r :: rs) pattern position rest scope turn =
      Rule.consultAll rs pattern position rest scope after := by
  rw [Rule.consultAll, h]

theorem Rule.consultAll_cons_of_ne {r : Rule} {rs : List Rule} {answer : Except Error (Option Hit)}
    (h : r.consult pattern position rest scope turn = (answer, after)) (hn : answer ≠ .ok none) :
    Rule.consultAll (r :: rs) pattern position rest scope turn = (answer, after) := by
  rw [Rule.consultAll, h]
  rcases answer with e | _ | hit
  · rfl
  · exact absurd rfl hn
  · rfl

theorem Rule.consultAll_builtin (bs : List Builtin) :
    Rule.consultAll (bs.map Rule.builtin) pattern position rest scope turn =
      ((Builtin.attemptAll pattern position rest scope bs turn.context).1,
        { turn with context :=
          (Builtin.attemptAll pattern position rest scope bs turn.context).2 }) := by
  induction bs generalizing turn with
  | nil => exact Rule.consultAll_nil
  | cons b bs ih =>
    have hb := @Rule.consult_builtin pattern position rest scope turn b
    rw [List.map_cons, Builtin.attemptAll]
    rcases ha : b.attempt pattern position rest scope turn.context with ⟨e | _ | hit, c⟩
    · rw [ha] at hb
      exact Rule.consultAll_cons_of_ne hb (by simp)
    · rw [ha] at hb
      rw [Rule.consultAll_cons_of_none hb, ih]
    · rw [ha] at hb
      exact Rule.consultAll_cons_of_ne hb (by simp)

end Consult

theorem Registry.lookup_builtin : Registry.builtin.lookup = Builtin.lookup := by
  funext pattern position rest scope turn
  have h :=
    @Rule.consultAll_builtin pattern position rest scope { turn with inHandler := true }
      Builtin.all.reverse
  simp only [Registry.lookup, Registry.builtin, Builtin.lookup, h]

theorem Registry.compile_builtin (pattern : Text) (flags : Flags) :
    Registry.builtin.compile pattern flags =
    match scan Builtin.lookup pattern ⟨.start flags, false⟩ with
    | (.ok pieces, turn) => .ok ⟨Segment.emitted pieces, turn.context⟩
    | (.error e, _) => .error e := by
  rw [compile, compileIn, compileWith, Registry.lookup_builtin]
  rcases scan Builtin.lookup pattern ⟨.start flags, false⟩ with ⟨_ | _, _⟩ <;> rfl

end RegexDialect
