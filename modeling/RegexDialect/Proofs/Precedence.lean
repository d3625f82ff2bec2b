import RegexDialect.Proofs.Firing
import RegexDialect.Proofs.Places

/-! Which rule of a registry decides at a place: of the rules whose scope meets the current one and
whose predicate holds, the one registered last whose recognizer finds a token there, or fails. -/
namespace RegexDialect

/-- While a handler or predicate runs every compilation is refused. -/
theorem compileStandalone_inHandler (pattern : Text) :
    compileStandalone pattern true = (.error .reentrantCompile, true) := rfl

theorem Check.turn_run :
    (check : Check) → (context : Context) → (check.run ⟨context, true⟩).2 = ⟨context, true⟩
  | .done _, _ => by rw [Check.run]
  | .inspect next, context => by
    rw [Check.run]
    exact turn_run (next context) context
  | .compile pattern next, context => by
    rw [Check.run, compileStandalone_inHandler]
    exact turn_run (next (.error .reentrantCompile)) context
  | .consult rules inner pattern position scope next, context => by
    rw [Check.run]
    exact turn_run (next _) context

theorem Script.inHandler_run :
    (script : Script) → (context : Context) → (script.run ⟨context, true⟩).2.inHandler = true
  | .done _, _ => by rw [Script.run]
  | .fail _, _ => by rw [Script.run]
  | .inspect next, context => by
    rw [Script.run]
    exact inHandler_run (next context) context
  | .push name next, context => by
    rw [Script.run]
    exact inHandler_run next (context.push name)
  | .setFlags letters next, context => by
    rw [Script.run]
    exact inHandler_run (next (context.setFlags letters).1) (context.setFlags letters).2
  | .replace flags names next, _ => by
    rw [Script.run]
    exact inHandler_run next (.holding flags names)
  | .compile pattern next, context => by
    rw [Script.run, compileStandalone_inHandler]
    exact inHandler_run (next (.error .reentrantCompile)) context
  | .consult rules (some inner) pattern position scope next, context => by
    rw [Script.run]
    exact inHandler_run (next _) context
  | .consult rules none pattern position scope next, context => by
    rw [Script.run]
    exact inHandler_run (next _) _

namespace Rule

def holds : Rule → Context → Bool
  | builtin b, context => b.awaits.all context.hasFlag
  | custom _ _ _ _ activation, context => (Check.runOptional activation ⟨context, true⟩).1

/-- What the recognizer of a rule finds at the start of a text. A search that gives up is an error
that names the recognizer. -/
def find : Rule → Text → Except Error (Option Recognition)
  | builtin b, rest => .ok (b.recognize rest)
  | custom source recognize _ _ _, rest =>
    match recognize rest with
    | .ok found => .ok found
    | .error fault => .error (.engine source (.search fault))

def handle : Rule → Token → Context → Except Error Text × Context
  | builtin b, token, context => b.handle token context
  | custom _ _ handler _ _, token, context =>
    (((handler token).run ⟨context, true⟩).1, ((handler token).run ⟨context, true⟩).2.context)

/-- A rule whose scope meets the current one, whose predicate holds and whose recognizer finds a
token. -/
structure Qualifies (r : Rule) (rest : Text) (scope : Scope) (context : Context)
    (found : Recognition) : Prop where
  meets : r.scope.meets scope = true
  holds : r.holds context = true
  found : r.find rest = .ok (some found)

/-- A rule whose scope meets the current one, whose predicate holds and whose recognizer gives
up. -/
structure Fails (r : Rule) (rest : Text) (scope : Scope) (context : Context) (fault : Error) :
    Prop where
  meets : r.scope.meets scope = true
  holds : r.holds context = true
  fault : r.find rest = .error fault

/-- A rule that has nothing to say: out of scope, switched off, or without a token. -/
def IsPassed (r : Rule) (rest : Text) (scope : Scope) (context : Context) : Prop :=
  r.scope.meets scope = true → r.holds context = true → r.find rest = .ok none

section Consult

variable {pattern rest : Text} {position : Nat} {scope : Scope} {context after : Context}
  {r rule : Rule}
  {rules older newer : List Rule} {found : Recognition} {e : Error}
  {answer : Except Error (Option Hit)}

theorem isPassed_or (r : Rule) (rest : Text) (scope : Scope) (context : Context) :
    r.IsPassed rest scope context ∨ (∃ found, r.Qualifies rest scope context found) ∨
      ∃ e, r.Fails rest scope context e := by
  by_cases hm : r.scope.meets scope = true
  · by_cases hh : r.holds context = true
    · rcases hf : r.find rest with e | _ | found
      · exact .inr (.inr ⟨e, hm, hh, hf⟩)
      · exact .inl fun _ _ => hf
      · exact .inr (.inl ⟨found, hm, hh, hf⟩)
    · exact .inl fun _ h => absurd h hh
  · exact .inl fun h => absurd h hm

theorem isPassed_iff : r.IsPassed rest scope context ↔
    (∀ found, ¬r.Qualifies rest scope context found) ∧ ∀ e, ¬r.Fails rest scope context e := by
  constructor
  · intro hp
    refine ⟨fun found hq => ?_, fun e hf => ?_⟩
    · exact absurd (hq.found.symm.trans (hp hq.meets hq.holds)) (by simp)
    · exact absurd (hf.fault.symm.trans (hp hf.meets hf.holds)) (by simp)
  · rintro ⟨hq, hf⟩
    rcases r.isPassed_or rest scope context with hp | ⟨found, h⟩ | ⟨e, h⟩
    · exact hp
    · exact absurd h (hq found)
    · exact absurd h (hf e)

theorem runOptional_eq (activation : Option Check) (context : Context) :
    Check.runOptional activation ⟨context, true⟩ =
      ((Check.runOptional activation ⟨context, true⟩).1, ⟨context, true⟩) := by
  cases activation with
  | none => rw [Check.runOptional]
  | some check =>
    rw [Check.runOptional]
    exact Prod.ext rfl (Check.turn_run check context)

theorem isActive_eq (b : Builtin) (scope : Scope) (context : Context) :
    b.isActive scope context = ((builtin b).scope.meets scope && (builtin b).holds context) := rfl

/-- A rule that is passed changes nothing. -/
theorem consult_of_isPassed (h : r.IsPassed rest scope context) :
    r.consult pattern position rest scope ⟨context, true⟩ = (.ok none, ⟨context, true⟩) := by
  cases r with
  | builtin b =>
    have hn : b.recognizeIn rest scope context = none := by
      rw [Builtin.recognizeIn, isActive_eq]
      split
      · next ha =>
        rw [Bool.and_eq_true] at ha
        exact Except.ok.inj (h ha.1 ha.2)
      · rfl
    rw [consult_builtin, Builtin.attempt_of_recognizeIn_none hn]
  | custom source recognize handler here activation =>
    rw [consult]
    split
    · next hm =>
      rw [runOptional_eq]
      cases hh : (Check.runOptional activation ⟨context, true⟩).1 with
      | false => rfl
      | true =>
        have hf := h hm hh
        rw [find] at hf
        rcases hr : recognize rest with fault | _ | found
        · simp [hr] at hf
        · rfl
        · simp [hr] at hf
    · rfl

/-- A rule that qualifies answers with its handler, which gets the context as it is. -/
theorem consult_of_qualifies (h : r.Qualifies rest scope context found) :
    r.consult pattern position rest scope ⟨context, true⟩ =
      match r.handle (Token.ofRecognition pattern position rest scope found) context with
      | (.ok output, c) => (.ok (some ⟨output, rest.take found.length⟩), ⟨c, true⟩)
      | (.error e, c) => (.error e, ⟨c, true⟩) := by
  cases r with
  | builtin b =>
    have hr : b.recognizeIn rest scope context = some found := by
      rw [Builtin.recognizeIn, isActive_eq, h.meets, h.holds]
      exact Except.ok.inj h.found
    rw [consult_builtin, Builtin.attempt_of_recognizeIn hr, handle]
    rcases b.handle (Token.ofRecognition pattern position rest scope found) context with
      ⟨e | output, c⟩ <;> rfl
  | custom source recognize handler here activation =>
    have hfound := h.found
    rw [find] at hfound
    rcases hr : recognize rest with fault | _ | token
    · simp [hr] at hfound
    · simp [hr] at hfound
    · simp only [hr, Except.ok.injEq, Option.some.injEq] at hfound
      subst hfound
      have hmark :=
        (handler (Token.ofRecognition pattern position rest scope token)).inHandler_run context
      rw [consult, if_pos (show here.meets scope = true from h.meets), runOptional_eq,
        show (Check.runOptional activation ⟨context, true⟩).1 = true from h.holds]
      simp only [hr, handle]
      rcases hrun :
        (handler (Token.ofRecognition pattern position rest scope token)).run ⟨context, true⟩ with
        ⟨e | output, c, mark⟩
      · simp only [hrun] at hmark
        simp [hmark]
      · simp only [hrun] at hmark
        simp [hmark, Token.ofRecognition]

theorem consult_of_fails (h : r.Fails rest scope context e) :
    r.consult pattern position rest scope ⟨context, true⟩ = (.error e, ⟨context, true⟩) := by
  have hfault := h.fault
  cases r with
  | builtin b => simp [find] at hfault
  | custom source recognize handler here activation =>
    rw [find] at hfault
    rcases hr : recognize rest with fault | found
    · simp only [hr, Except.error.injEq] at hfault
      rw [consult, if_pos (show here.meets scope = true from h.meets), runOptional_eq,
        show (Check.runOptional activation ⟨context, true⟩).1 = true from h.holds]
      simp only [hr, hfault]
    · simp [hr] at hfault

/-- What rules answer at a place, the one registered last first, and the context after it. Either
all are passed; or those before some rule are passed, and that rule's handler answers or its
recognizer gives up. -/
inductive Decides (pattern : Text) (position : Nat) (rest : Text) (scope : Scope)
    (context : Context) :
    List Rule → Except Error (Option Hit) × Context → Prop
  | nothing {rules : List Rule} (h : ∀ r ∈ rules, r.IsPassed rest scope context) :
    Decides pattern position rest scope context rules (.ok none, context)
  | output {newer older : List Rule} {rule : Rule} {found : Recognition} {output : Text}
    {after : Context}
      (hn : ∀ r ∈ newer, r.IsPassed rest scope context)
      (hr : rule.Qualifies rest scope context found)
      (ho : rule.handle (Token.ofRecognition pattern position rest scope found) context =
        (.ok output, after)) :
    Decides pattern position rest scope context (newer ++ rule :: older)
      (.ok (some ⟨output, rest.take found.length⟩), after)
  | refusal {newer older : List Rule} {rule : Rule} {found : Recognition} {e : Error}
    {after : Context}
      (hn : ∀ r ∈ newer, r.IsPassed rest scope context)
      (hr : rule.Qualifies rest scope context found)
      (he : rule.handle (Token.ofRecognition pattern position rest scope found) context =
        (.error e, after)) :
    Decides pattern position rest scope context (newer ++ rule :: older) (.error e, after)
  | fault {newer older : List Rule} {rule : Rule} {e : Error}
      (hn : ∀ r ∈ newer, r.IsPassed rest scope context) (hr : rule.Fails rest scope context e) :
    Decides pattern position rest scope context (newer ++ rule :: older) (.error e, context)

theorem consultAll_append_of_isPassed (h : ∀ r ∈ newer, r.IsPassed rest scope context) :
    consultAll (newer ++ rules) pattern position rest scope ⟨context, true⟩ =
      consultAll rules pattern position rest scope ⟨context, true⟩ := by
  induction newer with
  | nil => rfl
  | cons r newer ih =>
    rw [List.cons_append, consultAll_cons_of_none (consult_of_isPassed (h r (by simp)))]
    exact ih fun a ha => h a (by simp [ha])

theorem consultAll_of_decides
    (h : Decides pattern position rest scope context rules (answer, after)) :
    consultAll rules pattern position rest scope ⟨context, true⟩ = (answer, ⟨after, true⟩) := by
  cases h with
  | nothing h =>
    rw [← List.append_nil rules, consultAll_append_of_isPassed h, consultAll_nil]
  | output hn hr ho =>
    rw [consultAll_append_of_isPassed hn]
    refine consultAll_cons_of_ne ?_ (by simp)
    rw [consult_of_qualifies hr, ho]
  | refusal hn hr he =>
    rw [consultAll_append_of_isPassed hn]
    refine consultAll_cons_of_ne ?_ (by simp)
    rw [consult_of_qualifies hr, he]
  | fault hn hr =>
    rw [consultAll_append_of_isPassed hn]
    exact consultAll_cons_of_ne (consult_of_fails hr) (by simp)

theorem Decides.cons (hr : r.IsPassed rest scope context)
    {decision : Except Error (Option Hit) × Context}
    (h : Decides pattern position rest scope context rules decision) :
    Decides pattern position rest scope context (r :: rules) decision := by
  have more : ∀ {newer : List Rule}, (∀ a ∈ newer, a.IsPassed rest scope context) →
      ∀ a ∈ r :: newer, a.IsPassed rest scope context := fun hn => List.forall_mem_cons.2 ⟨hr, hn⟩
  cases h with
  | nothing h => exact .nothing (more h)
  | @output newer older rule _ _ _ hn hq ho =>
    exact @output _ _ _ _ _ (r :: newer) older rule _ _ _ (more hn) hq ho
  | @refusal newer older rule _ _ _ hn hq he =>
    exact @refusal _ _ _ _ _ (r :: newer) older rule _ _ _ (more hn) hq he
  | @fault newer older rule _ hn hf => exact @fault _ _ _ _ _ (r :: newer) older rule _ (more hn) hf

theorem exists_decides (rules : List Rule) (pattern : Text) (position : Nat) (rest : Text)
    (scope : Scope) (context : Context) :
      ∃ decision, Decides pattern position rest scope context rules decision := by
  induction rules with
  | nil => exact ⟨_, .nothing (by simp)⟩
  | cons r rules ih =>
    rcases r.isPassed_or rest scope context with hp | ⟨found, hq⟩ | ⟨e, hf⟩
    · obtain ⟨decision, h⟩ := ih
      exact ⟨decision, h.cons hp⟩
    · rcases hh : r.handle (Token.ofRecognition pattern position rest scope found) context with
        ⟨e | output, c⟩
      · exact ⟨_, @Decides.refusal _ _ _ _ _ [] rules r _ _ _ (by simp) hq hh⟩
      · exact ⟨_, @Decides.output _ _ _ _ _ [] rules r _ _ _ (by simp) hq hh⟩
    · exact ⟨_, @Decides.fault _ _ _ _ _ [] rules r _ (by simp) hf⟩

end Consult

end Rule

namespace Registry

variable {r : Registry} {pattern rest : Text} {position : Nat} {scope : Scope} {turn after : Turn}
  {answer : Except Error (Option Hit)}

/-- A registry answers as its rules decide, and puts the mark back. -/
theorem lookup_eq_iff : r.lookup pattern position rest scope turn = (answer, after) ↔
    Rule.Decides pattern position rest scope turn.context r.rules (answer, after.context) ∧
      after.inHandler = turn.inHandler := by
  obtain ⟨⟨found, context⟩, hd⟩ :=
    Rule.exists_decides r.rules pattern position rest scope turn.context
  have hl : ∀ {answer context}, Rule.Decides pattern position rest scope turn.context r.rules
      (answer, context) →
      r.lookup pattern position rest scope turn = (answer, ⟨context, turn.inHandler⟩) := by
    intro answer context h
    rw [lookup, Rule.consultAll_of_decides h]
  constructor
  · intro h
    have he := (hl hd).symm.trans h
    rw [Prod.mk.injEq] at he
    obtain ⟨rfl, rfl⟩ := he
    exact ⟨hd, rfl⟩
  · rintro ⟨h, hmark⟩
    rw [hl h, ← hmark]

theorem lookup_of_isPassed (h : ∀ rule ∈ r.rules, rule.IsPassed rest scope turn.context) :
    r.lookup pattern position rest scope turn = (.ok none, turn) :=
      lookup_eq_iff.2 ⟨.nothing h, rfl⟩

theorem lookup_eq_none_iff : (r.lookup pattern position rest scope turn).1 = .ok none ↔
    ∀ rule ∈ r.rules, rule.IsPassed rest scope turn.context := by
  constructor
  · intro h
    obtain ⟨hd, -⟩ := lookup_eq_iff.1 (Prod.ext h rfl)
    generalize r.rules = rules at hd ⊢
    generalize hdecision : (Except.ok none, (r.lookup pattern position rest scope turn).2.context) =
      decision at hd
    cases hd with
    | nothing h => exact h
    | _ => simp at hdecision
  · intro h
    rw [lookup_of_isPassed h]

theorem turn_of_lookup_eq_none (h : (r.lookup pattern position rest scope turn).1 = .ok none) :
    (r.lookup pattern position rest scope turn).2 = turn := by
  rw [lookup_of_isPassed (lookup_eq_none_iff.1 h)]

theorem lookup_register_of_isPassed {rule : Rule} (h : rule.IsPassed rest scope turn.context) :
    (r.register rule).lookup pattern position rest scope turn =
      r.lookup pattern position rest scope turn := by
  simp only [lookup, register, Rule.consultAll_cons_of_none (Rule.consult_of_isPassed h)]

theorem lookup_register_of_not_isPassed {rule : Rule} (h : ¬rule.IsPassed rest scope turn.context) :
    (r.register rule).lookup pattern position rest scope turn =
      (empty.register rule).lookup pattern position rest scope turn := by
  rcases hc : rule.consult pattern position rest scope ⟨turn.context, true⟩ with ⟨answer, after⟩
  have hn : answer ≠ .ok none := by
    rintro rfl
    have hone : ((empty.register rule).lookup pattern position rest scope turn).1 = .ok none := by
      simp only [lookup, register, empty, Rule.consultAll_cons_of_none hc, Rule.consultAll_nil]
    exact h (lookup_eq_none_iff.1 hone rule (by simp [register]))
  simp only [lookup, register, empty, Rule.consultAll_cons_of_ne hc hn]

/-- The law of precedence. A registry answers at a place as the newest rule that is not passed there
decides, whatever the rules behind it are: with the output of its handler and the token that was
found, or with an error, after the changes that the handler made. The rules that are passed change
nothing; where no rule qualifies and none fails, there is no answer and nothing changes. So a rule
on top of others decides alone where it is not passed, and does not count elsewhere. -/
theorem tryAt_precedence (r : Registry) (rule : Rule) (before rest : Text) (scope : Scope)
    (turn : Turn) :
    (∀ answer after, r.tryAt (before ++ rest) (Text.bytes before) scope turn = (answer, after) ↔
      Rule.Decides (before ++ rest) (Text.bytes before) rest scope turn.context r.rules
        (answer, after.context) ∧ after.inHandler = turn.inHandler) ∧
    ((r.tryAt (before ++ rest) (Text.bytes before) scope turn).1 = .ok none ↔
      ∀ a ∈ r.rules, (∀ found, ¬a.Qualifies rest scope turn.context found) ∧
        ∀ e, ¬a.Fails rest scope turn.context e) ∧
    ((r.tryAt (before ++ rest) (Text.bytes before) scope turn).1 = .ok none →
      (r.tryAt (before ++ rest) (Text.bytes before) scope turn).2 = turn) ∧
    (rule.IsPassed rest scope turn.context →
      (r.register rule).tryAt (before ++ rest) (Text.bytes before) scope turn =
        r.tryAt (before ++ rest) (Text.bytes before) scope turn) ∧
    (¬rule.IsPassed rest scope turn.context →
      (r.register rule).tryAt (before ++ rest) (Text.bytes before) scope turn =
        (empty.register rule).tryAt (before ++ rest) (Text.bytes before) scope turn) := by
  simp only [tryAt, Text.dropTo_append, ← Rule.isPassed_iff]
  exact ⟨fun _ _ => lookup_eq_iff, lookup_eq_none_iff, turn_of_lookup_eq_none,
    lookup_register_of_isPassed, lookup_register_of_not_isPassed⟩

end Registry

/-- Under `s`, a rule for runs of dots that emits how many there are. -/
def Rule.dots : Rule :=
  .custom "\\.+".toList (fun rest => .ok (if rest.head? = some '.'
      then some ⟨BaselineToken.run (· == '.') rest, [some (rest.takeWhile (· == '.'))]⟩ else none))
    (fun token => .done (Text.ofNat token.text.length)) .outsideClass
      (some (.inspect fun c => .done (c.hasFlag 's')))

/-- On top of the built-in rules it takes both dots of `a..`, where the built-in rule would take
one; with its predicate off there is no answer. -/
theorem Registry.tryAt_precedence_dots :
    (¬Rule.dots.IsPassed ['.', '.'] .outsideClass (.start ⟨['s'], by decide⟩) ∧
      ((builtin.register .dots).tryAt ['a', '.', '.'] 1 .outsideClass
        ⟨.start ⟨['s'], by decide⟩, false⟩).1 = .ok (some ⟨['2'], ['.', '.']⟩)) ∧
    (Rule.dots.IsPassed ['.', '.'] .outsideClass (.start .empty) ∧
      (builtin.register .dots).tryAt ['a', '.', '.'] 1 .outsideClass ⟨.start .empty, false⟩ =
        builtin.tryAt ['a', '.', '.'] 1 .outsideClass ⟨.start .empty, false⟩) ∧
    (builtin.tryAt ['a', '.', '.'] 1 .outsideClass ⟨.start .empty, false⟩).1 = .ok none := by
  have on : ¬Rule.dots.IsPassed ['.', '.'] .outsideClass (.start ⟨['s'], by decide⟩) := fun h =>
    absurd (h rfl rfl) (by simp [Rule.find, Rule.dots])
  have off : Rule.dots.IsPassed ['.', '.'] .outsideClass (.start .empty) :=
    fun _ h => absurd h (by decide)
  refine ⟨⟨on, ?_⟩, ⟨off, ?_⟩, rfl⟩
  · have h := (tryAt_precedence builtin .dots ['a'] ['.', '.'] .outsideClass
      ⟨.start ⟨['s'], by decide⟩, false⟩).2.2.2.2 on
    exact congrArg Prod.fst h
  · exact (tryAt_precedence builtin .dots ['a']
      ['.', '.'] .outsideClass ⟨.start .empty, false⟩).2.2.2.1 off

end RegexDialect
