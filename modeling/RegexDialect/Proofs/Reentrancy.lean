import RegexDialect.Proofs.Precedence
import RegexDialect.Proofs.Tiling

/-! Compilations that handlers and predicates ask for. All of them are refused, however rules are
nested, and the mark that refuses them is off again when the outermost call is over. -/
namespace RegexDialect

/-- A compilation that a handler or predicate asked for, and what became of it. -/
structure Attempt where
  pattern : Text
  answer : Except Error Compiled

def Attempt.IsRefused (a : Attempt) : Prop := a.answer = .error .reentrantCompile

/-- What a run answers, the turn after it, and the compilations that it asked for on the way, in
their order. -/
structure Trace (α : Type) where
  attempts : List Attempt
  answer : α
  after : Turn

namespace Trace

variable {α : Type}

def outcome (t : Trace α) : α × Turn := (t.answer, t.after)

def prepend (t : Trace α) (attempts : List Attempt) : Trace α :=
  ⟨attempts ++ t.attempts, t.answer, t.after⟩

@[simp] theorem outcome_prepend (t : Trace α) (attempts : List Attempt) :
    (t.prepend attempts).outcome = t.outcome :=
  rfl

theorem answer_eq (t : Trace α) : t.answer = t.outcome.1 := rfl

theorem after_eq (t : Trace α) : t.after = t.outcome.2 := rfl

end Trace

mutual

/-- The run of a handler with its attempts, those of the rules that it consults among them. -/
def Script.trace : Script → Turn → Trace (Except Error Text)
  | .done output, turn => ⟨[], .ok output, turn⟩
  | .fail error, turn => ⟨[], .error error, turn⟩
  | .inspect next, turn => (next turn.context).trace turn
  | .push name next, turn => next.trace { turn with context := turn.context.push name }
  | .setFlags letters next, turn =>
    match turn.context.setFlags letters with
    | (result, context) => (next result).trace { turn with context := context }
  | .replace flags names next, turn => next.trace { turn with context := .holding flags names }
  | .compile pattern next, turn =>
    match compileStandalone pattern turn.inHandler with
    | (result, inHandler) =>
      ((next result).trace { turn with inHandler := inHandler }).prepend [⟨pattern, result⟩]
  | .consult rules (some context) pattern position scope next, turn =>
    let inner :=
      Rule.traceAll rules pattern position (Text.dropTo pattern position) scope ⟨context, true⟩
    ((next inner.answer).trace turn).prepend inner.attempts
  | .consult rules none pattern position scope next, turn =>
    let inner :=
      Rule.traceAll rules pattern position (Text.dropTo pattern position) scope
        { turn with inHandler := true }
    ((next inner.answer).trace { inner.after with inHandler := turn.inHandler }).prepend
      inner.attempts

def Check.trace : Check → Turn → Trace Bool
  | .done holds, turn => ⟨[], holds, turn⟩
  | .inspect next, turn => (next turn.context).trace turn
  | .compile pattern next, turn =>
    match compileStandalone pattern turn.inHandler with
    | (result, inHandler) =>
      ((next result).trace { turn with inHandler := inHandler }).prepend [⟨pattern, result⟩]
  | .consult rules context pattern position scope next, turn =>
    let inner :=
      Rule.traceAll rules pattern position (Text.dropTo pattern position) scope ⟨context, true⟩
    ((next inner.answer).trace turn).prepend inner.attempts

def Rule.trace : Rule → (pattern : Text) → (position : Nat) → (rest : Text) → Scope → Turn →
    Trace (Except Error (Option Hit))
  | .builtin b, pattern, position, rest, scope, turn =>
    match b.attempt pattern position rest scope turn.context with
    | (answer, context) => ⟨[], answer, { turn with context := context }⟩
  | .custom source recognize handler here activation, pattern, position, rest, scope, turn =>
    if here.meets scope then
      let tested := Check.traceOptional activation turn
      match tested.answer, recognize rest with
      | false, _ => ⟨tested.attempts, .ok none, tested.after⟩
      | true, .error fault =>
        ⟨tested.attempts, .error (.engine source (.search fault)), tested.after⟩
      | true, .ok none => ⟨tested.attempts, .ok none, tested.after⟩
      | true, .ok (some found) =>
        let token := Token.ofRecognition pattern position rest scope found
        let handled := (handler token).trace tested.after
        ⟨tested.attempts ++ handled.attempts, handled.answer.map fun output =>
          some ⟨output, token.text⟩, handled.after⟩
    else ⟨[], .ok none, turn⟩

def Check.traceOptional : Option Check → Turn → Trace Bool
  | none, turn => ⟨[], true, turn⟩
  | some check, turn => check.trace turn

/-- Rules with their attempts, up to the rule that answers. -/
def Rule.traceAll : List Rule → (pattern : Text) → (position : Nat) → (rest : Text) → Scope → Turn →
    Trace (Except Error (Option Hit))
  | [], _, _, _, _, turn => ⟨[], .ok none, turn⟩
  | r :: rs, pattern, position, rest, scope, turn =>
    let first := r.trace pattern position rest scope turn
    match first.answer with
    | .ok none => (Rule.traceAll rs pattern position rest scope first.after).prepend first.attempts
    | _ => first

end

mutual

/-- Forgetting the attempts gives the run itself. -/
theorem Script.outcome_trace :
    (script : Script) → (turn : Turn) → (script.trace turn).outcome = script.run turn
  | .done _, _ => by rw [Script.trace, Script.run, Trace.outcome]
  | .fail _, _ => by rw [Script.trace, Script.run, Trace.outcome]
  | .inspect next, turn => by
    rw [Script.trace, Script.run]
    exact Script.outcome_trace (next turn.context) turn
  | .push name next, turn => by
    rw [Script.trace, Script.run]
    exact Script.outcome_trace next { turn with context := turn.context.push name }
  | .setFlags letters next, turn => by
    rw [Script.trace, Script.run]
    exact Script.outcome_trace (next (turn.context.setFlags letters).1) _
  | .replace flags names next, turn => by
    rw [Script.trace, Script.run]
    exact Script.outcome_trace next { turn with context := .holding flags names }
  | .compile pattern next, turn => by
    rw [Script.trace, Script.run]
    exact Script.outcome_trace (next (compileStandalone pattern turn.inHandler).1) _
  | .consult rules (some context) pattern position scope next, turn => by
    rw [Script.trace, Script.run, Trace.outcome_prepend, Trace.answer_eq,
      Rule.outcome_traceAll rules]
    exact Script.outcome_trace (next _) turn
  | .consult rules none pattern position scope next, turn => by
    rw [Script.trace, Script.run, Trace.outcome_prepend, Trace.answer_eq, Trace.after_eq,
      Rule.outcome_traceAll rules]
    exact Script.outcome_trace (next _) _

theorem Check.outcome_trace :
    (check : Check) → (turn : Turn) → (check.trace turn).outcome = check.run turn
  | .done _, _ => by rw [Check.trace, Check.run, Trace.outcome]
  | .inspect next, turn => by
    rw [Check.trace, Check.run]
    exact Check.outcome_trace (next turn.context) turn
  | .compile pattern next, turn => by
    rw [Check.trace, Check.run]
    exact Check.outcome_trace (next (compileStandalone pattern turn.inHandler).1) _
  | .consult rules context pattern position scope next, turn => by
    rw [Check.trace, Check.run, Trace.outcome_prepend, Trace.answer_eq, Rule.outcome_traceAll rules]
    exact Check.outcome_trace (next _) turn

theorem Rule.outcome_trace :
    (r : Rule) → (pattern : Text) → (position : Nat) → (rest : Text) → (scope : Scope) →
    (turn : Turn) → (r.trace pattern position rest scope turn).outcome =
      r.consult pattern position rest scope turn
  | .builtin b, pattern, position, rest, scope, turn => by
    rw [Rule.trace, Rule.consult, Trace.outcome]
  | .custom source recognize handler here activation, pattern, position, rest, scope, turn => by
    rw [Rule.trace, Rule.consult, ← Check.outcome_traceOptional activation turn]
    split
    · rcases Check.traceOptional activation turn with ⟨attempts, _ | _, after⟩
      · rfl
      · rcases recognize rest with fault | _ | found
        · rfl
        · rfl
        · have hh :=
            Script.outcome_trace (handler (Token.ofRecognition pattern position rest scope found))
              after
          simp only [Trace.outcome] at hh ⊢
          rw [← hh]
          rcases ((handler _).trace after).answer with e | output <;> rfl
    · rfl

theorem Check.outcome_traceOptional : (activation : Option Check) → (turn : Turn) →
    (Check.traceOptional activation turn).outcome = Check.runOptional activation turn
  | none, _ => by rw [Check.traceOptional, Check.runOptional, Trace.outcome]
  | some check, turn => by
    rw [Check.traceOptional, Check.runOptional]
    exact Check.outcome_trace check turn

theorem Rule.outcome_traceAll :
    (rules : List Rule) → (pattern : Text) → (position : Nat) → (rest : Text) →
    (scope : Scope) → (turn : Turn) →
    (Rule.traceAll rules pattern position rest scope turn).outcome =
      Rule.consultAll rules pattern position rest scope turn
  | [], _, _, _, _, _ => by rw [Rule.traceAll, Rule.consultAll, Trace.outcome]
  | r :: rs, pattern, position, rest, scope, turn => by
    rw [Rule.traceAll, Rule.consultAll, ← Rule.outcome_trace r]
    rcases r.trace pattern position rest scope turn with ⟨attempts, e | _ | hit, after⟩
    · rfl
    · exact Rule.outcome_traceAll rs pattern position rest scope after
    · rfl

end

theorem Rule.find_ne_reentrantCompile (r : Rule) {rest : Text} :
    r.find rest ≠ .error .reentrantCompile := by
  cases r with
  | builtin b => simp [find]
  | custom source recognize handler here activation =>
    rw [find]
    split <;> simp

theorem Rule.inHandler_consult (r : Rule) (pattern : Text) (position : Nat) (rest : Text)
    (scope : Scope) (context : Context) :
      (r.consult pattern position rest scope ⟨context, true⟩).2.inHandler = true := by
  rcases r.isPassed_or rest scope context with hp | ⟨found, hq⟩ | ⟨e, hf⟩
  · rw [consult_of_isPassed hp]
  · rw [consult_of_qualifies hq]
    rcases r.handle (Token.ofRecognition pattern position rest scope found) context with
      ⟨_ | _, _⟩ <;> rfl
  · rw [consult_of_fails hf]

mutual

/-- A handler that is marked as running gets no compilation, before or after it consults other
rules. -/
theorem Script.isRefused_of_mem_trace :
    (script : Script) → (context : Context) →
      ∀ a ∈ (script.trace ⟨context, true⟩).attempts, a.IsRefused
  | .done _, _ => by simp [Script.trace]
  | .fail _, _ => by simp [Script.trace]
  | .inspect next, context => by
    rw [Script.trace]
    exact Script.isRefused_of_mem_trace (next context) context
  | .push name next, context => by
    rw [Script.trace]
    exact Script.isRefused_of_mem_trace next (context.push name)
  | .setFlags letters next, context => by
    rw [Script.trace]
    exact Script.isRefused_of_mem_trace (next (context.setFlags letters).1)
      (context.setFlags letters).2
  | .replace flags names next, _ => by
    rw [Script.trace]
    exact Script.isRefused_of_mem_trace next (.holding flags names)
  | .compile pattern next, context => by
    rw [Script.trace, compileStandalone_inHandler]
    exact List.forall_mem_cons.2
      ⟨rfl, Script.isRefused_of_mem_trace (next (.error .reentrantCompile)) context⟩
  | .consult rules (some inner) pattern position scope next, context => by
    rw [Script.trace]
    exact List.forall_mem_append.2
      ⟨Rule.isRefused_of_mem_traceAll rules pattern position _ scope inner,
        Script.isRefused_of_mem_trace (next _) context⟩
  | .consult rules none pattern position scope next, context => by
    rw [Script.trace]
    exact List.forall_mem_append.2
      ⟨Rule.isRefused_of_mem_traceAll rules pattern position _ scope context,
        Script.isRefused_of_mem_trace (next _) _⟩

theorem Check.isRefused_of_mem_trace :
    (check : Check) → (context : Context) →
      ∀ a ∈ (check.trace ⟨context, true⟩).attempts, a.IsRefused
  | .done _, _ => by simp [Check.trace]
  | .inspect next, context => by
    rw [Check.trace]
    exact Check.isRefused_of_mem_trace (next context) context
  | .compile pattern next, context => by
    rw [Check.trace, compileStandalone_inHandler]
    exact List.forall_mem_cons.2
      ⟨rfl, Check.isRefused_of_mem_trace (next (.error .reentrantCompile)) context⟩
  | .consult rules inner pattern position scope next, context => by
    rw [Check.trace]
    exact List.forall_mem_append.2
      ⟨Rule.isRefused_of_mem_traceAll rules pattern position _ scope inner,
        Check.isRefused_of_mem_trace (next _) context⟩

theorem Rule.isRefused_of_mem_trace :
    (r : Rule) → (pattern : Text) → (position : Nat) → (rest : Text) → (scope : Scope) →
      (context : Context) →
      ∀ a ∈ (r.trace pattern position rest scope ⟨context, true⟩).attempts, a.IsRefused
  | .builtin _, _, _, _, _, _ => by simp [Rule.trace]
  | .custom source recognize handler here activation, pattern, position, rest, scope, context => by
    have htested := Check.isRefused_of_mem_traceOptional activation context
    have hafter := Check.outcome_traceOptional activation ⟨context, true⟩
    rw [Rule.runOptional_eq] at hafter
    rw [Rule.trace]
    split
    · rcases ht : Check.traceOptional activation ⟨context, true⟩ with ⟨attempts, holds, after⟩
      rw [ht] at htested hafter
      obtain ⟨-, rfl⟩ := Prod.mk.inj hafter
      cases holds with
      | false => exact htested
      | true =>
        rcases recognize rest with fault | _ | found
        · exact htested
        · exact htested
        · exact List.forall_mem_append.2
            ⟨htested, Script.isRefused_of_mem_trace (handler _) context⟩
    · simp

theorem Check.isRefused_of_mem_traceOptional :
    (activation : Option Check) → (context : Context) →
      ∀ a ∈ (Check.traceOptional activation ⟨context, true⟩).attempts, a.IsRefused
  | none, _ => by simp [Check.traceOptional]
  | some check, context => by
    rw [Check.traceOptional]
    exact Check.isRefused_of_mem_trace check context

theorem Rule.isRefused_of_mem_traceAll :
    (rules : List Rule) → (pattern : Text) → (position : Nat) → (rest : Text) → (scope : Scope) →
      (context : Context) →
        ∀ a ∈ (Rule.traceAll rules pattern position rest scope ⟨context, true⟩).attempts,
        a.IsRefused
  | [], _, _, _, _, _ => by simp [Rule.traceAll]
  | r :: rs, pattern, position, rest, scope, context => by
    have hfirst := Rule.isRefused_of_mem_trace r pattern position rest scope context
    have hmark := r.inHandler_consult pattern position rest scope context
    rw [← Rule.outcome_trace] at hmark
    rw [Rule.traceAll]
    rcases hr : r.trace pattern position rest scope ⟨context, true⟩ with
      ⟨attempts, e | _ | hit, after, mark⟩
    · simpa only [hr] using hfirst
    · rw [hr] at hfirst hmark
      obtain rfl : mark = true := hmark
      exact List.forall_mem_append.2
        ⟨hfirst, Rule.isRefused_of_mem_traceAll rs pattern position rest scope after⟩
    · simpa only [hr] using hfirst

end

namespace Registry

def trace (r : Registry) (pattern : Text) (position : Nat) (rest : Text) (scope : Scope)
    (turn : Turn) :
    Trace (Except Error (Option Hit)) :=
  let asked := Rule.traceAll r.rules pattern position rest scope { turn with inHandler := true }
  { asked with after := { asked.after with inHandler := turn.inHandler } }

variable {pattern rest : Text} {position : Nat} {scope : Scope} {turn : Turn}

theorem outcome_trace (r : Registry) : (r.trace pattern position rest scope turn).outcome =
    r.lookup pattern position rest scope turn := by
  rw [lookup, ← Rule.outcome_traceAll]
  rfl

theorem isRefused_of_mem_trace (r : Registry) :
    ∀ a ∈ (r.trace pattern position rest scope turn).attempts, a.IsRefused :=
  Rule.isRefused_of_mem_traceAll r.rules pattern position rest scope turn.context

theorem inHandler_lookup (r : Registry) (pattern : Text) (position : Nat) (rest : Text)
    (scope : Scope) (turn : Turn) :
    (r.lookup pattern position rest scope turn).2.inHandler = turn.inHandler := by
  rw [lookup]

end Registry

namespace ScanState

/-- The compilations that rules ask for from a place of the scan on, in the given number of
rounds. -/
def attempts (r : Registry) (pattern : Text) : (rounds : Nat) → ScanState → List Attempt
  | 0, _ => []
  | rounds + 1, s =>
    match s.rest with
    | [] => []
    | _ :: _ =>
      (r.trace pattern s.position s.rest s.scope s.turn).attempts ++
        match s.step r.lookup pattern with
        | .ok (some (_, t)) => attempts r pattern rounds t
        | _ => []

variable {r : Registry} {pattern : Text} {s t : ScanState}

theorem isRefused_of_mem_attempts (rounds : Nat) :
    ∀ a ∈ s.attempts r pattern rounds, a.IsRefused := by
  induction rounds generalizing s with
  | zero => simp [attempts]
  | succ rounds ih =>
    rw [attempts]
    split
    · simp
    · refine List.forall_mem_append.2 ⟨r.isRefused_of_mem_trace, ?_⟩
      split
      · exact ih
      · simp

theorem inHandler_of_step {piece : Segment} (h : s.step r.lookup pattern = .ok (some (piece, t))) :
    t.turn.inHandler = s.turn.inHandler := by
  rw [turn_of_step h]
  exact r.inHandler_lookup pattern s.position s.rest s.scope s.turn

end ScanState

theorem Run.inHandler_eq {r : Registry} {pattern : Text} {s t : ScanState} {l : List Segment}
    (run : Run r.lookup pattern s l t) : t.turn.inHandler = s.turn.inHandler := by
  induction run with
  | done => rfl
  | round h _ ih => rw [ih, ScanState.inHandler_of_step h]

namespace ScanState

/-- The newest rule that is not passed here has a handler that answers that nothing can be compiled
now. -/
def PassesRefusalOn (r : Registry) (pattern : Text) (s : ScanState) : Prop :=
  s.rest ≠ [] ∧ ∃ newer rule older found, r.rules = newer ++ rule :: older ∧
    (∀ a ∈ newer, a.IsPassed s.rest s.scope s.turn.context) ∧
      rule.Qualifies s.rest s.scope s.turn.context found ∧
      (rule.handle (Token.ofRecognition pattern s.position s.rest s.scope found) s.turn.context).1 =
        .error .reentrantCompile

variable {r : Registry} {pattern : Text} {s : ScanState}

theorem inHandler_scan (r : Registry) (pattern : Text) (s : ScanState) :
    (s.scan r.lookup pattern).2.inHandler = s.turn.inHandler := by
  obtain ⟨l, t, run, ⟨-, hscan⟩ | ⟨e, turn, hstep, hscan⟩⟩ := Run.exists_last r.lookup pattern s
  · rw [hscan, run.inHandler_eq]
  · have hmark := r.inHandler_lookup pattern t.position t.rest t.scope t.turn
    rw [(lookup_of_step_error hstep).2] at hmark
    rw [hscan, hmark, run.inHandler_eq]

/-- Only a handler makes a look-up answer that nothing can be compiled now. -/
theorem passesRefusalOn_of_lookup {turn : Turn} (hn : s.rest ≠ [])
    (h : r.lookup pattern s.position s.rest s.scope s.turn = (.error .reentrantCompile, turn)) :
    s.PassesRefusalOn r pattern := by
  obtain ⟨hd, -⟩ := Registry.lookup_eq_iff.1 h
  generalize hrules : r.rules = rules at hd
  generalize hdecision : (Except.error Error.reentrantCompile, turn.context) = decision at hd
  cases hd with
  | nothing => simp at hdecision
  | output => simp at hdecision
  | @refusal newer older rule found e after hnewer hq he =>
    simp only [Prod.mk.injEq, Except.error.injEq] at hdecision
    obtain ⟨rfl, -⟩ := hdecision
    exact ⟨hn, newer, rule, older, found, hrules, hnewer, hq, by rw [he]⟩
  | @fault newer older rule e _ hf =>
    simp only [Prod.mk.injEq, Except.error.injEq] at hdecision
    obtain ⟨rfl, -⟩ := hdecision
    exact absurd hf.fault rule.find_ne_reentrantCompile

end ScanState

inductive Call
  | compile (r : Registry) (pattern : Text) (flags : Flags)
  | tryAt (r : Registry) (pattern : Text) (position : Nat) (scope : Scope) (context : Context)

namespace Call

inductive Answer
  | compiled (result : Except Error Compiled)
  | found (result : Except Error (Option Hit)) (context : Context)

def run : Call → (inHandler : Bool) → Answer × Bool
  | compile r pattern flags, inHandler =>
    match r.compileIn pattern flags inHandler with
    | (result, inHandler) => (.compiled result, inHandler)
  | tryAt r pattern position scope context, inHandler =>
    match r.tryAt pattern position scope ⟨context, inHandler⟩ with
    | (result, turn) => (.found result turn.context, turn.inHandler)

def attempts : Call → (inHandler : Bool) → List Attempt
  | compile r pattern flags, inHandler =>
    if inHandler then [] else (ScanState.start pattern ⟨.start flags, inHandler⟩).attempts r pattern
      pattern.length
  | tryAt r pattern position scope context, inHandler =>
    (r.trace pattern position (Text.dropTo pattern position) scope ⟨context, inHandler⟩).attempts

def runAll : List Call → (inHandler : Bool) → List Answer × Bool
  | [], inHandler => ([], inHandler)
  | call :: calls, inHandler =>
    match call.run inHandler with
    | (answer, inHandler) => (answer :: (runAll calls inHandler).1, (runAll calls inHandler).2)

def attemptsAll : List Call → (inHandler : Bool) → List Attempt
  | [], _ => []
  | call :: calls, inHandler => call.attempts inHandler ++ attemptsAll calls (call.run inHandler).2

theorem inHandler_run (call : Call) (inHandler : Bool) : (call.run inHandler).2 = inHandler := by
  cases call with
  | compile r pattern flags =>
    cases inHandler with
    | true => rfl
    | false =>
      have hmark := ScanState.inHandler_scan r pattern (.start pattern ⟨.start flags, false⟩)
      rw [ScanState.scan_start] at hmark
      rw [run, Registry.compileIn, compileWith]
      rcases hscan : scan r.lookup pattern ⟨.start flags, false⟩ with ⟨e | l, turn⟩
      all_goals
        rw [hscan] at hmark
        exact hmark
  | tryAt r pattern position scope context =>
    exact r.inHandler_lookup pattern position (Text.dropTo pattern position) scope
      ⟨context, inHandler⟩

theorem isRefused_of_mem_attempts (call : Call) (inHandler : Bool) :
    ∀ a ∈ call.attempts inHandler, a.IsRefused := by
  cases call with
  | compile r pattern flags =>
    rw [attempts]
    split
    · simp
    · exact ScanState.isRefused_of_mem_attempts pattern.length
  | tryAt r pattern position scope context => exact r.isRefused_of_mem_trace

theorem runAll_eq (calls : List Call) (inHandler : Bool) :
    runAll calls inHandler = (calls.map fun call => (call.run inHandler).1, inHandler) := by
  induction calls with
  | nil => rfl
  | cons call calls ih =>
    have hmark := call.inHandler_run inHandler
    rcases hr : call.run inHandler with ⟨answer, after⟩
    obtain rfl : after = inHandler := by simpa only [hr] using hmark
    simp only [runAll, hr, ih, List.map_cons]

theorem isRefused_of_mem_attemptsAll (calls : List Call) (inHandler : Bool) :
    ∀ a ∈ attemptsAll calls inHandler, a.IsRefused := by
  induction calls generalizing inHandler with
  | nil => simp [attemptsAll]
  | cons call calls ih =>
    rw [attemptsAll]
    exact List.forall_mem_append.2 ⟨call.isRefused_of_mem_attempts inHandler, ih _⟩

end Call

/-- A compilation from outside fails for want of permission only where a handler passes that error
on. -/
theorem Registry.passesRefusalOn_of_compile {r : Registry} {pattern : Text} {flags : Flags}
    (h : r.compile pattern flags = .error .reentrantCompile) :
    ∃ l s, Run r.lookup pattern (.start pattern ⟨.start flags, false⟩) l s ∧
      s.PassesRefusalOn r pattern := by
  obtain ⟨l, s, run, ⟨-, hscan⟩ | ⟨e, turn, hstep, hscan⟩⟩ :=
    Run.exists_last r.lookup pattern (.start pattern ⟨.start flags, false⟩)
  · rw [compile_eq, hscan] at h
    simp at h
  · rw [compile_eq, hscan] at h
    simp only [Except.error.injEq] at h
    subst h
    obtain ⟨hn, hlookup⟩ := ScanState.lookup_of_step_error hstep
    exact ⟨l, s, run, ScanState.passesRefusalOn_of_lookup hn hlookup⟩

/-- Handlers and predicates never get a compilation, and they cannot keep others from getting
theirs. While the mark is on, every compilation is refused, whatever its rules and flags, and the
mark is on for all that handlers and predicates ask for in any sequence of calls from outside; the
record of what they ask for is one of the actual run. After each of these calls, whatever it
answers, the mark is off, so each answers as it does alone; and a call that compiles is refused only
where a handler of its own rules answers so. -/
theorem Call.guarded (calls : List Call) :
    (∀ (r : Registry) pattern flags, r.compileIn pattern flags true =
      (.error .reentrantCompile, true)) ∧
    (∀ (r : Registry) pattern position rest scope turn,
      (r.trace pattern position rest scope turn).outcome =
        r.lookup pattern position rest scope turn) ∧
    (∀ attempt ∈ attemptsAll calls false, attempt.IsRefused) ∧
    runAll calls false = (calls.map fun call => (call.run false).1, false) ∧
    ∀ (i : Nat) r pattern flags, calls[i]? = some (Call.compile r pattern flags) →
      (runAll calls false).1[i]? = some (Answer.compiled (.error .reentrantCompile)) →
      ∃ l s, Run r.lookup pattern (.start pattern ⟨.start flags, false⟩) l s ∧
        s.PassesRefusalOn r pattern := by
  refine ⟨fun _ _ _ => rfl, fun r _ _ _ _ _ => r.outcome_trace,
    isRefused_of_mem_attemptsAll calls false,
    runAll_eq calls false, fun i r pattern flags hcall h => ?_⟩
  simp only [runAll_eq, List.getElem?_map, hcall, Option.map_some, Option.some.injEq] at h
  exact Registry.passesRefusalOn_of_compile (Answer.compiled.inj h)

def Recognizer.ofChar (c : Char) : Recognizer := fun rest =>
  .ok (if rest.head? = some c then some ⟨1, [some [c]]⟩ else none)

/-- A rule for `!` that tries to compile `a`, whatever comes of it. -/
def Rule.swallowing : Rule :=
  .custom ['!'] (Recognizer.ofChar '!')
    (fun _ => .compile ['a'] fun _ => .done []) .outsideClass none

/-- A rule for `@` that consults the rule for `!`, then tries to compile `b` and passes the error
on. -/
def Rule.passing : Rule :=
  .custom ['@'] (Recognizer.ofChar '@')
    (fun _ => .consult [.swallowing] none ['!'] 0 .outsideClass fun _ =>
      .compile ['b'] fun result =>
      match result with
      | .ok _ => .done []
      | .error e => .fail e)
    .outsideClass none

/-- Two compilations with the rule for `@`, whose token is in the first pattern only. -/
def Call.nested : List Call :=
  [.compile ⟨[.passing]⟩ ['x', '@'] .empty, .compile ⟨[.passing]⟩ ['x'] .empty]

/-- Both attempts are refused, the one inside the nested call and the one after it; the error ends
the first call, and the second call is free to compile. -/
theorem Call.guarded_nested :
    (attemptsAll nested false).map Attempt.pattern = [['a'], ['b']] ∧
    (∀ attempt ∈ attemptsAll nested false, attempt.IsRefused) ∧
    runAll nested false =
      ([.compiled (.error .reentrantCompile), .compiled (.ok ⟨['x'], .start .empty⟩)], false) ∧
    ∃ l s, Run (Registry.lookup ⟨[.passing]⟩) ['x', '@']
      (.start ['x', '@'] ⟨.start .empty, false⟩) l s ∧
      s.PassesRefusalOn ⟨[.passing]⟩ ['x', '@'] := by
  obtain ⟨-, -, hrefused, -, hpassed⟩ := guarded nested
  exact ⟨rfl, hrefused, rfl, hpassed 0 ⟨[.passing]⟩ ['x', '@'] .empty rfl rfl⟩

end RegexDialect
