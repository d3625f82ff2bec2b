import RegexDialect.Rule.Builtin

/-! Rules and the programs that their handlers and predicates run. A handler sees its token and can
read the context, record groups, set flags, put another context in the place of the running one, try
to compile a pattern, consult other rules, fail or finish with an output. A predicate can do all of
these but change the context. -/
namespace RegexDialect

/-- A recognizer looks at the start of a text; a search of the baseline engine may give up. -/
abbrev Recognizer := Text → Except Baseline.SearchFault (Option Recognition)

mutual

inductive Script where
  | done (output : Text)
  | fail (error : Error)
  | inspect (next : Context → Script)
  | push (name : Option Text) (next : Script)
  | setFlags (letters : Text) (next : Except Error Unit → Script)
  /-- Drops the running context for one with the given flags and groups, be it a new one or one that
  was read before. -/
  | replace (flags : Flags) (names : List (Option Text)) (next : Script)
  /-- Tries to compile a pattern with the built-in rules and no flags. -/
  | compile (pattern : Text) (next : Except Error Compiled → Script)
  /-- Consults other rules at a place, on a context of its own or, without one, on the running
  context. -/
  | consult (rules : List Rule) (context : Option Context) (pattern : Text) (position : Nat)
    (scope : Scope) (next : Except Error (Option Hit) → Script)

inductive Check where
  | done (holds : Bool)
  | inspect (next : Context → Check)
  | compile (pattern : Text) (next : Except Error Compiled → Check)
  | consult (rules : List Rule) (context : Context) (pattern : Text) (position : Nat)
    (scope : Scope) (next : Except Error (Option Hit) → Check)

/-- A rule: built in, or given by a recognizer with its source, a handler, a scope and perhaps a
predicate. -/
inductive Rule where
  | builtin (b : Builtin)
  | custom (source : Text) (recognize : Recognizer) (handler : Token → Script) (scope : Scope)
    (activation : Option Check)

end

def compileStandalone (pattern : Text) (inHandler : Bool) : Except Error Compiled × Bool :=
  compileWith Builtin.lookup pattern Flags.empty inHandler

mutual

def Script.run : Script → Turn → Except Error Text × Turn
  | .done output, turn => (.ok output, turn)
  | .fail error, turn => (.error error, turn)
  | .inspect next, turn => (next turn.context).run turn
  | .push name next, turn => next.run { turn with context := turn.context.push name }
  | .setFlags letters next, turn =>
    match turn.context.setFlags letters with
    | (result, context) => (next result).run { turn with context := context }
  | .replace flags names next, turn => next.run { turn with context := .holding flags names }
  | .compile pattern next, turn =>
    match compileStandalone pattern turn.inHandler with
    | (result, inHandler) => (next result).run { turn with inHandler := inHandler }
  | .consult rules (some context) pattern position scope next, turn =>
    match Rule.consultAll rules pattern position (Text.dropTo pattern position) scope
      ⟨context, true⟩ with
    | (result, _) => (next result).run turn
  | .consult rules none pattern position scope next, turn =>
    match Rule.consultAll rules pattern position (Text.dropTo pattern position) scope
      { turn with inHandler := true } with
    | (result, after) => (next result).run { after with inHandler := turn.inHandler }

def Check.run : Check → Turn → Bool × Turn
  | .done holds, turn => (holds, turn)
  | .inspect next, turn => (next turn.context).run turn
  | .compile pattern next, turn =>
    match compileStandalone pattern turn.inHandler with
    | (result, inHandler) => (next result).run { turn with inHandler := inHandler }
  | .consult rules context pattern position scope next, turn =>
    match Rule.consultAll rules pattern position (Text.dropTo pattern position) scope
      ⟨context, true⟩ with
    | (result, _) => (next result).run turn

def Rule.consult : Rule → (pattern : Text) → (position : Nat) → (rest : Text) → Scope → Turn →
    Except Error (Option Hit) × Turn
  | .builtin b, pattern, position, rest, scope, turn =>
    match b.attempt pattern position rest scope turn.context with
    | (answer, context) => (answer, { turn with context := context })
  | .custom source recognize handler here activation, pattern, position, rest, scope, turn =>
    if here.meets scope then
      match Check.runOptional activation turn with
      | (false, turn) => (.ok none, turn)
      | (true, turn) =>
        match recognize rest with
        | .error fault => (.error (.engine source (.search fault)), turn)
        | .ok none => (.ok none, turn)
        | .ok (some r) =>
          let token := Token.ofRecognition pattern position rest scope r
          match (handler token).run turn with
          | (.ok output, turn) => (.ok (some ⟨output, token.text⟩), turn)
          | (.error e, turn) => (.error e, turn)
    else (.ok none, turn)

/-- Runs a predicate, if there is one; no predicate always holds. -/
def Check.runOptional : Option Check → Turn → Bool × Turn
  | none, turn => (true, turn)
  | some check, turn => check.run turn

def Rule.consultAll :
    List Rule → (pattern : Text) → (position : Nat) → (rest : Text) → Scope → Turn →
    Except Error (Option Hit) × Turn
  | [], _, _, _, _, turn => (.ok none, turn)
  | r :: rs, pattern, position, rest, scope, turn =>
    match r.consult pattern position rest scope turn with
    | (.ok none, turn) => Rule.consultAll rs pattern position rest scope turn
    | answer => answer

end

end RegexDialect
