import RegexDialect.Rule.Registry

/-! Handlers and predicates written as data: a handler is a list of actions whose outputs are
joined, a predicate one condition. -/
namespace RegexDialect

namespace Error

def label : Error → Text
  | integerCaptureName _ => "IntegerCaptureName".toList
  | invalidFlag _ => "InvalidFlag".toList
  | invalidToken _ _ => "InvalidToken".toList
  | reentrantCompile => "ReentrantCompile".toList
  | flagsOnCompiledPattern => "FlagsOnCompiledPattern".toList
  | invalidPosition _ => "InvalidPosition".toList
  | engine _ _ => "Engine".toList

end Error

namespace Scope

def name (s : Scope) : Text :=
  match s.inside, s.outside with
  | true, true => "both".toList
  | true, false => "inside".toList
  | false, true => "outside".toList
  | false, false => "none".toList

end Scope

inductive Action
  | emit (text : Text)
  /-- The token itself. -/
  | token
  /-- A group of the recognizer. -/
  | group (n : Nat)
  /-- Where the token stands, and in which scope. -/
  | info
  /-- The place of the first group with a name. -/
  | index (name : Text)
  /-- The number of groups so far. -/
  | count
  | push (name : Option Text)
  | setFlags (letters : Text)
  /-- Refuses the token. -/
  | fail
  /-- Compiles a pattern; its error is the handler's. -/
  | compile (pattern : Text)
  /-- Compiles a pattern and emits what became of it. -/
  | report (pattern : Text)
deriving DecidableEq, Repr

namespace Action

/-- A position as `<start,stop,bytes after,bytes of the pattern,scope>`. -/
def describe (t : Token) : Text :=
  let fields := [Text.ofNat t.start, Text.ofNat t.stop, Text.ofNat (Text.bytes t.rest),
    Text.ofNat (Text.bytes t.pattern), t.scope.name]
  ['<'] ++ ([','] : Text).intercalate fields ++ ['>']

/-- The handler that takes the given steps on a token, after the output gathered so far. -/
def script (t : Token) : List Action → (output : Text) → Script
  | [], output => .done output
  | emit text :: rest, output => script t rest (output ++ text)
  | token :: rest, output => script t rest (output ++ t.text)
  | group n :: rest, output => script t rest (output ++ (t.group n).getD "<none>".toList)
  | info :: rest, output => script t rest (output ++ describe t)
  | index name :: rest, output =>
    .inspect fun c => script t rest (output ++ ((c.index? name).map Text.ofNat).getD ['-'])
  | count :: rest, output => .inspect fun c => script t rest (output ++ Text.ofNat c.count)
  | push name :: rest, output => .push name (script t rest output)
  | setFlags letters :: rest, output => .setFlags letters fun r =>
    match r with
    | .ok _ => script t rest output
    | .error e => .fail e
  | fail :: _, _ => .fail (.invalidToken t.text t.start)
  | compile pattern :: rest, output => .compile pattern fun r =>
    match r with
    | .ok _ => script t rest output
    | .error e => .fail e
  | report pattern :: rest, output => .compile pattern fun r =>
    match r with
    | .ok _ => script t rest (output ++ ['o', 'k'])
    | .error e => script t rest (output ++ e.label)

def handler (steps : List Action) (t : Token) : Script := script t steps []

end Action

inductive Condition
  | flag (letter : Char)
  | minCaptures (n : Nat)
  | named (expected : Bool)
  /-- Whether a compilation is refused because a handler is running. -/
  | refused (pattern : Text)
deriving DecidableEq, Repr

namespace Condition

def check : Condition → Check
  | flag letter => .inspect fun c => .done (c.hasFlag letter)
  | minCaptures n => .inspect fun c => .done (n ≤ c.count)
  | named expected => .inspect fun c => .done (c.named == expected)
  | refused pattern => .compile pattern fun r =>
    match r with
    | .error .reentrantCompile => .done true
    | _ => .done false

end Condition
end RegexDialect
