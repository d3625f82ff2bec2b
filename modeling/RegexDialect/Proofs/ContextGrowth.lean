import RegexDialect.Proofs.FlagIndependence
import RegexDialect.Proofs.Reentrancy

/-! The context of a compilation only grows, as long as no handler puts another one in its place.
Whatever rules are asked and however their handlers end, the groups recorded so far stay in front,
the flags set so far stay set, and a name refers to the same group from then on. The mark for named
groups is right even where contexts are replaced. -/
namespace RegexDialect

/-- What was recorded stays: groups are added behind the others, with the mark for named ones, and
no flag is lost. -/
structure Context.Grows (c d : Context) : Prop where
  names : ∃ more, d.names = c.names ++ more ∧ d.named = (c.named || more.any Option.isSome)
  flags : ∀ flag, c.hasFlag flag = true → d.hasFlag flag = true

namespace Context.Grows

variable {c d e : Context}

theorem refl (c : Context) : c.Grows c := ⟨⟨[], by simp⟩, fun _ h => h⟩

theorem trans (h : c.Grows d) (h' : d.Grows e) : c.Grows e := by
  obtain ⟨⟨more, hnames, hnamed⟩, hflags⟩ := h
  obtain ⟨⟨others, hnames', hnamed'⟩, hflags'⟩ := h'
  refine ⟨⟨more ++ others, ?_, ?_⟩, fun flag hflag => hflags' flag (hflags flag hflag)⟩
  · rw [hnames', hnames, List.append_assoc]
  · rw [hnamed', hnamed, List.any_append, Bool.or_assoc]

theorem push (c : Context) (name : Option Text) : c.Grows (c.push name) :=
  ⟨⟨[name], rfl, by simp [Context.push]⟩, fun _ h => h⟩

theorem setFlags (c : Context) (letters : Text) : c.Grows (c.setFlags letters).2 := by
  obtain ⟨result, added, hadd⟩ := Flags.exists_insertAll letters
  rw [Context.setFlags, hadd]
  refine ⟨⟨[], by simp⟩, fun flag hflag => ?_⟩
  have hset : c.flags.has flag = true := hflag
  simp only [hasFlag, Flags.has_foldl_add, hset, Bool.or_true]

/-- A name that refers to a group goes on referring to it: the first group of a name stays the first
one. -/
theorem index?_eq (h : c.Grows d) {name : Text} {index : Nat} (hi : c.index? name = some index) :
    d.index? name = some index := by
  obtain ⟨more, hnames, -⟩ := h.names
  rw [index?] at hi
  rw [index?, hnames, List.findIdx?_append, hi, Option.some_or]

theorem prefix_names (h : c.Grows d) : c.names <+: d.names := by
  obtain ⟨more, hnames, -⟩ := h.names
  exact ⟨more, hnames.symm⟩

end Context.Grows

namespace Context

/-- The mark for named groups tells whether there is one. -/
def Marked (c : Context) : Prop := c.named = c.names.any Option.isSome

theorem Marked.push {c : Context} (h : c.Marked) (name : Option Text) : (c.push name).Marked := by
  have hc : c.named = c.names.any Option.isSome := h
  simp [Marked, Context.push, hc]

theorem marked_holding (flags : Flags) (names : List (Option Text)) :
    (holding flags names).Marked := by
  have hstart : (start flags).Marked := rfl
  rw [holding]
  generalize start flags = c at hstart
  induction names generalizing c with
  | nil => exact hstart
  | cons name names ih => exact ih (c.push name) (hstart.push name)

theorem Marked.named_iff {c : Context} (h : c.Marked) :
    c.named = true ↔ ∃ name, some name ∈ c.names := by
  rw [h, List.any_eq_true]
  constructor
  · rintro ⟨entry, hentry, hsome⟩
    obtain ⟨name, rfl⟩ := Option.isSome_iff_exists.1 hsome
    exact ⟨name, hentry⟩
  · rintro ⟨name, hname⟩
    exact ⟨some name, hname, rfl⟩

/-- A property that recording a group and setting flags keep. -/
structure Kept (P : Context → Prop) : Prop where
  push : ∀ c, P c → ∀ name, P (c.push name)
  setFlags : ∀ c, P c → ∀ letters, P (c.setFlags letters).2

theorem kept_marked : Kept Marked where
  push _ h name := h.push name
  setFlags _ h _ := h

theorem kept_grows (c : Context) : Kept c.Grows where
  push d h name := h.trans (.push d name)
  setFlags d h letters := h.trans (.setFlags d letters)

end Context

mutual

/-- A handler that changes the running context by recording groups and setting flags only, whatever
it is told. It never puts another context in its place, nor do the rules that it consults on it. -/
def Script.OnlyAdds : Script → Prop
  | .done _ => True
  | .fail _ => True
  | .inspect next => ∀ context, (next context).OnlyAdds
  | .push _ next => next.OnlyAdds
  | .setFlags _ next => ∀ answer, (next answer).OnlyAdds
  | .replace _ _ _ => False
  | .compile _ next => ∀ answer, (next answer).OnlyAdds
  | .consult _ (some _) _ _ _ next => ∀ answer, (next answer).OnlyAdds
  | .consult rules none _ _ _ next => Rule.AllOnlyAdd rules ∧ ∀ answer, (next answer).OnlyAdds

def Rule.OnlyAdds : Rule → Prop
  | .builtin _ => True
  | .custom _ _ handler _ _ => ∀ token, (handler token).OnlyAdds

def Rule.AllOnlyAdd : List Rule → Prop
  | [] => True
  | r :: rules => r.OnlyAdds ∧ Rule.AllOnlyAdd rules

end

def Registry.OnlyAdds (r : Registry) : Prop := Rule.AllOnlyAdd r.rules

section Kept

variable {P : Context → Prop}

namespace Builtin

theorem kept_openNamed (hP : Context.Kept P) (name : Text) {context : Context} (h : P context) :
    P (openNamed name context).2 := by
  rw [openNamed]
  split
  · exact h
  · exact hP.push context h (some name)

theorem kept_handle (hP : Context.Kept P) (b : Builtin) (token : Token) {context : Context}
    (h : P context) : P (b.handle token context).2 := by
  cases b with
  | namedGroup => exact kept_openNamed hP _ h
  | taggedGroup => exact kept_openNamed hP _ h
  | group =>
    rw [handle]
    split
    · exact h
    · split
      · exact h
      · exact hP.push context h none
  | modifier =>
    have hset := hP.setFlags context h ((token.group 1).getD [])
    rw [handle]
    split
    · exact h
    · rcases hc : context.setFlags ((token.group 1).getD []) with ⟨_ | _, after⟩
      · rwa [hc] at hset
      · rwa [hc] at hset
  | _ => exact h

theorem kept_attempt (hP : Context.Kept P) (b : Builtin) (pattern : Text) (position : Nat)
    (rest : Text) (scope : Scope) {context : Context} (h : P context) :
    P (b.attempt pattern position rest scope context).2 := by
  cases hr : b.recognizeIn rest scope context with
  | none =>
    rw [attempt_of_recognizeIn_none hr]
    exact h
  | some r =>
    have hhandle := kept_handle hP b (Token.ofRecognition pattern position rest scope r) h
    rw [attempt_of_recognizeIn hr]
    rcases hh : b.handle (Token.ofRecognition pattern position rest scope r) context with
      ⟨_ | _, after⟩
    · rwa [hh] at hhandle
    · rwa [hh] at hhandle

end Builtin

mutual

/-- What recording groups and setting flags keep holds after a handler, whether it finishes or fails
half-way and whatever rules it consults, if it only adds to the context or if the property holds of
every context it may put there. -/
theorem Script.kept_run (hP : Context.Kept P) : (script : Script) →
    (script.OnlyAdds ∨ ∀ flags names, P (.holding flags names)) → (context : Context) → P context →
      P (script.run ⟨context, true⟩).2.context
  | .done _, _, context, h => by
    rw [Script.run]
    exact h
  | .fail _, _, context, h => by
    rw [Script.run]
    exact h
  | .inspect next, hadds, context, h => by
    rw [Script.run]
    exact Script.kept_run hP (next context) (hadds.imp_left fun hadds => hadds context) context h
  | .push name next, hadds, context, h => by
    rw [Script.run]
    exact Script.kept_run hP next hadds (context.push name) (hP.push context h name)
  | .setFlags letters next, hadds, context, h => by
    rw [Script.run]
    exact Script.kept_run hP (next (context.setFlags letters).1)
      (hadds.imp_left fun hadds => hadds _) (context.setFlags letters).2
      (hP.setFlags context h letters)
  | .replace flags names next, hadds, _, _ => by
    have hany := hadds.resolve_left id
    rw [Script.run]
    exact Script.kept_run hP next (.inr hany) (.holding flags names) (hany flags names)
  | .compile pattern next, hadds, context, h => by
    rw [Script.run, compileStandalone_inHandler]
    exact Script.kept_run hP (next (.error .reentrantCompile))
      (hadds.imp_left fun hadds => hadds _) context h
  | .consult rules (some inner) pattern position scope next, hadds, context, h => by
    rw [Script.run]
    exact Script.kept_run hP (next _) (hadds.imp_left fun hadds => hadds _) context h
  | .consult rules none pattern position scope next, hadds, context, h => by
    rw [Script.run]
    exact Script.kept_run hP (next _) (hadds.imp_left fun hadds => hadds.2 _) _
      (Rule.kept_consultAll hP rules (hadds.imp_left And.left) pattern position _ scope context h)

theorem Rule.kept_consult (hP : Context.Kept P) : (r : Rule) →
    (r.OnlyAdds ∨ ∀ flags names, P (.holding flags names)) → (pattern : Text) →
      (position : Nat) → (rest : Text) → (scope : Scope) → (context : Context) → P context →
        P (r.consult pattern position rest scope ⟨context, true⟩).2.context
  | .builtin b, _, pattern, position, rest, scope, context, h => by
    rw [Rule.consult_builtin]
    exact Builtin.kept_attempt hP b pattern position rest scope h
  | .custom source recognize handler here activation, hadds, pattern, position, rest, scope,
    context, h => by
    rw [Rule.consult, Rule.runOptional_eq]
    split
    · cases (Check.runOptional activation ⟨context, true⟩).1 with
      | false => exact h
      | true =>
        rcases recognize rest with fault | _ | found
        · exact h
        · exact h
        · have hrun := Script.kept_run hP
            (handler (Token.ofRecognition pattern position rest scope found))
            (hadds.imp_left fun hadds => hadds _) context h
          rcases hh : (handler (Token.ofRecognition pattern position rest scope found)).run
              ⟨context, true⟩ with ⟨_ | _, after⟩
          · simpa only [hh] using hrun
          · simpa only [hh] using hrun
    · exact h

theorem Rule.kept_consultAll (hP : Context.Kept P) : (rules : List Rule) →
    (Rule.AllOnlyAdd rules ∨ ∀ flags names, P (.holding flags names)) → (pattern : Text) →
      (position : Nat) → (rest : Text) → (scope : Scope) → (context : Context) → P context →
        P (Rule.consultAll rules pattern position rest scope ⟨context, true⟩).2.context
  | [], _, _, _, _, _, context, h => by
    rw [Rule.consultAll]
    exact h
  | r :: rules, hadds, pattern, position, rest, scope, context, h => by
    have hfirst :=
      Rule.kept_consult hP r (hadds.imp_left And.left) pattern position rest scope context h
    have hmark := r.inHandler_consult pattern position rest scope context
    rw [Rule.consultAll]
    rcases hr : r.consult pattern position rest scope ⟨context, true⟩ with
      ⟨e | _ | hit, after, mark⟩
    · simpa only [hr] using hfirst
    · rw [hr] at hfirst hmark
      obtain rfl : mark = true := hmark
      exact Rule.kept_consultAll hP rules (hadds.imp_left And.right) pattern position rest
        scope after hfirst
    · simpa only [hr] using hfirst

end

end Kept

namespace Registry

theorem grows_lookup {r : Registry} (hr : r.OnlyAdds) (pattern : Text) (position : Nat)
    (rest : Text) (scope : Scope) (turn : Turn) :
    turn.context.Grows (r.lookup pattern position rest scope turn).2.context :=
  Rule.kept_consultAll (Context.kept_grows turn.context) r.rules (.inl hr) pattern position rest
    scope turn.context (.refl turn.context)

theorem marked_lookup (r : Registry) (pattern : Text) (position : Nat) (rest : Text) (scope : Scope)
    {turn : Turn} (h : turn.context.Marked) :
    (r.lookup pattern position rest scope turn).2.context.Marked :=
  Rule.kept_consultAll Context.kept_marked r.rules (.inr Context.marked_holding) pattern position
    rest scope turn.context h

end Registry

namespace Run

variable {r : Registry} {pattern : Text} {s t : ScanState} {l : List Segment}

/-- Between two rounds of a scan the context only grows. -/
theorem grows (hr : r.OnlyAdds) (run : Run r.lookup pattern s l t) :
    s.turn.context.Grows t.turn.context := by
  induction run with
  | done s => exact .refl s.turn.context
  | @round s t u piece l hstep _ ih =>
    have hfirst := Registry.grows_lookup hr pattern s.position s.rest s.scope s.turn
    rw [← ScanState.turn_of_step hstep] at hfirst
    exact hfirst.trans ih

end Run

inductive Update
  | tryAt (r : Registry) (pattern : Text) (position : Nat) (scope : Scope)
  | push (name : Option Text)
  | setFlags (letters : Text)

namespace Update

def run : Update → Turn → Turn
  | tryAt r pattern position scope, turn => (r.tryAt pattern position scope turn).2
  | push name, turn => { turn with context := turn.context.push name }
  | setFlags letters, turn => { turn with context := (turn.context.setFlags letters).2 }

def runAll (updates : List Update) (turn : Turn) : Turn :=
  updates.foldl (fun turn update => update.run turn) turn

def contextAfter (flags : Flags) (inHandler : Bool) (updates : List Update) : Context :=
  (runAll updates ⟨.start flags, inHandler⟩).context

def OnlyAdds : Update → Prop
  | tryAt r _ _ _ => r.OnlyAdds
  | push _ => True
  | setFlags _ => True

theorem marked_run (update : Update) {turn : Turn} (h : turn.context.Marked) :
    (update.run turn).context.Marked := by
  cases update with
  | tryAt r pattern position scope => exact r.marked_lookup pattern position _ scope h
  | push name => exact h.push name
  | setFlags letters => exact h

theorem grows_run {update : Update} (hu : update.OnlyAdds) (turn : Turn) :
    turn.context.Grows (update.run turn).context := by
  cases update with
  | tryAt r pattern position scope => exact Registry.grows_lookup hu pattern position _ scope turn
  | push name => exact .push turn.context name
  | setFlags letters => exact .setFlags turn.context letters

theorem marked_runAll (updates : List Update) {turn : Turn} (h : turn.context.Marked) :
    (runAll updates turn).context.Marked := by
  induction updates generalizing turn with
  | nil => exact h
  | cons update updates ih => exact ih (update.marked_run h)

theorem grows_runAll {updates : List Update} (hu : ∀ update ∈ updates, update.OnlyAdds)
    (turn : Turn) : turn.context.Grows (runAll updates turn).context := by
  induction updates generalizing turn with
  | nil => exact .refl turn.context
  | cons update updates ih =>
    rw [List.forall_mem_cons] at hu
    exact (grows_run hu.1 turn).trans (ih hu.2 (update.run turn))

theorem grows_contextAfter (flags : Flags) (inHandler : Bool) (updates : List Update)
    {more : List Update} (hmore : ∀ update ∈ more, update.OnlyAdds) :
    (contextAfter flags inHandler updates).Grows
      (contextAfter flags inHandler (updates ++ more)) := by
  rw [contextAfter, contextAfter, runAll, runAll, List.foldl_append]
  exact grows_runAll hmore _

/-- A context only grows where no handler replaces it. After any updates of a new context, rules
that fail half-way, bad flags and handlers that replace the context among them, the mark for named
groups tells whether there is one. After more updates whose handlers only add to the context, the
names so far still come first, the flags so far are still set, and a name that referred to a group
refers to the same one. So it does at all later rounds of one compilation whose rules only add to
the context. -/
theorem contexts_grow (flags : Flags) (inHandler : Bool) (updates more : List Update) :
    ((contextAfter flags inHandler updates).named = true ↔
      ∃ name, some name ∈ (contextAfter flags inHandler updates).names) ∧
    ((∀ update ∈ more, update.OnlyAdds) →
      (contextAfter flags inHandler updates).names <+:
        (contextAfter flags inHandler (updates ++ more)).names ∧
      (∀ flag, (contextAfter flags inHandler updates).hasFlag flag = true →
        (contextAfter flags inHandler (updates ++ more)).hasFlag flag = true) ∧
      ∀ name index, (contextAfter flags inHandler updates).index? name = some index →
        (contextAfter flags inHandler (updates ++ more)).index? name = some index) ∧
    ∀ r : Registry, r.OnlyAdds → ∀ pattern k s l t,
      Run r.lookup pattern (.start pattern ⟨.start flags, false⟩) k s → Run r.lookup pattern s l t →
        ∀ name index, s.turn.context.index? name = some index →
          t.turn.context.index? name = some index := by
  have hmarked : (contextAfter flags inHandler updates).Marked := marked_runAll updates rfl
  refine ⟨hmarked.named_iff, fun hmore => ?_, ?_⟩
  · have hgrows := grows_contextAfter flags inHandler updates hmore
    exact ⟨hgrows.prefix_names, hgrows.flags, fun name index hindex => hgrows.index?_eq hindex⟩
  · exact fun r hr pattern k s l t _ run name index hindex => (run.grows hr).index?_eq hindex

end Update

/-- A rule for `!` that records a group, then sets flags of which the second is none and passes the
error on. -/
def Rule.halfway : Rule :=
  .custom ['!'] (Recognizer.ofChar '!')
    (fun _ => .push (some ['a']) (.setFlags ['x', '-'] fun result =>
      match result with
      | .ok _ => .done []
      | .error e => .fail e))
    .outsideClass none

theorem Rule.onlyAdds_halfway : Rule.halfway.OnlyAdds := by
  intro token answer
  cases answer <;> trivial

theorem Registry.onlyAdds_builtin : Registry.builtin.OnlyAdds := by
  simp [Registry.OnlyAdds, Registry.builtin, Builtin.all, Rule.AllOnlyAdd, Rule.OnlyAdds]

/-- The rule fails with its group recorded and its first flag set; when it fails again, with a
second group of the same name, and more bad flags follow, the name refers to the same group still.
So it does behind the second of two groups in a pattern. -/
theorem Update.contexts_grow_halfway :
    (Registry.tryAt ⟨[.halfway]⟩ ['!'] 0 .outsideClass ⟨.start .empty, false⟩).1 =
      .error (.invalidFlag '-') ∧
    contextAfter .empty false [.tryAt ⟨[.halfway]⟩ ['!'] 0 .outsideClass] =
      ⟨⟨['x'], by decide⟩, [some ['a']], true⟩ ∧
    (∀ update ∈ [Update.push none, .tryAt ⟨[.halfway]⟩ ['!'] 0 .outsideClass, .setFlags ['g', '1']],
      update.OnlyAdds) ∧
    (contextAfter .empty false ([.tryAt ⟨[.halfway]⟩ ['!'] 0 .outsideClass] ++
      [.push none, .tryAt ⟨[.halfway]⟩ ['!'] 0 .outsideClass, .setFlags ['g', '1']])).index? ['a'] =
        some 0 ∧
    (contextAfter .empty false ([.tryAt ⟨[.halfway]⟩ ['!'] 0 .outsideClass] ++
      [.push none, .tryAt ⟨[.halfway]⟩ ['!'] 0 .outsideClass, .setFlags ['g', '1']])).hasFlag 'x' =
        true ∧
    Registry.builtin.OnlyAdds ∧
    ∃ k s l t, Run Registry.builtin.lookup "(?<a>(?<a>".toList
      (.start "(?<a>(?<a>".toList ⟨.start .empty, false⟩) k s ∧
      Run Registry.builtin.lookup "(?<a>(?<a>".toList s l t ∧ s.turn.context.names = [some ['a']] ∧
      t.turn.context.names = [some ['a'], some ['a']] ∧ t.turn.context.index? ['a'] = some 0 := by
  have hadds : ∀ update ∈
      [Update.push none, .tryAt ⟨[.halfway]⟩ ['!'] 0 .outsideClass, .setFlags ['g', '1']],
      update.OnlyAdds := by
    simp only [List.forall_mem_cons]
    exact ⟨trivial, ⟨Rule.onlyAdds_halfway, trivial⟩, trivial, by simp⟩
  obtain ⟨-, hgrown, hruns⟩ := contexts_grow .empty false
    [.tryAt ⟨[.halfway]⟩ ['!'] 0 .outsideClass]
    [.push none, .tryAt ⟨[.halfway]⟩ ['!'] 0 .outsideClass, .setFlags ['g', '1']]
  obtain ⟨-, hflags, hindex⟩ := hgrown hadds
  have hfirst : ScanState.step Registry.builtin.lookup "(?<a>(?<a>".toList
      (.start "(?<a>(?<a>".toList ⟨.start .empty, false⟩) =
        .ok (some (⟨"(?<a>".toList, ['('], true, .outsideClass⟩,
          ⟨5, "(?<a>".toList, .outsideClass, ⟨⟨.empty, [some ['a']], true⟩, false⟩⟩)) := by
    decide +kernel
  have hsecond : ScanState.step Registry.builtin.lookup "(?<a>(?<a>".toList
      ⟨5, "(?<a>".toList, .outsideClass, ⟨⟨.empty, [some ['a']], true⟩, false⟩⟩ =
        .ok (some (⟨"(?<a>".toList, ['('], true, .outsideClass⟩,
          ⟨10, [], .outsideClass, ⟨⟨.empty, [some ['a'], some ['a']], true⟩, false⟩⟩)) := by
    decide +kernel
  exact ⟨rfl, rfl, hadds, hindex ['a'] 0 rfl, hflags 'x' rfl, Registry.onlyAdds_builtin, _, _, _, _,
    .single hfirst, .single hsecond, rfl, rfl,
    hruns Registry.builtin Registry.onlyAdds_builtin _ _ _ _ _ (.single hfirst)
      (.single hsecond) ['a'] 0 rfl⟩

/-- A rule for `!` that starts over with a new context. -/
def Rule.restart : Rule :=
  .custom ['!'] (Recognizer.ofChar '!') (fun _ => .replace .empty [] (.done [])) .outsideClass none

/-- Where a handler replaces the context, names and flags are lost: a name refers to no group any
more, and after the groups that come next to another one, so that two references in one pattern
differ. References that stand in front of the first group of their name refer to none either. -/
theorem Update.contexts_shrink_restart :
    contextAfter .empty false [.push (some ['a']), .setFlags ['x']] =
      ⟨⟨['x'], by decide⟩, [some ['a']], true⟩ ∧
    contextAfter .empty false
      ([.push (some ['a']), .setFlags ['x']] ++ [.tryAt ⟨[.restart]⟩ ['!'] 0 .outsideClass]) =
      .start .empty ∧
    ¬[some ['a']] <+: (Context.start .empty).names ∧
    (Context.hasFlag ⟨⟨['x'], by decide⟩, [some ['a']], true⟩ 'x' = true ∧
      (Context.start .empty).hasFlag 'x' = false) ∧
    (Context.index? ⟨⟨['x'], by decide⟩, [some ['a']], true⟩ ['a'] = some 0 ∧
      (Context.start .empty).index? ['a'] = none) ∧
    (Registry.compile ⟨.restart :: Registry.builtin.rules⟩
      "(?<a>x)\\k<a>!(y)(?<a>z)\\k<a>".toList .empty).map
      Compiled.rewritten = .ok "(x)\\1(y)(z)\\2".toList ∧
    (Registry.builtin.compile "\\k<n>(?<n>a)\\k<n>".toList .empty).map Compiled.rewritten =
      .ok "k<n>(a)\\1".toList := by
  refine ⟨rfl, rfl, by decide, ⟨by decide, by decide⟩, ⟨by decide, by decide⟩, ?_, ?_⟩
  · decide +kernel
  · decide +kernel

end RegexDialect
