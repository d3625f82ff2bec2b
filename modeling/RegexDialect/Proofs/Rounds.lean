import RegexDialect.Proofs.FlagSets
import RegexDialect.Proofs.Recognizers
import RegexDialect.Proofs.Run

/-! What one round of the scan with the built-in rules can do, one case for each kind of piece. -/
namespace RegexDialect

def Context.withModes (context : Context) (letters : Text) : Context :=
  { context with flags := letters.foldl Flags.add context.flags }

namespace Builtin

variable {rest : Text} {scope : Scope} {context : Context}

theorem isModifier_iff {c : Char} : isModifier c = true ↔ c ∈ ['i', 'm', 'n', 's', 'x'] := by
  simp [isModifier, or_assoc]

theorem isAlpha_of_isModifier {c : Char} (h : isModifier c = true) : c.isAlpha = true := by
  have letters : ∀ d ∈ ['i', 'm', 'n', 's', 'x'], d.isAlpha = true :=
    Text.forall_mem_of_all (by decide)
  exact letters c (isModifier_iff.1 h)

theorem forall_mem_modifier {p : Char → Prop} {letters : Text}
    (hl : ∀ c ∈ letters, isModifier c = true)
    (hp : ∀ c ∈ ['(', '?', ')', 'i', 'm', 'n', 's', 'x'], p c) :
      ∀ c ∈ ['(', '?'] ++ letters ++ [')'], p c := by
  intro c hc
  simp only [List.mem_append, List.mem_cons, List.not_mem_nil, or_false] at hc
  rcases hc with ((rfl | rfl) | hc) | rfl
  · exact hp _ (by simp)
  · exact hp _ (by simp)
  · exact hp c (.tail _ (.tail _ (.tail _ (isModifier_iff.1 (hl c hc)))))
  · exact hp _ (by simp)

theorem setFlags_modes {context : Context} {letters : Text}
    (h : ∀ c ∈ letters, isModifier c = true) :
    context.setFlags letters = (.ok (), context.withModes letters) := by
  rw [Context.setFlags, Flags.insertAll_of_isAlpha fun c hc => isAlpha_of_isModifier (h c hc)]
  rfl

/-- A round of the scan with the built-in rules, seen from the text that is left: in a scope and a
context, the piece `source` before `rest` is read and `output` is emitted for it. -/
inductive Reads (position : Nat) (context : Context) :
    Scope → (source rest output : Text) → Scope → Context → Prop
  | dot {rest : Text} (hs : context.hasFlag 's' = true) :
    Reads position context .outsideClass ['.'] rest anyCharacter .outsideClass context
  | spacing {source rest : Text} (hx : context.hasFlag 'x' = true) (hn : source ≠ [])
      (hl : spacingLength false (source ++ rest) = source.length) :
    Reads position context .outsideClass source rest (separator rest) .outsideClass context
  | leadingModifier {letters rest : Text} (hn : letters ≠ [])
    (hl : ∀ c ∈ letters, isModifier c = true)
      (hp : position = 0) :
    Reads position context .outsideClass (['(', '?'] ++ letters ++ [')']) rest [] .outsideClass
      (context.withModes letters)
  | laterModifier {letters rest : Text} (hn : letters ≠ [])
    (hl : ∀ c ∈ letters, isModifier c = true)
      (hp : position ≠ 0) :
    Reads position context .outsideClass (['(', '?'] ++ letters ++ [')']) rest
      (['(', '?'] ++ letters ++ [')']) .outsideClass context
  | noCharacter {rest : Text} :
    Reads position context .outsideClass ['[', ']'] rest noCharacter .outsideClass context
  | anyCharacter {rest : Text} :
    Reads position context .outsideClass ['[', '^', ']'] rest anyCharacter .outsideClass context
  | reference {name rest : Text} (hn : name ≠ []) (hc : ∀ c ∈ name, isNameChar c = true) :
    Reads position context .outsideClass (['\\', 'k', '<'] ++ name ++ ['>']) rest
      (refer name rest context) .outsideClass context
  | named {tag name rest : Text} (ht : tag = ['(', '?', '<'] ∨ tag = ['(', '?', 'P', '<'])
    (hn : name ≠ [])
      (hc : ∀ c ∈ name, isNameChar c = true) (hd : name.all Char.isDigit = false) :
    Reads position context .outsideClass (tag ++ name ++ ['>']) rest ['('] .outsideClass
      (context.push (some name))
  | comment {body rest : Text} (hb : ∀ c ∈ body, c ≠ ')') :
    Reads position context .outsideClass (['(', '?', '#'] ++ body ++ [')']) rest
      (separator rest) .outsideClass context
  | special {rest : Text}
    (h : ∀ b ∈ group.earlier, b.recognizeIn ('(' :: '?' :: rest) .outsideClass context = none) :
    Reads position context .outsideClass ['('] ('?' :: rest) ['('] .outsideClass context
  | uncaptured {rest : Text} (h : rest.head? ≠ some '?') (hf : context.hasFlag 'n' = true) :
    Reads position context .outsideClass ['('] rest ['(', '?', ':'] .outsideClass context
  | group {rest : Text} (h : rest.head? ≠ some '?') (hf : context.hasFlag 'n' = false) :
    Reads position context .outsideClass ['('] rest ['('] .outsideClass (context.push none)
  | sign {source rest : Text} (h : source = ['['] ∨ source = ['&', '&'] ∨ source = ['~', '~']) :
    Reads position context .insideClass source rest (source.flatMap fun c => ['\\', c]) .insideClass
      context
  | unit {scope : Scope} {source rest : Text} (hr : firing? (source ++ rest) scope context = none)
    (hn : source ≠ [])
      (hl : BaselineToken.length scope (source ++ rest) = source.length) :
    Reads position context scope source rest source scope context
  | char {scope : Scope} {c : Char} {rest : Text} (hr : firing? (c :: rest) scope context = none)
      (hl : BaselineToken.length scope (c :: rest) = 0) :
    Reads position context scope [c] rest [c] (scope.after c) context

theorem max_one_length {t : Text} (h : t ≠ []) : max 1 t.length = t.length := by
  have := List.length_pos_iff.2 h
  omega

theorem step_of_token {pattern source rest output : Text} {position : Nat} {scope : Scope}
    {turn : Turn} {b : Builtin}
    {r : Recognition} {c : Context} (hn : source ≠ []) (hr : r.length = source.length)
    (h : firing? (source ++ rest) scope turn.context = some (b, r))
    (hh : b.handle (Token.ofRecognition pattern position (source ++ rest) scope r) turn.context =
      (.ok output, c)) :
    (ScanState.mk position (source ++ rest) scope turn).step lookup pattern =
      .ok (some (⟨source, output, true, scope⟩,
        ⟨position + Text.bytes source, rest, scope, { turn with context := c }⟩)) := by
  have htake : (source ++ rest).take r.length = source := by rw [hr]; exact List.take_left
  have hl := lookup_of_firing h hh
  rw [htake] at hl
  rw [ScanState.step_of_hit (by simpa using fun e => absurd e hn) hl]
  simp [max_one_length hn, ScanState.advance]

theorem eq_of_step_of_token (source : Text) {pattern output : Text} {position : Nat} {turn : Turn}
    {b : Builtin}
    {r : Recognition} {c : Context} {piece : Segment} {s : ScanState} (hn : source ≠ [])
    (hr : r.length = source.length) (h : firing? (source ++ rest) scope turn.context = some (b, r))
    (hh : b.handle (Token.ofRecognition pattern position (source ++ rest) scope r) turn.context =
      (.ok output, c))
    (hs : (ScanState.mk position (source ++ rest) scope turn).step lookup pattern =
      .ok (some (piece, s))) :
    piece = ⟨source, output, true, scope⟩ ∧
      s = ⟨position + Text.bytes source, rest, scope, { turn with context := c }⟩ := by
  rw [step_of_token hn hr h hh] at hs
  simp only [Except.ok.injEq, Option.some.injEq, Prod.mk.injEq] at hs
  exact ⟨hs.1.symm, hs.2.symm⟩

theorem group_runToken (pattern rest opening name : Text) (position : Nat) (scope : Scope)
    (closing : Char) :
    ((Token.ofRecognition pattern position rest scope (runToken opening name closing)).group 1).getD
      [] = name := rfl

theorem ofRecognition_append (pattern source after : Text) (position : Nat) (scope : Scope)
    (r : Recognition) (h : r.length = source.length) :
    Token.ofRecognition pattern position (source ++ after) scope r =
      ⟨pattern, position, source, after, r.groups, scope⟩ := by
  simp [Token.ofRecognition, h]

theorem handle_modifier (pattern after : Text) (position : Nat) (context : Context) {letters : Text}
    (hl : ∀ c ∈ letters, isModifier c = true) :
    modifier.handle
      (Token.ofRecognition pattern position (['(', '?'] ++ letters ++ [')'] ++ after) .outsideClass
        (runToken ['(', '?'] letters ')')) context =
      if position = 0 then (.ok [], context.withModes letters)
      else (.ok (['(', '?'] ++ letters ++ [')']), context) := by
  rw [ofRecognition_append _ _ _ _ _ _ rfl]
  by_cases hp : position = 0
  · simp [handle, hp, Token.group, runToken, setFlags_modes hl]
  · simp [handle, hp, Nat.pos_of_ne_zero hp]

theorem handle_group (pattern after : Text) (position : Nat) (context : Context) :
    group.handle
      (Token.ofRecognition pattern position ('(' :: after) .outsideClass (plain ('(' :: after) 1))
        context =
      if after.head? == some '?' then (.ok ['('], context)
      else if context.hasFlag 'n' then (.ok ['(', '?', ':'], context)
      else (.ok ['('], context.push none) := rfl

/-- A named opener whose name is made of digits stops the scan; any other records its name. -/
theorem named_of_step {pattern tag name after : Text} {position : Nat} {turn : Turn} {b : Builtin}
    {piece : Segment} {s : ScanState} (hb : b = namedGroup ∨ b = taggedGroup)
    (hf : firing? (tag ++ name ++ ['>'] ++ after) scope turn.context =
      some (b, runToken tag name '>'))
    (h : (ScanState.mk position (tag ++ name ++ ['>'] ++ after) scope turn).step lookup pattern =
      .ok (some (piece, s))) :
    name.all Char.isDigit = false ∧ piece = ⟨tag ++ name ++ ['>'], ['('], true, scope⟩ ∧
      s = ⟨position + Text.bytes (tag ++ name ++ ['>']), after, scope,
        { turn with context := turn.context.push (some name) }⟩ := by
  have hh : b.handle (Token.ofRecognition pattern position (tag ++ name ++ ['>'] ++ after) scope
      (runToken tag name '>')) turn.context = openNamed name turn.context := by
    rcases hb with rfl | rfl <;> rfl
  cases hd : name.all Char.isDigit with
  | true =>
    rw [openNamed, if_pos hd] at hh
    rw [ScanState.step_of_error (by simp) (lookup_of_firing_error hf hh)] at h
    exact absurd h (by simp)
  | false =>
    rw [openNamed, if_neg (by simp [hd])] at hh
    exact ⟨rfl, eq_of_step_of_token _ (by simp) rfl hf hh h⟩

theorem refer_shapes (name rest : Text) (context : Context) :
    (∃ (d : Char) (ds a : Text), refer name rest context = '\\' :: d :: ds ++ a ∧
      (∀ e ∈ d :: ds, e.isDigit = true) ∧ (a = [] ∨ a = emptyGroup)) ∨
    refer name rest context = ['k', '<'] ++ name ++ ['>'] := by
  cases hi : context.index? name with
  | none => exact .inr (by simp [refer, hi])
  | some index =>
    obtain ⟨d, ds, hd⟩ :=
      List.exists_cons_of_ne_nil (Nat.toDigits_ne_nil (n := index + 1) (b := 10))
    refine .inl ⟨d, ds, if (rest.head?.map Char.isDigit).getD false then emptyGroup else [], ?_,
      fun e he => ?_, ?_⟩
    · simp [refer, hi, Text.ofNat, hd]
    · exact Nat.isDigit_of_mem_toDigits (by decide) (by decide) (hd ▸ he)
    · split
      · exact .inr rfl
      · exact .inl rfl

section Reading

variable {pattern : Text} {position : Nat} {turn : Turn} {piece : Segment} {t : ScanState}

theorem reads_of_not_firing (hf : firing? rest scope turn.context = none)
    (h : (ScanState.mk position rest scope turn).step lookup pattern = .ok (some (piece, t))) :
    Reads position turn.context scope piece.source t.rest piece.output t.scope t.turn.context ∧
      t.turn.inHandler = turn.inHandler := by
  obtain ⟨c, r, rfl⟩ :=
    List.exists_cons_of_ne_nil (l := rest) (by rintro rfl; simp [ScanState.step] at h)
  by_cases hn : BaselineToken.length scope (c :: r) = 0
  · rw [ScanState.step_of_char rfl hn (lookup_of_not_firing hf)] at h
    simp only [Except.ok.injEq, Option.some.injEq, Prod.mk.injEq] at h
    obtain ⟨rfl, rfl⟩ := h
    simpa [ScanState.advance, Segment.verbatim] using Reads.char hf hn
  · rw [ScanState.step_of_unit hn (by simp) (lookup_of_not_firing hf)] at h
    simp only [Except.ok.injEq, Option.some.injEq, Prod.mk.injEq] at h
    obtain ⟨rfl, rfl⟩ := h
    refine ⟨.unit (by simpa [ScanState.advance, Segment.verbatim] using hf) ?_ ?_, rfl⟩
    · simpa [Segment.verbatim] using hn
    · have hle := BaselineToken.length_le scope (c :: r)
      simp only [Segment.verbatim, ScanState.advance, List.take_append_drop, List.length_take]
      omega

theorem reads_of_firing_inside {b : Builtin} {r : Recognition}
    (hf : firing? rest .insideClass turn.context = some (b, r))
    (h : (ScanState.mk position rest .insideClass turn).step lookup pattern =
      .ok (some (piece, t))) :
    Reads position turn.context .insideClass piece.source t.rest piece.output t.scope
      t.turn.context ∧ t.turn.inHandler = turn.inHandler := by
  obtain ⟨rfl, hr⟩ := recognizeIn_inside.1 (firing?_eq_some_iff.1 hf).1
  obtain ⟨source, after, rfl, hsource, rfl⟩ := recognize_eq_some hr
  have hn : source ≠ [] := by rcases hsource with rfl | rfl | rfl <;> simp
  obtain ⟨rfl, rfl⟩ := eq_of_step_of_token _ hn rfl hf rfl h
  rw [ofRecognition_append _ _ _ _ _ _ rfl]
  exact ⟨.sign hsource, rfl⟩

/-- What the rule of the plain groups does depends on what follows the parenthesis, and on the flag
that turns capturing off. -/
theorem reads_of_firing_group {after : Text}
    (hf : firing? ('(' :: after) .outsideClass turn.context = some (group, plain ('(' :: after) 1))
    (h : (ScanState.mk position ('(' :: after) .outsideClass turn).step lookup pattern =
      .ok (some (piece, t))) :
    Reads position turn.context .outsideClass piece.source t.rest piece.output t.scope
      t.turn.context ∧ t.turn.inHandler = turn.inHandler := by
  have hh := handle_group pattern after position turn.context
  by_cases hq : after.head? = some '?'
  · obtain ⟨after, rfl⟩ : ∃ u, after = '?' :: u := by
      cases after with
      | nil => simp at hq
      | cons d u => exact ⟨u, by simpa using hq⟩
    rw [if_pos (by simp)] at hh
    obtain ⟨rfl, rfl⟩ := eq_of_step_of_token ['('] (by simp) rfl hf hh h
    exact ⟨.special (firing?_eq_some_iff.1 hf).2, rfl⟩
  · rw [if_neg (by simpa using hq)] at hh
    cases hn : turn.context.hasFlag 'n' with
    | true =>
      rw [if_pos hn] at hh
      obtain ⟨rfl, rfl⟩ := eq_of_step_of_token ['('] (by simp) rfl hf hh h
      exact ⟨.uncaptured hq hn, rfl⟩
    | false =>
      rw [if_neg (by simp [hn])] at hh
      obtain ⟨rfl, rfl⟩ := eq_of_step_of_token ['('] (by simp) rfl hf hh h
      exact ⟨.group hq hn, rfl⟩

theorem reads_of_firing_outside {b : Builtin} {r : Recognition}
    (hf : firing? rest .outsideClass turn.context = some (b, r))
    (h : (ScanState.mk position rest .outsideClass turn).step lookup pattern =
      .ok (some (piece, t))) :
    Reads position turn.context .outsideClass piece.source t.rest piece.output t.scope
      t.turn.context ∧ t.turn.inHandler = turn.inHandler := by
  obtain ⟨hb, hf', hr⟩ := recognizeIn_outside.1 (firing?_eq_some_iff.1 hf).1
  cases b with
  | classSign => exact absurd rfl hb
  | dot =>
    obtain ⟨after, rfl, rfl⟩ := recognize_eq_some hr
    obtain ⟨rfl, rfl⟩ := eq_of_step_of_token ['.'] (by simp) rfl hf rfl h
    exact ⟨.dot (by simpa [awaits] using hf'), rfl⟩
  | spacing =>
    obtain ⟨source, after, rfl, hn, hl, rfl⟩ := recognize_eq_some hr
    obtain ⟨rfl, rfl⟩ := eq_of_step_of_token _ hn rfl hf rfl h
    rw [ofRecognition_append _ _ _ _ _ _ rfl]
    exact ⟨.spacing (by simpa [awaits] using hf') hn hl, rfl⟩
  | modifier =>
    obtain ⟨letters, after, rfl, hn, hl, rfl⟩ := recognize_eq_some hr
    have hh := handle_modifier pattern after position turn.context hl
    by_cases hp : position = 0
    · rw [if_pos hp] at hh
      obtain ⟨rfl, rfl⟩ :=
        eq_of_step_of_token (['(', '?'] ++ letters ++ [')']) (by simp) rfl hf hh h
      exact ⟨.leadingModifier hn hl hp, rfl⟩
    · rw [if_neg hp] at hh
      obtain ⟨rfl, rfl⟩ :=
        eq_of_step_of_token (['(', '?'] ++ letters ++ [')']) (by simp) rfl hf hh h
      exact ⟨.laterModifier hn hl hp, rfl⟩
  | emptyClass =>
    obtain ⟨after, ⟨rfl, rfl⟩ | ⟨rfl, rfl⟩⟩ := recognize_eq_some hr
    · obtain ⟨rfl, rfl⟩ := eq_of_step_of_token ['[', ']'] (by simp) rfl hf rfl h
      exact ⟨.noCharacter, rfl⟩
    · obtain ⟨rfl, rfl⟩ := eq_of_step_of_token ['[', '^', ']'] (by simp) rfl hf rfl h
      exact ⟨.anyCharacter, rfl⟩
  | reference =>
    obtain ⟨name, after, rfl, hn, hc, rfl⟩ := recognize_eq_some hr
    obtain ⟨rfl, rfl⟩ :=
      eq_of_step_of_token (['\\', 'k', '<'] ++ name ++ ['>']) (by simp) rfl hf rfl h
    rw [ofRecognition_append _ _ _ _ _ _ rfl]
    exact ⟨.reference hn hc, rfl⟩
  | taggedGroup =>
    obtain ⟨name, after, rfl, hn, hc, rfl⟩ := recognize_eq_some hr
    obtain ⟨hd, rfl, rfl⟩ := named_of_step (.inr rfl) hf h
    exact ⟨.named (.inr rfl) hn hc hd, rfl⟩
  | namedGroup =>
    obtain ⟨name, after, rfl, hn, hc, rfl⟩ := recognize_eq_some hr
    obtain ⟨hd, rfl, rfl⟩ := named_of_step (.inl rfl) hf h
    exact ⟨.named (.inl rfl) hn hc hd, rfl⟩
  | comment =>
    obtain ⟨body, after, rfl, hc, rfl⟩ := recognize_eq_some hr
    obtain ⟨rfl, rfl⟩ :=
      eq_of_step_of_token (['(', '?', '#'] ++ body ++ [')']) (by simp) (by simp [plain]) hf rfl h
    rw [ofRecognition_append _ _ _ _ _ _ (by simp [plain])]
    exact ⟨.comment hc, rfl⟩
  | group =>
    obtain ⟨after, rfl, rfl⟩ := recognize_eq_some hr
    exact reads_of_firing_group hf h

/-- What a round with the built-in rules reads and emits, and what it does to the context. -/
theorem reads_of_step {s : ScanState} (hs : s.scope = .insideClass ∨ s.scope = .outsideClass)
    (h : s.step lookup pattern = .ok (some (piece, t))) :
    Reads s.position s.turn.context s.scope piece.source t.rest piece.output t.scope
      t.turn.context ∧ t.turn.inHandler = s.turn.inHandler := by
  obtain ⟨position, rest, scope, turn⟩ := s
  cases hf : firing? rest scope turn.context with
  | none => exact reads_of_not_firing hf h
  | some p =>
    obtain ⟨b, r⟩ := p
    simp only at hs
    rcases hs with rfl | rfl
    · exact reads_of_firing_inside hf h
    · exact reads_of_firing_outside hf h

end Reading

/-- The round that reads what can be read: the converse of `reads_of_step`. -/
theorem step_of_reads {pattern source output : Text} {position : Nat} {turn : Turn} {after : Scope}
    {c : Context} (h : Reads position turn.context scope source rest output after c) :
    ∃ byRule, (ScanState.mk position (source ++ rest) scope turn).step lookup pattern =
      .ok (some (⟨source, output, byRule, scope⟩,
        ⟨position + Text.bytes source, rest, after, { turn with context := c }⟩)) := by
  cases h with
  | dot hs =>
    have hf : firing? ('.' :: rest) .outsideClass turn.context =
        some (dot, plain ('.' :: rest) 1) :=
      firing?_outside dot (by decide) (by simpa [awaits] using hs) rfl (by simp [earlier_eq])
    exact ⟨true, step_of_token (by simp) rfl hf rfl⟩
  | spacing hx hn hl =>
    refine ⟨true, step_of_token hn rfl (firing?_spacing hx hn hl) ?_⟩
    rw [ofRecognition_append _ _ _ _ _ _ rfl]
    rfl
  | leadingModifier hn hl hp =>
    refine ⟨true, step_of_token (by simp) rfl (firing?_modifier hn hl) ?_⟩
    rw [handle_modifier _ _ _ _ hl, if_pos hp]
  | laterModifier hn hl hp =>
    refine ⟨true, step_of_token (by simp) rfl (firing?_modifier hn hl) ?_⟩
    rw [handle_modifier _ _ _ _ hl, if_neg hp]
  | noCharacter => exact ⟨true, step_of_token (by simp) rfl (firing?_emptyClass (.inl rfl)) rfl⟩
  | anyCharacter => exact ⟨true, step_of_token (by simp) rfl (firing?_emptyClass (.inr rfl)) rfl⟩
  | reference hn hc =>
    refine ⟨true, step_of_token (by simp) rfl (firing?_reference hn hc) ?_⟩
    rw [ofRecognition_append _ _ _ _ _ _ rfl]
    rfl
  | named ht hn hc hd =>
    rcases ht with rfl | rfl
    · refine ⟨true, step_of_token (by simp) rfl (firing?_named hn hc) ?_⟩
      simp only [handle, group_runToken, openNamed, hd]
      rfl
    · refine ⟨true, step_of_token (by simp) rfl (firing?_tagged hn hc) ?_⟩
      simp only [handle, group_runToken, openNamed, hd]
      rfl
  | @comment body _ hb =>
    have hl : (plain (['(', '?', '#'] ++ body ++ [')'] ++ rest) (body.length + 4)).length =
        (['(', '?', '#'] ++ body ++ [')']).length := by simp [plain]
    refine ⟨true, step_of_token (by simp) hl (firing?_comment hb) ?_⟩
    rw [ofRecognition_append _ _ _ _ _ _ hl]
    rfl
  | @special rest he =>
    have hf : firing? ('(' :: '?' :: rest) .outsideClass turn.context =
        some (group, plain ('(' :: '?' :: rest) 1) :=
      firing?_eq_some_iff.2 ⟨recognizeIn_outside.2 ⟨by decide, rfl, rfl⟩, he⟩
    exact ⟨true, step_of_token (by simp) rfl hf rfl⟩
  | uncaptured hr hf =>
    have hh := handle_group pattern rest position turn.context
    rw [if_neg (by simpa using hr), if_pos hf] at hh
    exact ⟨true, step_of_token (by simp) rfl (firing?_group hr) hh⟩
  | group hr hf =>
    have hh := handle_group pattern rest position turn.context
    rw [if_neg (by simpa using hr), if_neg (by simp [hf])] at hh
    exact ⟨true, step_of_token (by simp) rfl (firing?_group hr) hh⟩
  | sign hs =>
    have hf : firing? (source ++ rest) .insideClass turn.context =
        some (classSign, plain (source ++ rest) source.length) := by
      refine firing?_eq_some_iff.2 ⟨recognizeIn_inside.2 ⟨rfl, ?_⟩, by simp [earlier_eq]⟩
      rcases hs with rfl | rfl | rfl <;> rfl
    refine ⟨true, step_of_token ?_ rfl hf ?_⟩
    · rcases hs with rfl | rfl | rfl <;> simp
    · rw [ofRecognition_append _ _ _ _ _ _ rfl]
      rfl
  | unit hr hn hl =>
    refine ⟨false, ?_⟩
    rw [ScanState.step_of_unit (by simpa [hl] using hn) (by simp [hn]) (lookup_of_not_firing hr)]
    simp [Segment.verbatim, ScanState.advance, hl]
  | char hr hl =>
    refine ⟨false, ?_⟩
    rw [List.singleton_append, ScanState.step_of_char rfl hl (lookup_of_not_firing hr)]
    simp [Segment.verbatim, ScanState.advance]

theorem Reads.scope_after {position : Nat} {source output : Text} {after : Scope} {c : Context}
    (h : Reads position context scope source rest output after c)
    (hs : scope = .insideClass ∨ scope = .outsideClass) : after = .insideClass ∨
      after = .outsideClass := by
  cases h with
  | unit => exact hs
  | char =>
    simp only [Scope.after]
    split
    · exact .inl rfl
    · split
      · exact .inr rfl
      · exact hs
  | _ => simp

end Builtin

theorem Run.scope_and_mark {pattern : Text} {s t : ScanState} {l : List Segment}
    (run : Run Builtin.lookup pattern s l t)
    (hs : s.scope = .insideClass ∨ s.scope = .outsideClass) :
    (t.scope = .insideClass ∨ t.scope = .outsideClass) ∧ t.turn.inHandler = s.turn.inHandler := by
  induction run with
  | done => exact ⟨hs, rfl⟩
  | round h _ ih =>
    obtain ⟨hreads, hmark⟩ := Builtin.reads_of_step hs h
    obtain ⟨hscope, hmark'⟩ := ih (hreads.scope_after hs)
    exact ⟨hscope, hmark'.trans hmark⟩

def Scans (pattern : Text) (s : ScanState) (output : Text) (t : ScanState) : Prop :=
  ∃ l, Run Builtin.lookup pattern s l t ∧ Segment.emitted l = output

namespace Scans

variable {pattern source rest output last : Text} {s t u : ScanState}

theorem nothing (pattern : Text) (s : ScanState) : Scans pattern s [] s := ⟨[], .done s, rfl⟩

theorem append (first : Scans pattern s output t) (second : Scans pattern t last u) :
    Scans pattern s (output ++ last) u := by
  obtain ⟨k, hk, rfl⟩ := first
  obtain ⟨l, hl, rfl⟩ := second
  exact ⟨k ++ l, hk.append hl, by simp [Segment.emitted]⟩

theorem of_reads {position : Nat} {scope after : Scope} {turn : Turn} {c : Context}
    (h : Builtin.Reads position turn.context scope source rest output after c) :
    Scans pattern ⟨position, source ++ rest, scope, turn⟩ output
      ⟨position + Text.bytes source, rest, after, { turn with context := c }⟩ := by
  obtain ⟨byRule, hs⟩ :=
    @Builtin.step_of_reads rest scope pattern source output position turn after c h
  exact ⟨_, .single hs, by simp [Segment.emitted]⟩

end Scans

theorem Registry.compile_of_scans {pattern output : Text} {flags : Flags} {t : ScanState}
    (h : Scans pattern (.start pattern ⟨.start flags, false⟩) output t) (ht : t.rest = []) :
    Registry.builtin.compile pattern flags = .ok ⟨output, t.turn.context⟩ := by
  obtain ⟨l, run, rfl⟩ := h
  have hs : scan Builtin.lookup pattern ⟨.start flags, false⟩ = (.ok l, t.turn) :=
    scan_eq_ok_iff.2 ⟨t, run, ht, rfl⟩
  rw [compile_builtin, hs]

theorem Registry.exists_run_of_compile {pattern : Text} {flags : Flags} {c : Compiled}
    (h : Registry.builtin.compile pattern flags = .ok c) :
    ∃ l t, Run Builtin.lookup pattern (.start pattern ⟨.start flags, false⟩) l t ∧ t.rest = [] ∧
      c = ⟨Segment.emitted l, t.turn.context⟩ := by
  rw [compile_builtin] at h
  rcases hscan : scan Builtin.lookup pattern ⟨.start flags, false⟩ with ⟨e | l, turn⟩
  · simp [hscan] at h
  · simp only [hscan, Except.ok.injEq] at h
    subst h
    rw [← ScanState.scan_start] at hscan
    obtain ⟨t, run, ht, rfl⟩ := scan_eq_ok_iff.1 hscan
    exact ⟨l, t, run, ht, rfl⟩

end RegexDialect
