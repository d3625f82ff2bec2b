import RegexDialect.Scan

/-! The scan as a run of rounds. One round reads a piece at the start of the text that is left; a
scan succeeds with the pieces of a run that leaves nothing, and fails with the error of the round
that a run cannot make. -/
namespace RegexDialect

/-- Where a scan stands: its byte offset, the text that is left, the scope and the turn. -/
structure ScanState where
  position : Nat
  rest : Text
  scope : Scope
  turn : Turn
deriving DecidableEq

namespace ScanState

def start (pattern : Text) (turn : Turn) : ScanState := ⟨0, pattern, .outsideClass, turn⟩

def advance (s : ScanState) (n : Nat) (scope : Scope) (turn : Turn) : ScanState :=
  ⟨s.position + Text.bytes (s.rest.take n), s.rest.drop n, scope, turn⟩

/-- One round: nothing when no text is left, else the piece read and the state after it. -/
def step (lookup : Lookup) (pattern : Text) (s : ScanState) :
    Except (Error × Turn) (Option (Segment × ScanState)) :=
  match s.rest with
  | [] => .ok none
  | c :: _ =>
    match lookup pattern s.position s.rest s.scope s.turn with
    | (.error e, turn) => .error (e, turn)
    | (.ok (some hit), turn) =>
      let n := max 1 hit.token.length
      .ok (some (⟨s.rest.take n, hit.output, true, s.scope⟩, s.advance n s.scope turn))
    | (.ok none, turn) =>
      let n := BaselineToken.length s.scope s.rest
      if n = 0 then .ok (some (.verbatim [c] s.scope, s.advance 1 (s.scope.after c) turn))
      else .ok (some (.verbatim (s.rest.take n) s.scope, s.advance n s.scope turn))

variable {lookup : Lookup} {pattern : Text} {s : ScanState} {turn : Turn}

theorem step_of_hit {hit : Hit} (hn : s.rest ≠ [])
    (h : lookup pattern s.position s.rest s.scope s.turn = (.ok (some hit), turn)) :
    s.step lookup pattern =
      .ok (some (⟨s.rest.take (max 1 hit.token.length), hit.output, true, s.scope⟩,
        s.advance (max 1 hit.token.length) s.scope turn)) := by
  obtain ⟨position, rest, scope, before⟩ := s
  obtain ⟨c, r, rfl⟩ := List.exists_cons_of_ne_nil hn
  simp only [ScanState.step, h]

theorem step_of_error {e : Error} (hn : s.rest ≠ [])
    (h : lookup pattern s.position s.rest s.scope s.turn = (.error e, turn)) :
    s.step lookup pattern = .error (e, turn) := by
  obtain ⟨position, rest, scope, before⟩ := s
  obtain ⟨c, r, rfl⟩ := List.exists_cons_of_ne_nil hn
  simp only [ScanState.step, h]

theorem step_of_unit (hn : BaselineToken.length s.scope s.rest ≠ 0) (hr : s.rest ≠ [])
    (h : lookup pattern s.position s.rest s.scope s.turn = (.ok none, turn)) :
    s.step lookup pattern =
      .ok (some (.verbatim (s.rest.take (BaselineToken.length s.scope s.rest)) s.scope,
          s.advance (BaselineToken.length s.scope s.rest) s.scope turn)) := by
  obtain ⟨position, rest, scope, before⟩ := s
  obtain ⟨c, r, rfl⟩ := List.exists_cons_of_ne_nil hr
  simp only at hn
  simp only [ScanState.step, h, hn, if_false]

theorem step_of_char {c : Char} {r : Text} (hr : s.rest = c :: r)
    (hn : BaselineToken.length s.scope s.rest = 0)
    (h : lookup pattern s.position s.rest s.scope s.turn = (.ok none, turn)) :
    s.step lookup pattern =
      .ok (some (.verbatim [c] s.scope, s.advance 1 (s.scope.after c) turn)) := by
  obtain ⟨position, rest, scope, before⟩ := s
  simp only at hr
  subst hr
  simp only at hn
  simp only [ScanState.step, h, hn, if_true]

theorem step_ne_none (h : s.rest ≠ []) : s.step lookup pattern ≠ .ok none := by
  obtain ⟨position, rest, scope, turn⟩ := s
  obtain ⟨c, r, rfl⟩ := List.exists_cons_of_ne_nil h
  simp only [step]
  split
  · simp
  · simp
  · split <;> simp

end ScanState

open ScanState

/-- Rounds one after the other, with the pieces they read. -/
inductive Run (lookup : Lookup) (pattern : Text) : ScanState → List Segment → ScanState → Prop
  | done (s : ScanState) : Run lookup pattern s [] s
  | round {s t u : ScanState} {piece : Segment} {l : List Segment} :
      s.step lookup pattern = .ok (some (piece, t)) → Run lookup pattern t l u →
      Run lookup pattern s (piece :: l) u

namespace Run

variable {lookup : Lookup} {pattern : Text} {s t u : ScanState} {k l : List Segment}

theorem append (first : Run lookup pattern s k t) (last : Run lookup pattern t l u) :
    Run lookup pattern s (k ++ l) u := by
  induction first with
  | done => exact last
  | round h _ ih => exact .round h (ih last)

theorem single {piece : Segment} (h : s.step lookup pattern = .ok (some (piece, t))) :
    Run lookup pattern s [piece] t := .round h (.done t)

end Run

/-- A round takes at least one character, and what it reads and what it leaves make up the text that
was left. -/
theorem rest_of_step {lookup : Lookup} {pattern : Text} {s t : ScanState} {piece : Segment}
    (h : s.step lookup pattern = .ok (some (piece, t))) :
    piece.source ++ t.rest = s.rest ∧ piece.source ≠ [] ∧
      t.position = s.position + Text.bytes piece.source ∧ piece.scope = s.scope := by
  obtain ⟨position, rest, scope, turn⟩ := s
  cases rest with
  | nil => simp [step] at h
  | cons c r =>
    simp only [step] at h
    split at h
    · simp at h
    · next hit after _ =>
      simp only [Except.ok.injEq, Option.some.injEq, Prod.mk.injEq] at h
      obtain ⟨rfl, rfl⟩ := h
      have hn : max 1 hit.token.length ≠ 0 := by omega
      simp [advance, hn]
    · split at h
      · simp only [Except.ok.injEq, Option.some.injEq, Prod.mk.injEq] at h
        obtain ⟨rfl, rfl⟩ := h
        simp [advance, Segment.verbatim]
      · next hn =>
        simp only [Except.ok.injEq, Option.some.injEq, Prod.mk.injEq] at h
        obtain ⟨rfl, rfl⟩ := h
        simp [advance, Segment.verbatim, hn]

theorem ScanState.turn_of_step {lookup : Lookup} {pattern : Text} {s t : ScanState}
    {piece : Segment} (h : s.step lookup pattern = .ok (some (piece, t))) :
    t.turn = (lookup pattern s.position s.rest s.scope s.turn).2 := by
  rw [step] at h
  split at h
  · simp at h
  · split at h
    · simp at h
    · next hlookup =>
      simp only [Except.ok.injEq, Option.some.injEq, Prod.mk.injEq] at h
      rw [← h.2, hlookup]
      rfl
    · next hlookup =>
      dsimp only at h
      split at h
      all_goals
        simp only [Except.ok.injEq, Option.some.injEq, Prod.mk.injEq] at h
        rw [← h.2, hlookup]
        rfl

theorem scanFrom_succ (lookup : Lookup) (pattern : Text) (rounds : Nat) (s : ScanState)
    (done : List Segment) :
    scanFrom lookup pattern (rounds + 1) s.position s.rest s.scope s.turn done =
      match s.step lookup pattern with
      | .error (e, turn) => (.error e, turn)
      | .ok none => (.ok done.reverse, s.turn)
      | .ok (some (piece, t)) =>
        scanFrom lookup pattern rounds t.position t.rest t.scope t.turn (piece :: done) := by
  obtain ⟨position, rest, scope, turn⟩ := s
  cases rest with
  | nil => rfl
  | cons c r =>
    simp only [step, scanFrom]
    rcases lookup pattern position (c :: r) scope turn with ⟨_ | _ | hit, after⟩
    · rfl
    · by_cases hn : BaselineToken.length scope (c :: r) = 0
      · simp [hn, advance]
      · simp [hn, advance]
    · rfl

theorem Run.sources {lookup : Lookup} {pattern : Text} {s t : ScanState} {l : List Segment}
    (run : Run lookup pattern s l t) : l.flatMap Segment.source ++ t.rest = s.rest := by
  induction run with
  | done => rfl
  | round h _ ih =>
    rw [List.flatMap_cons, List.append_assoc, ih]
    exact (rest_of_step h).1

theorem length_of_step {lookup : Lookup} {pattern : Text} {s t : ScanState} {piece : Segment}
    (h : s.step lookup pattern = .ok (some (piece, t))) :
    t.rest.length < s.rest.length := by
  have hp := rest_of_step h
  have h₁ := congrArg List.length hp.1
  have h₂ := List.length_pos_iff.2 hp.2.1
  simp only [List.length_append] at h₁
  omega

section Scan

variable {lookup : Lookup} {pattern : Text} {s t : ScanState} {turn : Turn} {piece : Segment}

/-- Neither spare rounds nor the pieces found before change what a scan finds. -/
theorem scanFrom_eq {n : Nat} (hn : s.rest.length ≤ n) {rounds : Nat} (hr : s.rest.length ≤ rounds)
    (done : List Segment) :
    scanFrom lookup pattern rounds s.position s.rest s.scope s.turn done =
      ((scanFrom lookup pattern s.rest.length s.position s.rest s.scope s.turn []).1.map
        (done.reverse ++ ·),
        (scanFrom lookup pattern s.rest.length s.position s.rest s.scope s.turn []).2) := by
  induction n generalizing s rounds done with
  | zero =>
    obtain ⟨position, rest, scope, before⟩ := s
    obtain rfl : rest = [] := List.length_eq_zero_iff.1 (Nat.le_zero.1 hn)
    simp [scanFrom, Except.map]
  | succ n ih =>
    cases hrest : s.rest with
    | nil => simp [scanFrom, Except.map]
    | cons c r =>
      have hne : s.rest ≠ [] := by simp [hrest]
      obtain ⟨k, rfl⟩ : ∃ k, rounds = k + 1 := ⟨rounds - 1, by simp [hrest] at hr; omega⟩
      have hlen : s.rest.length = r.length + 1 := by simp [hrest]
      rw [← hrest, hlen, scanFrom_succ, scanFrom_succ]
      cases hs : s.step lookup pattern with
      | error e => rfl
      | ok o =>
        cases o with
        | none => exact absurd hs (step_ne_none hne)
        | some p =>
          obtain ⟨piece, t⟩ := p
          have ht := length_of_step hs
          simp only
          rw [ih (by omega) (by omega), ih (by omega) (show t.rest.length ≤ r.length by omega)]
          rcases scanFrom lookup pattern t.rest.length t.position t.rest t.scope t.turn [] with
            ⟨_ | l, after⟩
          · rfl
          · simp [Except.map]

namespace ScanState

def scan (lookup : Lookup) (pattern : Text) (s : ScanState) : Except Error (List Segment) × Turn :=
  scanFrom lookup pattern s.rest.length s.position s.rest s.scope s.turn []

theorem scan_start :
    (start pattern turn).scan lookup pattern = RegexDialect.scan lookup pattern turn := rfl

theorem scan_nil (h : s.rest = []) : s.scan lookup pattern = (.ok [], s.turn) := by
  simp [scan, h, scanFrom]

theorem scan_of_step (h : s.step lookup pattern = .ok (some (piece, t))) :
    s.scan lookup pattern =
      ((t.scan lookup pattern).1.map (piece :: ·), (t.scan lookup pattern).2) := by
  have ht := length_of_step h
  obtain ⟨k, hk⟩ : ∃ k, s.rest.length = k + 1 := ⟨s.rest.length - 1, by omega⟩
  rw [scan, hk, scanFrom_succ, h]
  simp only
  rw [scanFrom_eq (Nat.le_refl _) (by omega), scan]
  rfl

theorem scan_of_error {e : Error} (h : s.step lookup pattern = .error (e, turn)) :
    s.scan lookup pattern = (.error e, turn) := by
  cases hr : s.rest with
  | nil => simp [step, hr] at h
  | cons c r =>
    have hk : s.rest.length = r.length + 1 := by simp [hr]
    rw [scan, hk, scanFrom_succ, h]

end ScanState

/-- A scan succeeds exactly when a run leaves nothing, and gives the pieces of that run. -/
theorem scan_eq_ok_iff {l : List Segment} {after : Turn} : s.scan lookup pattern = (.ok l, after) ↔
    ∃ t, Run lookup pattern s l t ∧ t.rest = [] ∧ t.turn = after := by
  constructor
  · intro h
    induction hn : s.rest.length using Nat.strongRecOn generalizing s l with
    | ind n ih =>
      cases hs : s.step lookup pattern with
      | error e =>
        rw [scan_of_error hs] at h
        simp at h
      | ok o =>
        cases o with
        | none =>
          have hr : s.rest = [] := Decidable.byContradiction fun hr => step_ne_none hr hs
          rw [scan_nil hr] at h
          simp only [Prod.mk.injEq, Except.ok.injEq] at h
          obtain ⟨rfl, rfl⟩ := h
          exact ⟨s, .done s, hr, rfl⟩
        | some p =>
          obtain ⟨piece, t⟩ := p
          rw [scan_of_step hs] at h
          rcases ht : t.scan lookup pattern with ⟨e | k, last⟩
          · simp [ht, Except.map] at h
          · simp only [ht, Except.map, Prod.mk.injEq, Except.ok.injEq] at h
            obtain ⟨rfl, rfl⟩ := h
            obtain ⟨u, run, hu⟩ := ih _ (hn ▸ length_of_step hs) ht rfl
            exact ⟨u, .round hs run, hu⟩
  · rintro ⟨t, run, ht, rfl⟩
    induction run with
    | done => exact scan_nil ht
    | round hs _ ih => rw [scan_of_step hs, ih ht]; rfl

end Scan

end RegexDialect
