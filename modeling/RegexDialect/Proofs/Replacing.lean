import RegexDialect.Proofs.Found
import RegexDialect.Replace

/-! Replacing changes the matched parts of a text and nothing else, and asks for one rendering of
each match, in order. -/
namespace RegexDialect

open Text

theorem Text.dropTo_of_slice? {text tail : Text} {last : Nat}
    (h : slice? text ⟨last, bytes text⟩ = some tail) :
    dropTo text last = tail := by
  obtain ⟨before, after, ht, hbefore, hend⟩ := exists_of_slice? h
  simp only at hbefore hend
  have hsize : bytes text = bytes (before ++ tail) + bytes after := by rw [← bytes_append, ← ht]
  have hafter : after = [] := Decidable.byContradiction fun hne => by
    have := bytes_pos_of_ne_nil hne
    omega
  rw [ht, hafter, List.append_nil, ← hbefore, dropTo_append]

namespace Replacement

variable {σ : Type} {text tail : Text} {last : Nat} {cuts : List (Text × Match)}

/-- The renderings of some matches, called in order with the ordinals from a number on, and the
state after them. -/
def renderings (r : Replacement σ) : (ordinal : Nat) → List Match → σ → List Text × σ
  | _, [], s => ([], s)
  | ordinal, m :: ms, s =>
    let (piece, s) := r.render s m ordinal
    let (pieces, s) := renderings r (ordinal + 1) ms s
    (piece :: pieces, s)

/-- A replacement that also keeps its calls, in order. -/
def traced (r : Replacement σ) : Replacement (σ × List (Match × Nat)) where
  render s m ordinal :=
    let (piece, t) := r.render s.1 m ordinal
    (piece, t, s.2 ++ [(m, ordinal)])

theorem renderings_cons {r : Replacement σ} {m : Match} {ordinal : Nat} {s t : σ} {piece : Text}
    (h : r.render s m ordinal = (piece, t)) (ms : List Match) :
    r.renderings ordinal (m :: ms) s =
      (piece :: (r.renderings (ordinal + 1) ms t).1, (r.renderings (ordinal + 1) ms t).2) := by
  simp only [renderings, h]

def filled (cuts : List (Text × Match)) (pieces : List Text) : Text :=
  (List.zipWith (fun c piece => c.1 ++ piece) cuts pieces).flatten

/-- The matches of a cut text give way to their renderings. -/
theorem substitute_eq_filled (r : Replacement σ) (h : CutAt text last cuts tail)
    (ordinal : Nat) (s : σ) :
    r.substitute text last ordinal ((cuts.map Prod.snd).map .ok) s =
      (.ok (filled cuts (r.renderings ordinal (cuts.map Prod.snd) s).1 ++ tail),
        (r.renderings ordinal (cuts.map Prod.snd) s).2) := by
  induction cuts generalizing last ordinal s with
  | nil =>
    simp only [List.map_nil, substitute, dropTo_of_slice? h, renderings, filled,
      List.zipWith_nil_left, List.flatten_nil, List.nil_append]
  | cons c cuts ih =>
    obtain ⟨hgap, -, hrest⟩ := h
    rcases hr : r.render s c.2 ordinal with ⟨piece, t⟩
    have hslice : slice text ⟨last, c.2.start⟩ = c.1 := by rw [slice, hgap, Option.getD_some]
    simp only [List.map_cons, renderings_cons hr, substitute, hr, ih hrest, filled, hslice,
      List.zipWith_cons_cons, List.flatten_cons, List.append_assoc]

/-- The calls of a replacement are its matches with their ordinals, whatever it gives back. -/
theorem renderings_traced (r : Replacement σ) (ordinal : Nat) (ms : List Match) (s : σ)
    (calls : List (Match × Nat)) :
    r.traced.renderings ordinal ms (s, calls) =
      ((r.renderings ordinal ms s).1, (r.renderings ordinal ms s).2,
        calls ++ ms.zipIdx ordinal) := by
  induction ms generalizing ordinal s calls with
  | nil => simp [renderings]
  | cons m ms ih =>
    rcases hr : r.render s m ordinal with ⟨piece, t⟩
    have htraced : r.traced.render (s, calls) m ordinal = (piece, t, calls ++ [(m, ordinal)]) := by
      simp only [traced, hr]
    rw [renderings_cons hr, renderings_cons htraced, ih, List.zipIdx_cons, List.append_assoc,
      List.singleton_append]

theorem renderings_template (t : Text) (ordinal : Nat) (ms : List Match) :
    (template t).renderings ordinal ms () = (ms.map (renderTemplate · t), ()) := by
  induction ms generalizing ordinal with
  | nil => rfl
  | cons m ms ih =>
    have hrender : (template t).render () m ordinal = (renderTemplate m t, ()) := rfl
    rw [renderings_cons hrender, ih, List.map_cons]

theorem filled_matched (cuts : List (Text × Match)) :
    filled cuts ((cuts.map Prod.snd).map (renderTemplate · ['$', '&'])) = joined cuts := by
  have hself : ∀ m, renderTemplate m ['$', '&'] = m.matched := fun m => List.append_nil m.matched
  simp only [hself, filled]
  induction cuts with
  | nil => rfl
  | cons c cuts ih =>
    simp only [List.map_cons, List.zipWith_cons_cons, List.flatten_cons, ih, joined_cons]

end Replacement

/-- Replacing changes exactly the matched parts, all of them or the first: in a text that the
matches cut, each gives way to its rendering and the rest is copied. A replacement is called once
for each of them in order, with its ordinal. So a pattern without a match leaves the text as it is,
as does the template for the match itself. -/
theorem replace_eq_filled {σ : Type} {text : Text} {p : Pattern} {ms used : List Match}
    (hb : p.matcher.Bounded text) (h : p.Finds text ms) (r : Replacement σ) (all : Option Bool)
    (s : σ) (hu : used = if all.getD p.isGlobal then ms else ms.take 1) :
    (∃ cuts tail, cuts.map Prod.snd = used ∧ CutAt text 0 cuts tail ∧ text = joined cuts ++ tail ∧
      replace text p r all s =
        (.ok (Replacement.filled cuts (r.renderings 0 used s).1 ++ tail),
          (r.renderings 0 used s).2) ∧
      ∀ t, replace text p (.template t) all () =
        (.ok (Replacement.filled cuts (used.map (renderTemplate · t)) ++ tail), ())) ∧
    replace text p r.traced all (s, []) =
      ((replace text p r all s).1, (replace text p r all s).2, used.zipIdx) ∧
    (ms = [] → replace text p r all s = (.ok text, s)) ∧
    replace text p (.template ['$', '&']) all () = (.ok text, ()) := by
  have hresults : (if all.getD p.isGlobal then p.results text else (p.results text).take 1) =
      used.map .ok := by
    rw [(Pattern.finds_iff hb).1 h, hu]
    split
    · rfl
    · rw [List.map_take]
  have horder : Match.InOrder text 0 used := by
    rw [hu]
    split
    · exact h.inOrder hb
    · exact (h.inOrder hb).take 1
  obtain ⟨cuts, tail, rfl, hcut, ht, -⟩ := exists_cuts_zero horder
  have hreplace : ∀ {τ : Type} (r : Replacement τ) (s : τ), replace text p r all s =
      (.ok (Replacement.filled cuts (r.renderings 0 (cuts.map Prod.snd) s).1 ++ tail),
        (r.renderings 0 (cuts.map Prod.snd) s).2) := by
    intro τ r s
    rw [replace, hresults]
    exact r.substitute_eq_filled hcut 0 s
  have htemplate : ∀ t, replace text p (.template t) all () =
      (.ok (Replacement.filled cuts ((cuts.map Prod.snd).map (renderTemplate · t)) ++ tail),
        ()) := by
    intro t
    rw [hreplace, Replacement.renderings_template]
  refine ⟨⟨cuts, tail, rfl, hcut, ht, hreplace r s, htemplate⟩, ?_, ?_, ?_⟩
  · rw [hreplace, hreplace, Replacement.renderings_traced, List.nil_append]
  · rintro rfl
    have hnil : cuts = [] := by simpa using hu
    rw [hreplace, ht, hnil]
    rfl
  · rw [htemplate, Replacement.filled_matched, ← ht]

/-- The runs of `x` in `éxy` replaced by their ordinals: three of the four are empty, one of these
stands where the other run ends. -/
theorem replace_eq_filled_ordinals :
    (Matches.runsOfX.Bounded ['é', 'x', 'y'] ∧
      Pattern.Finds ⟨['x', '*'], ['x', '*'], .empty, [], false, Matches.runsOfX⟩ ['é', 'x', 'y']
        [Matches.runInText [] 0 0, Matches.runInText [] 2 3, Matches.runInText [] 3 3,
          Matches.runInText [] 4 4]) ∧
    replace ['é', 'x', 'y'] ⟨['x', '*'], ['x', '*'], .empty, [], false, Matches.runsOfX⟩
        (Replacement.counted fun _ n => ofNat n).traced (some true) (0, []) =
      (.ok ['0', 'é', '1', '2', 'y', '3'], 4,
        [(Matches.runInText [] 0 0, 0), (Matches.runInText [] 2 3, 1),
        (Matches.runInText [] 3 3, 2), (Matches.runInText [] 4 4, 3)]) ∧
    replace ['é', 'x', 'y'] ⟨['x', '*'], ['x', '*'], .empty, [], false, Matches.runsOfX⟩
      (.template ['$', '&']) (some true) () = (.ok ['é', 'x', 'y'], ()) := by
  have hb := Matches.bounded_runsOfX ['é', 'x', 'y']
  have hfinds :
      Pattern.Finds ⟨['x', '*'], ['x', '*'], .empty, [], false, Matches.runsOfX⟩ ['é', 'x', 'y']
      [Matches.runInText [] 0 0, Matches.runInText [] 2 3, Matches.runInText [] 3 3,
        Matches.runInText [] 4 4] :=
    (Pattern.finds_iff hb).2 rfl
  obtain ⟨-, hcalls, -, hself⟩ :=
    replace_eq_filled hb hfinds (Replacement.counted fun _ n => ofNat n) (some true) 0 rfl
  exact ⟨⟨hb, hfinds⟩, hcalls.trans rfl, hself⟩

end RegexDialect
