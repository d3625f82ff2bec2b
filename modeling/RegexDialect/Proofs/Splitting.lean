import RegexDialect.Proofs.Found
import RegexDialect.Split

/-! Splitting a text loses and duplicates nothing: the matches that get past the last delimiter cut
the text, and the pieces in between are the items, with the groups of each delimiter behind the
piece that it ends. A limit keeps the first of these items, although the matches are then gone
through only in part. -/
namespace RegexDialect

/-- What is asked of the groups that the searches in a text report: the spans of those that took
part are on boundaries. -/
def Baseline.Matcher.GroupsBounded (m : Baseline.Matcher) (text : Text) : Prop :=
  ∀ position span groups, Text.isBoundary text position = true →
    m.search text position = .ok (some (some span :: groups)) →
    ∀ g, some g ∈ groups → g.start ≤ g.stop ∧ Text.isBoundary text g.start = true ∧
      Text.isBoundary text g.stop = true

/-- The texts of the groups of a match in order, absent ones empty. -/
def Match.groupTexts (m : Match) : List Text :=
  m.groups.map fun g => (g.map (Text.slice m.text)).getD []

namespace Text

variable {text gap : Text} {last : Nat} {s : Span}

theorem CutAt.slice?_span {cs : List (Text × Match)} {tail : Text} (h : CutAt text last cs tail) :
    ∀ m ∈ cs.map Prod.snd, slice? text m.span = some m.matched := by
  induction cs generalizing last with
  | nil => simp
  | cons c cs ih =>
    obtain ⟨-, hspan, hrest⟩ := h
    intro m hm
    rcases List.mem_cons.1 hm with rfl | hm
    · exact hspan
    · exact ih hrest m hm

theorem isSome_slice? (hle : s.start ≤ s.stop) (h : isBoundary text s.start = true)
    (h' : isBoundary text s.stop = true) : (slice? text s).isSome = true := by
  obtain ⟨before, rest, ht, hs⟩ := isBoundary_iff.1 h
  obtain ⟨part, -, -, -, hpart⟩ := exists_slice ht h' (hs ▸ hle)
  rw [hs] at hpart
  exact Option.isSome_of_eq_some hpart

end Text

namespace Split

open Text

variable {text : Text} {last : Nat} {ms : List Match} {p : Pattern}

def kept : (last : Nat) → List Match → List Match
  | _, [] => []
  | last, m :: ms => if m.stop ≤ last then kept last ms else m :: kept m.stop ms

theorem eq_last_of_stop_le {m : Match} (h : Match.InOrder text last (m :: ms))
    (hle : m.stop ≤ last) :
    m.start = last ∧ m.stop = last := by
  obtain ⟨-, h₁, h₂, -⟩ := h
  exact ⟨by omega, by omega⟩

theorem inOrder_kept (h : Match.InOrder text last ms) : Match.InOrder text last (kept last ms) := by
  induction ms generalizing last with
  | nil => trivial
  | cons m ms ih =>
    obtain ⟨h₁, h₂, h₃, h₄, h₅, h₆⟩ := h
    by_cases hm : m.stop ≤ last
    · have hstop : m.stop = last := by omega
      rw [kept, if_pos hm]
      exact ih (hstop ▸ h₆)
    · rw [kept, if_neg hm]
      exact ⟨h₁, h₂, h₃, h₄, h₅, ih h₆⟩

theorem mem_of_mem_kept {m : Match} (h : m ∈ kept last ms) : m ∈ ms := by
  induction ms generalizing last with
  | nil => exact h
  | cons n ms ih =>
    rw [kept] at h
    split at h
    · exact List.mem_cons_of_mem n (ih h)
    · rcases List.mem_cons.1 h with rfl | h
      · exact List.mem_cons_self
      · exact List.mem_cons_of_mem n (ih h)

theorem inOrder_append {ns : List Match} (h : Match.InOrder text last (ms ++ ns)) :
    Match.InOrder text (lastStop last (kept last ms)) ns := by
  induction ms generalizing last with
  | nil => exact h
  | cons m ms ih =>
    obtain ⟨-, h₁, h₂, -, -, hrest⟩ := h
    by_cases hm : m.stop ≤ last
    · have hstop : m.stop = last := by omega
      rw [kept, if_pos hm]
      exact ih (hstop ▸ hrest)
    · rw [kept, if_neg hm, lastStop_cons]
      exact ih hrest

/-- What stands before a match and the texts of its groups; no groups for a match at the end of the
text. -/
def itemsOfCut (text : Text) (c : Text × Match) : List Text :=
  c.1 :: if c.2.start < bytes text then c.2.groupTexts else []

theorem itemsOf_eq {m : Match} {gap : Text} (hgap : slice? text ⟨last, m.start⟩ = some gap) :
    itemsOf text last m = itemsOfCut text (gap, m) := by
  have hgroups : (List.range m.groups.length).map (fun n => (m.group (n + 1)).getD []) =
      m.groupTexts := by
    refine List.ext_getElem (by simp [Match.groupTexts]) fun n h _ => ?_
    have hn : n < m.groups.length := by simpa using h
    simp [Match.groupTexts, Match.group, Match.range?, hn]
  simp only [itemsOf, itemsOfCut, hgroups, slice, hgap, Option.getD_some]

/-- Without a limit the matches give the items of the kept ones. -/
theorem cuts_none {cs : List (Text × Match)} {tail : Text} (count length : Nat)
    (h : Match.InOrder text last ms)
    (hk : cs.map Prod.snd = kept last ms) (hc : CutAt text last cs tail) :
    cuts text none count last length (ms.map .ok) =
      .ok ⟨cs.flatMap (itemsOfCut text), lastStop last (kept last ms),
      ((kept last ms).getLast?.map fun m => bytes m.matched).getD length⟩ := by
  induction ms generalizing last cs count length with
  | nil =>
    obtain rfl : cs = [] := by simpa [kept] using hk
    rfl
  | cons m ms ih =>
    obtain ⟨-, h₁, h₂, -, -, hrest⟩ := h
    by_cases hm : m.stop ≤ last
    · have hstop : m.stop = last := by omega
      simp only [kept, if_pos hm] at hk
      simp only [List.map_cons, cuts, kept, if_pos hm]
      exact ih count length (hstop ▸ hrest) hk hc
    · simp only [kept, if_neg hm] at hk
      obtain ⟨⟨gap, n⟩, cs, rfl, rfl, hk⟩ := List.map_eq_cons_iff.1 hk
      obtain ⟨hgap, -, hc⟩ := hc
      simp only [List.map_cons, cuts, kept, if_neg hm, itemsOf_eq hgap, Option.any_none,
        Bool.false_eq_true,
        if_false, ih _ (bytes n.matched) hrest hk hc, bind, Except.bind, lastStop_cons,
          List.flatMap_cons]
      rw [Text.getD_getLast?_cons (fun m => bytes m.matched) n (kept n.stop ms) length]

theorem lastLength_pos_iff {cs : List (Text × Match)} {tail : Text} (h : CutAt text last cs tail) :
    0 < ((cs.map Prod.snd).getLast?.map fun m => bytes m.matched).getD 0 ↔
      (cs.map Prod.snd).getLast?.any (!·.isEmpty) = true := by
  cases hl : (cs.map Prod.snd).getLast? with
  | none => simp
  | some m =>
    obtain ⟨before, after, -, hstart, hstop⟩ :=
      exists_of_slice? (h.slice?_span m (List.mem_of_getLast? hl))
    rw [bytes_append] at hstop
    simp only [Option.map_some, Option.getD_some, Option.any_some, Match.isEmpty, Span.isEmpty,
      Bool.not_eq_true', beq_eq_false_iff_ne]
    omega

/-- The last item is what is left of the text. When nothing is left it is given, empty, if the last
kept match was not empty or the pattern does not match the empty text. -/
theorem tailItem_eq {cs : List (Text × Match)} {tail : Text} {e : Bool} (items : List Text)
    (hc : CutAt text last cs tail) (ht : text = joined cs ++ tail)
    (he : tail = [] → (cs.map Prod.snd).getLast?.any (!·.isEmpty) = false →
      p.matchesEmpty = .ok e) :
    tailItem text p
      ⟨items, bytes (joined cs), ((cs.map Prod.snd).getLast?.map fun m => bytes m.matched).getD 0⟩ =
      .ok (if tail ≠ [] then [tail] else if (cs.map Prod.snd).getLast?.any (!·.isEmpty) || !e then
        [[]] else []) := by
  have hdrop : dropTo text (bytes (joined cs)) = tail := by rw [ht, dropTo_append]
  have hbytes : bytes text = bytes (joined cs) + bytes tail := by rw [ht, bytes_append]
  simp only [tailItem, lastLength_pos_iff hc, hdrop, hbytes]
  by_cases hnil : tail = []
  · subst hnil
    cases hlast : (cs.map Prod.snd).getLast?.any (!·.isEmpty) with
    | true => simp
    | false => cases e <;> simp [he rfl hlast, Except.map]
  · have := bytes_pos_of_ne_nil hnil
    have hne : (bytes (joined cs) == bytes (joined cs) + bytes tail) = false := by
      rw [beq_eq_false_iff_ne]
      omega
    simp [hne, hnil]

/-- Splitting loses and duplicates nothing. Only empty matches at the end of the last kept match are
passed over, and the kept ones cut the text, no slice being out of range: the items are the gaps,
each with the groups of the match that ends it, and the tail. Whether the pattern matches the empty
text matters only when no text is left behind an empty match. -/
theorem split_eq (hb : p.matcher.Bounded text) (hg : p.matcher.GroupsBounded text)
    (h : p.Finds text ms) :
    (∀ before m after, ms = before ++ m :: after → m.stop ≤ lastStop 0 (kept 0 before) →
      m.isEmpty = true ∧ m.start = lastStop 0 (kept 0 before)) ∧
    ∃ cs tail, cs.map Prod.snd = kept 0 ms ∧ CutAt text 0 cs tail ∧
      (∀ c ∈ cs, ∀ g, some g ∈ c.2.groups → (slice? text g).isSome = true) ∧
      text = joined cs ++ tail ∧
      ∀ e, (tail = [] → (kept 0 ms).getLast?.any (!·.isEmpty) = false → p.matchesEmpty = .ok e) →
        split text p none = .ok (cs.flatMap (itemsOfCut text) ++
          if tail ≠ [] then [tail] else if (kept 0 ms).getLast?.any (!·.isEmpty) || !e then [[]]
          else []) := by
  have horder := h.inOrder hb
  constructor
  · rintro before m after rfl hle
    obtain ⟨hstart, hstop⟩ := eq_last_of_stop_le (inOrder_append horder) hle
    have hempty : m.start = m.stop := hstart.trans hstop.symm
    exact ⟨by simpa [Match.isEmpty, Span.isEmpty, Match.start, Match.stop] using hempty, hstart⟩
  obtain ⟨cs, tail, hk, hcut, ht, hlast⟩ := exists_cuts_zero (inOrder_kept horder)
  refine ⟨cs, tail, hk, hcut, ?_, ht, fun e he => ?_⟩
  · intro c hc g hgroup
    have hmem : c.2 ∈ ms := mem_of_mem_kept (hk ▸ List.mem_map_of_mem hc)
    obtain ⟨k, hget⟩ := List.getElem?_of_mem hmem
    obtain ⟨position, hp, span, groups, hsearch, hm⟩ :=
      Matches.exists_search ((h k).trans (by rw [hget]; rfl))
    rw [hm] at hgroup
    obtain ⟨h₁, h₂, h₃⟩ := hg position span groups hp hsearch g hgroup
    exact isSome_slice? h₁ h₂ h₃
  · have hresults := (Pattern.finds_iff hb).1 h
    have hcuts := cuts_none 0 0 horder hk hcut
    have htail := tailItem_eq (cs.flatMap (itemsOfCut text)) hcut ht (hk ▸ he)
    rw [hk, ← hlast] at htail
    simp only [split, hresults, hcuts, htail, bind, Except.bind]
    rfl

/-- The searches that an engine makes for `(x*)`: the longest run of `x` at the place of the search,
as match and as group. -/
def capturedRunsOfX : Baseline.Matcher where
  search text position :=
    let run := (dropTo text position).takeWhile (· == 'x')
    .ok (some [some ⟨position, position + bytes run⟩, some ⟨position, position + bytes run⟩])

def runsPattern : Pattern := ⟨"(x*)".toList, "(x*)".toList, .empty, [none], false, capturedRunsOfX⟩

theorem bounded_capturedRunsOfX (text : Text) :
    capturedRunsOfX.Bounded text ∧ capturedRunsOfX.GroupsBounded text := by
  have hspan : ∀ position span groups, isBoundary text position = true →
      capturedRunsOfX.search text position = .ok (some (some span :: groups)) →
        groups = [some span] ∧
        position ≤ span.start ∧ span.start ≤ span.stop ∧ isBoundary text span.start = true ∧
        isBoundary text span.stop = true := by
    intro position span groups hp hs
    simp only [capturedRunsOfX, Except.ok.injEq, Option.some.injEq, List.cons.injEq] at hs
    obtain ⟨rfl, rfl⟩ := hs
    exact ⟨rfl, Matches.bounded_runsOfX text position _ [] hp rfl⟩
  constructor
  · exact fun position span groups hp hs => (hspan position span groups hp hs).2
  · intro position span groups hp hs g hg
    obtain ⟨rfl, -, h⟩ := hspan position span groups hp hs
    obtain rfl : g = span := by simpa using hg
    exact h

/-- `éxy` split at runs of `x`: the empty runs before the first character and behind the run that is
not empty are passed over, and the one at the end of the text has no group and leaves no tail. -/
theorem split_eq_runs :
    (capturedRunsOfX.Bounded ['é', 'x', 'y'] ∧ capturedRunsOfX.GroupsBounded ['é', 'x', 'y'] ∧
      runsPattern.Finds ['é', 'x', 'y']
        [Matches.runInText [none] 0 0, Matches.runInText [none] 2 3, Matches.runInText [none] 3 3,
          Matches.runInText [none] 4 4] ∧
      runsPattern.matchesEmpty = .ok true) ∧
    (∃ cs tail, cs.map Prod.snd = [Matches.runInText [none] 2 3, Matches.runInText [none] 4 4] ∧
      CutAt ['é', 'x', 'y'] 0 cs tail ∧ ['é', 'x', 'y'] = joined cs ++ tail ∧
      split ['é', 'x', 'y'] runsPattern none =
        .ok (cs.flatMap (itemsOfCut ['é', 'x', 'y']) ++ if tail ≠ [] then [tail] else [])) ∧
    split ['é', 'x', 'y'] runsPattern none = .ok [['é'], ['x'], ['y']] := by
  obtain ⟨hb, hg⟩ := bounded_capturedRunsOfX ['é', 'x', 'y']
  have hfinds :
      runsPattern.Finds ['é', 'x', 'y']
        [Matches.runInText [none] 0 0, Matches.runInText [none] 2 3, Matches.runInText [none] 3 3,
          Matches.runInText [none] 4 4] :=
    (Pattern.finds_iff hb).2 rfl
  have hempty : runsPattern.matchesEmpty = .ok true := rfl
  obtain ⟨-, cs, tail, hk, hcut, -, ht, hsplit⟩ := split_eq hb hg hfinds
  exact ⟨⟨hb, hg, hfinds, hempty⟩, ⟨cs, tail, hk, hcut, ht, hsplit true fun _ _ => hempty⟩, rfl⟩

section Limit

variable {n count length : Nat} {limited full : Cuts} {tail rest v : List Text}

theorem exists_matches_of_cuts {rs : List (Except Error Match)}
    (h : cuts text none count last length rs = .ok full) : ∃ ms : List Match, rs = ms.map .ok := by
  induction rs generalizing count last length full with
  | nil => exact ⟨[], rfl⟩
  | cons r rs ih =>
    cases r with
    | error e => exact absurd h (by simp [cuts])
    | ok m =>
      rw [cuts] at h
      split at h
      · obtain ⟨ms, rfl⟩ := ih h
        exact ⟨m :: ms, rfl⟩
      · simp only [Option.any_none, Bool.false_eq_true, if_false] at h
        obtain ⟨c, hc, -⟩ := exists_of_bind_eq_ok h
        obtain ⟨ms, rfl⟩ := ih hc
        exact ⟨m :: ms, rfl⟩

theorem cuts_at_end (limit : Option Nat) (h : ∀ m ∈ ms, m.stop ≤ bytes text) :
    cuts text limit count (bytes text) length (ms.map .ok) = .ok ⟨[], bytes text, length⟩ := by
  induction ms with
  | nil => rfl
  | cons m ms ih =>
    rw [List.map_cons, cuts, if_pos (h m (by simp))]
    exact ih fun k hk => h k (by simp [hk])

/-- What the matches give when they are gone through only in part, against what they give in full:
there are enough items, they are the first ones, and the delimiter that was the last one so far is
the last one of all if it ends where the text does. -/
structure StopsEarly (text : Text) (n count : Nat) (limited full : Cuts) : Prop where
  enough : n ≤ count + limited.items.length
  items : limited.items <+: full.items
  last : limited.lastEnd = bytes text → limited.lastEnd = full.lastEnd ∧ limited.lastLength =
    full.lastLength

/-- With a limit the matches give what they give without it, or stop early. -/
theorem cuts_some (hstop : ∀ m ∈ ms, m.stop ≤ bytes text)
    (h : cuts text none count last length (ms.map .ok) = .ok full) :
    ∃ limited, cuts text (some n) count last length (ms.map .ok) = .ok limited ∧
      (limited = full ∨ StopsEarly text n count limited full) := by
  induction ms generalizing count last length full with
  | nil => exact ⟨full, h, .inl rfl⟩
  | cons m ms ih =>
    have hrest : ∀ k ∈ ms, k.stop ≤ bytes text := fun k hk => hstop k (by simp [hk])
    rw [List.map_cons, cuts] at h ⊢
    split
    · next hm =>
      rw [if_pos hm] at h
      exact ih hrest h
    · next hm =>
      simp only [if_neg hm, Option.any_none, Bool.false_eq_true, if_false] at h
      obtain ⟨others, hothers, hfull⟩ := exists_of_bind_eq_ok h
      obtain rfl := Except.ok.inj hfull
      simp only [Option.any_some, decide_eq_true_eq]
      split
      · next hn =>
        -- stopped here; at the end of the text the matches that are left out would all be passed
        -- over
        refine ⟨_, rfl, .inr ⟨hn, List.prefix_append _ _, fun hend => ?_⟩⟩
        simp only at hend
        rw [hend, cuts_at_end none hrest] at hothers
        obtain rfl := Except.ok.inj hothers
        exact ⟨hend, rfl⟩
      · obtain ⟨limited, hlimited, hor⟩ := ih hrest hothers
        refine ⟨{ limited with items := itemsOf text last m ++ limited.items },
          by rw [hlimited]; rfl, ?_⟩
        rcases hor with rfl | ⟨henough, hitems, hlast⟩
        · exact .inl rfl
        · refine .inr ⟨?_, (List.prefix_append_right_inj _).2 hitems, hlast⟩
          simp only [List.length_append]
          omega

theorem StopsEarly.exists_tailItem (h : StopsEarly text n count limited full)
    (ht : tailItem text p full = .ok tail) : ∃ rest, tailItem text p limited = .ok rest := by
  by_cases hend : limited.lastEnd = bytes text
  · obtain ⟨hlast, hlength⟩ := h.last hend
    refine ⟨tail, ?_⟩
    rw [← ht]
    simp only [tailItem, hlast, hlength]
  · exact ⟨_, if_neg (by simpa using hend)⟩

theorem StopsEarly.take_append (h : StopsEarly text n 0 limited full) (rest tail : List Text) :
    (limited.items ++ rest).take n = (full.items ++ tail).take n := by
  obtain ⟨others, hothers⟩ := h.items
  have henough : n ≤ limited.items.length := by simpa using h.enough
  rw [← hothers, List.append_assoc, List.take_append_of_le_length henough,
    List.take_append_of_le_length henough]

/-- A limit gives the first of the items that there are without it. -/
theorem split_limit (hb : p.matcher.Bounded text) (h : split text p none = .ok v) (n : Nat) :
    split text p (some n) = .ok (v.take n) := by
  by_cases hn : n = 0
  · simp [split, hn]
  rw [split, if_neg (by simp)] at h
  obtain ⟨full, hfull, h⟩ := exists_of_bind_eq_ok h
  obtain ⟨tail, htail, h⟩ := exists_of_bind_eq_ok h
  obtain rfl := Except.ok.inj h
  obtain ⟨ms, hms⟩ := exists_matches_of_cuts hfull
  have hfinds : p.Finds text ms := (Pattern.finds_iff hb).2 hms
  rw [hms] at hfull
  obtain ⟨limited, hlimited, hor⟩ :=
    @cuts_some text 0 ms n 0 0 full (hfinds.inOrder hb).stop_le hfull
  rw [split, if_neg (by simpa using hn), hms]
  rcases hor with rfl | hearly
  · simp only [hlimited, htail, bind, Except.bind]
  · obtain ⟨rest, hrest⟩ := hearly.exists_tailItem htail
    simp only [hlimited, hrest, bind, Except.bind, hearly.take_append rest tail]

/-- `éxy` split at runs of `x` with limits: one that is reached among the items of a delimiter, one
at the end of the text, and one that is never reached. -/
theorem split_limit_runs : capturedRunsOfX.Bounded ['é', 'x', 'y'] ∧
    split ['é', 'x', 'y'] runsPattern none = .ok [['é'], ['x'], ['y']] ∧
    split ['é', 'x', 'y'] runsPattern (some 0) = .ok [] ∧
    split ['é', 'x', 'y'] runsPattern (some 1) = .ok [['é']] ∧
    split ['é', 'x', 'y'] runsPattern (some 3) = .ok [['é'], ['x'], ['y']] ∧
    split ['é', 'x', 'y'] runsPattern (some 7) = .ok [['é'], ['x'], ['y']] := by
  have hb := (bounded_capturedRunsOfX ['é', 'x', 'y']).1
  have hall : split ['é', 'x', 'y'] runsPattern none = .ok [['é'], ['x'], ['y']] := rfl
  have hlimit := @split_limit ['é', 'x', 'y'] runsPattern _ hb hall
  exact ⟨hb, hall, hlimit 0, hlimit 1, hlimit 3, hlimit 7⟩

end Limit

end Split

end RegexDialect
