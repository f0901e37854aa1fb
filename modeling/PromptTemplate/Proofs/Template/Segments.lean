import Mathlib.Data.List.SplitBy
import PromptTemplate.Proofs.Template.Collapsing

/-!
# Proofs/Template/Segments — collapsing blank lines, segment by segment

    a ⏎ | ␣ | ⇥ | b | | c | | d     →     a ⏎ | ⏎ | b | | c | | d        (⏎ carriage return, | newline)

Newlines cut a text into segments. Between the first and the last one, blank segments that follow
each other make up groups. **Collapsing leaves one segment of each group of two or more**, with a
carriage return in it if the segment before the group ends with one, **and leaves every other
segment alone** (`segments_collapseBlankLines`).

A run of blank lines begins with the line end before it and ends with the last newline that closes a
blank segment. So it is a whole group (`afterBlankRun?_unlines`), and the proof goes along the
groups (`Grouped`).
-/

namespace PromptTemplate.Template

/-- What stands between the newlines of a text. -/
def segments (s : Text) : List Text := s.splitOn '\n'

/-- A segment that holds nothing but spaces, tabs and carriage returns. -/
def isBlankSegment (l : Text) : Bool := l.all isPadding

/-- Whether two segments that follow each other belong to one group. -/
def bothBlank (l k : Text) : Bool := isBlankSegment l && isBlankSegment k

/-- The carriage return before the newline that follows a segment. -/
def carriageOf (l : Text) : Text := if l.getLast? = some '\r' then ['\r'] else []

/-- What is left of a group that follows a segment. -/
def shrinkGroup (before : Text) (g : List Text) : List Text :=
  if 2 ≤ g.length then [carriageOf before] else g

/-- What is left of groups, the first of which follows a segment. -/
def shrinkGroups : Text → List (List Text) → List Text
  | _, [] => []
  | before, g :: gs => shrinkGroup before g ++ shrinkGroups (g.getLastD before) gs

/-- The segments with one in place of each group of two or more blank ones. The first and the last
belong to no group. -/
def shrinkSegments : List Text → List Text
  | [] => []
  | first :: rest =>
    first :: shrinkGroups first (rest.dropLast.splitBy bothBlank) ++ rest.getLast?.toList

/-- The segments between the first and the last. -/
def interior (ls : List Text) : List Text := ls.tail.dropLast

/-! ## Segments and their text -/

/-- Segments with a newline behind each, in front of a text. -/
def unlines (ls : List Text) (s : Text) : Text := ls.flatMap (· ++ ['\n']) ++ s

@[simp] theorem unlines_nil (s : Text) : unlines [] s = s := rfl

@[simp] theorem unlines_cons (l : Text) (ls : List Text) (s : Text) :
    unlines (l :: ls) s = l ++ '\n' :: unlines ls s := by
  simp [unlines]

theorem unlines_append (ls ks : List Text) (s : Text) :
    unlines (ls ++ ks) s = unlines ls (unlines ks s) := by
  simp [unlines]

/-- Segments that hold no newline are the segments of their text. -/
theorem segments_unlines {ls : List Text} {l : Text} (hls : ∀ k ∈ ls, '\n' ∉ k) (hl : '\n' ∉ l) :
    segments (unlines ls l) = ls ++ [l] := by
  induction ls with
  | nil => exact List.splitOn_eq_singleton hl
  | cons k ls ih =>
    rw [List.forall_mem_cons] at hls
    rw [unlines_cons, segments, List.splitOn_append_cons_self_of_not_mem hls.1, ← segments,
      ih hls.2, List.cons_append]

/-- Every text is made of segments. -/
theorem exists_unlines (s : Text) :
    ∃ ls l, (∀ k ∈ ls, '\n' ∉ k) ∧ '\n' ∉ l ∧ s = unlines ls l := by
  by_cases hs : '\n' ∈ s
  · obtain ⟨k, r, rfl, hk⟩ := List.eq_append_cons_of_mem hs
    obtain ⟨ls, l, hls, hl, hr⟩ := exists_unlines r
    exact ⟨k :: ls, l, List.forall_mem_cons.mpr ⟨hk, hls⟩, hl, by rw [unlines_cons, ← hr]⟩
  · exact ⟨[], s, List.forall_mem_nil _, hs, rfl⟩
termination_by s.length
decreasing_by
  subst s
  simp
  omega

/-! ## Blank segments at the front -/

theorem afterBlankLine?_segment {l : Text} (hl : '\n' ∉ l) (s : Text) :
    afterBlankLine? (l ++ '\n' :: s) = if isBlankSegment l then some s else none := by
  induction l with
  | nil => rfl
  | cons c l ih =>
    rw [List.mem_cons, not_or] at hl
    rw [List.cons_append, isBlankSegment, List.all_cons, ← isBlankSegment]
    by_cases hc : isPadding c = true
    · rw [afterBlankLine?_cons_of_isPadding hc, ih hl.2, hc, Bool.true_and]
    · rw [afterBlankLine?_cons_eq_none (Bool.eq_false_iff.mpr hc) (Ne.symm hl.1),
        Bool.eq_false_iff.mpr hc]
      rfl

theorem afterBlankLine?_of_not_mem {l : Text} (hl : '\n' ∉ l) : afterBlankLine? l = none := by
  induction l with
  | nil => rfl
  | cons c l ih =>
    rw [List.mem_cons, not_or] at hl
    by_cases hc : isPadding c = true
    · rw [afterBlankLine?_cons_of_isPadding hc, ih hl.2]
    · exact afterBlankLine?_cons_eq_none (Bool.eq_false_iff.mpr hc) (Ne.symm hl.1) l

/-- The first of some segments, if there is one, is not blank. -/
def StartsSolid (ls : List Text) : Prop := ∀ l ∈ ls.head?, isBlankSegment l = false

theorem afterBlankLine?_unlines {ls : List Text} {l : Text} (hls : ∀ k ∈ ls, '\n' ∉ k)
    (hl : '\n' ∉ l) (h : StartsSolid ls) : afterBlankLine? (unlines ls l) = none := by
  cases ls with
  | nil => exact afterBlankLine?_of_not_mem hl
  | cons k ls =>
    rw [unlines_cons, afterBlankLine?_segment (List.forall_mem_cons.mp hls).1,
      h k (List.head?_cons ▸ rfl)]
    rfl

theorem afterBlankLines_of_eq_some {s r : Text} (h : afterBlankLine? s = some r) :
    afterBlankLines s = afterBlankLines r := by
  rw [afterBlankLines]
  split
  · rename_i heq
    rw [Option.some.inj (h.symm.trans heq)]
  · rename_i heq
    exact absurd heq (by simp [h])

theorem afterBlankLines_of_eq_none {s : Text} (h : afterBlankLine? s = none) :
    afterBlankLines s = s := by
  rw [afterBlankLines]
  split
  · rename_i heq
    exact absurd heq (by simp [h])
  · rfl

theorem afterBlankLines_unlines {g : List Text} (hg : ∀ l ∈ g, '\n' ∉ l)
    (hblank : ∀ l ∈ g, isBlankSegment l = true) {s : Text} (hs : afterBlankLine? s = none) :
    afterBlankLines (unlines g s) = s := by
  induction g with
  | nil => exact afterBlankLines_of_eq_none hs
  | cons l g ih =>
    rw [List.forall_mem_cons] at hg hblank
    have hline : afterBlankLine? (unlines (l :: g) s) = some (unlines g s) := by
      rw [unlines_cons, afterBlankLine?_segment hg.1, if_pos hblank.1]
    rw [afterBlankLines_of_eq_some hline, ih hg.2 hblank.2]

/-- **A run of blank lines is a whole group.** -/
theorem afterBlankRun?_unlines {g : List Text} (hg : ∀ l ∈ g, '\n' ∉ l)
    (hblank : ∀ l ∈ g, isBlankSegment l = true) (hlength : 2 ≤ g.length) {s : Text}
    (hs : afterBlankLine? s = none) : afterBlankRun? (unlines g s) = some s := by
  obtain ⟨l, k, g, rfl⟩ : ∃ l k g', g = l :: k :: g' := by
    match g, hlength with
    | l :: k :: g', _ => exact ⟨l, k, g', rfl⟩
  simp only [List.forall_mem_cons] at hg hblank
  rw [afterBlankRun?, unlines_cons, afterBlankLine?_segment hg.1, if_pos hblank.1, unlines_cons]
  simp only [afterBlankLine?_segment hg.2.1, if_pos hblank.2.1, Option.map_some]
  rw [afterBlankLines_unlines hg.2.2 hblank.2.2 hs]

/-! ## One segment -/

theorem collapseBlankLines_of_blankRun? {s e r : Text} (h : blankRun? s = some (e, r)) :
    collapseBlankLines s = e ++ e ++ collapseBlankLines r := by
  rw [collapseBlankLines]
  split
  · rename_i heq
    obtain ⟨rfl, rfl⟩ := Prod.mk.inj (Option.some.inj (h.symm.trans heq))
    rfl
  · rename_i heq
    exact absurd heq (by simp [h])

theorem collapseBlankLines_cons {c : Char} {s : Text} (h : blankRun? (c :: s) = none) :
    collapseBlankLines (c :: s) = c :: collapseBlankLines s := by
  rw [collapseBlankLines]
  split
  · rename_i heq
    exact absurd heq (by simp [h])
  · rfl

/-- A run begins with a line end. -/
theorem blankRun?_eq_none_of_ne {c : Char} {s : Text} (hc : c ≠ '\n')
    (h : c = '\r' → s.head? ≠ some '\n') : blankRun? (c :: s) = none := by
  refine Option.not_isSome_iff_eq_none.mp fun hsome => ?_
  obtain ⟨e, t, rfl | rfl, heq, -⟩ := blankRun?_isSome_iff.mp hsome
  · exact hc (List.cons.inj heq).1
  · obtain ⟨rfl, rfl⟩ := List.cons.inj heq
    exact h rfl rfl

theorem collapseBlankLines_of_not_mem {l : Text} (hl : '\n' ∉ l) : collapseBlankLines l = l := by
  induction l with
  | nil => exact collapseBlankLines_of_tight tight_nil
  | cons c l ih =>
    rw [List.mem_cons, not_or] at hl
    rw [collapseBlankLines_cons, ih hl.2]
    refine blankRun?_eq_none_of_ne (Ne.symm hl.1) fun _ hhead => ?_
    exact hl.2 (List.mem_of_mem_head? hhead)

theorem carriageOf_cons {c : Char} {l : Text} (h : ¬(c = '\r' ∧ l = [])) :
    carriageOf (c :: l) = carriageOf l := by
  cases l with
  | nil =>
    have hc : c ≠ '\r' := fun hc => h ⟨hc, rfl⟩
    simp [carriageOf, hc]
  | cons d l => rw [carriageOf, List.getLast?_cons_cons, carriageOf]

/-- **A segment stays**, and behind its newline one is left of a run that follows. -/
theorem collapseBlankLines_segment {l : Text} (hl : '\n' ∉ l) (s : Text) :
    collapseBlankLines (l ++ '\n' :: s) =
      l ++ '\n' :: match afterBlankRun? s with
        | some r => carriageOf l ++ '\n' :: collapseBlankLines r
        | none => collapseBlankLines s := by
  have hnewline := blankRun?_lineEnd (.inl rfl : IsLineEnd ['\n']) s
  have hcarriage := blankRun?_lineEnd (.inr rfl : IsLineEnd ['\r', '\n']) s
  induction l with
  | nil =>
    cases hs : afterBlankRun? s with
    | none =>
      rw [hs, Option.map_none] at hnewline
      exact collapseBlankLines_cons hnewline
    | some r =>
      rw [hs, Option.map_some] at hnewline
      exact collapseBlankLines_of_blankRun? hnewline
  | cons c l ih =>
    rw [List.mem_cons, not_or] at hl
    have hc : c ≠ '\n' := Ne.symm hl.1
    by_cases hlast : c = '\r' ∧ l = []
    · obtain ⟨rfl, rfl⟩ := hlast
      cases hs : afterBlankRun? s with
      | none =>
        rw [hs, Option.map_none] at hcarriage
        rw [hs] at ih
        exact (collapseBlankLines_cons hcarriage).trans (congrArg _ (ih List.not_mem_nil))
      | some r =>
        rw [hs, Option.map_some] at hcarriage
        exact collapseBlankLines_of_blankRun? hcarriage
    · have hnone : blankRun? (c :: (l ++ '\n' :: s)) = none := by
        refine blankRun?_eq_none_of_ne hc fun hcr => ?_
        obtain ⟨d, l, rfl⟩ := List.exists_cons_of_ne_nil fun hnil => hlast ⟨hcr, hnil⟩
        rintro hhead
        exact hl.2 (List.mem_cons.mpr (.inl (Option.some.inj hhead).symm))
      rw [List.cons_append, collapseBlankLines_cons hnone, ih hl.2, carriageOf_cons hlast,
        List.cons_append]

theorem collapseBlankLines_segment_of_none {l s : Text} (hl : '\n' ∉ l)
    (hs : afterBlankRun? s = none) :
    collapseBlankLines (l ++ '\n' :: s) = l ++ '\n' :: collapseBlankLines s := by
  rw [collapseBlankLines_segment hl, hs]

theorem collapseBlankLines_segment_of_some {l s r : Text} (hl : '\n' ∉ l)
    (hs : afterBlankRun? s = some r) :
    collapseBlankLines (l ++ '\n' :: s) =
      l ++ '\n' :: (carriageOf l ++ '\n' :: collapseBlankLines r) := by
  rw [collapseBlankLines_segment hl, hs]

/-! ## Groups -/

/-- Segments in groups: the blank ones that follow each other are together, any other one is
alone. -/
inductive Grouped : List (List Text) → Prop
  | nil : Grouped []
  | single {l : Text} {gs : List (List Text)} :
    (isBlankSegment l = true → StartsSolid gs.flatten) → Grouped gs → Grouped ([l] :: gs)
  | run {g : List Text} {gs : List (List Text)} :
    2 ≤ g.length → (∀ l ∈ g, isBlankSegment l = true) → StartsSolid gs.flatten → Grouped gs →
      Grouped (g :: gs)

theorem isBlankSegment_of_isChain {l k : Text} {g : List Text}
    (h : (l :: k :: g).IsChain fun l k => bothBlank l k = true) :
    ∀ x ∈ l :: k :: g, isBlankSegment x = true := by
  induction g generalizing l k with
  | nil =>
    have hlk := Bool.and_eq_true_iff.mp (List.isChain_cons_cons.mp h).1
    simpa using hlk
  | cons m g ih =>
    obtain ⟨hlk, hrest⟩ := List.isChain_cons_cons.mp h
    exact List.forall_mem_cons.mpr ⟨(Bool.and_eq_true_iff.mp hlk).1, ih hrest⟩

theorem not_startsSolid_append {g : List Text} (hlength : 2 ≤ g.length)
    (hblank : ∀ l ∈ g, isBlankSegment l = true) (ls : List Text) : ¬StartsSolid (g ++ ls) := by
  intro h
  obtain ⟨l, g, rfl⟩ := List.exists_cons_of_length_pos (Nat.lt_of_lt_of_le Nat.two_pos hlength)
  have hl := h l rfl
  rw [hblank l List.mem_cons_self] at hl
  exact absurd hl (by decide)

/-- Behind a blank segment at the end of a group comes one that is not blank. -/
theorem startsSolid_of_isChain {g : List Text} {gs : List (List Text)}
    (h : (g :: gs).IsChain fun g h => ∃ (hg : g ≠ []) (hh : h ≠ []),
      bothBlank (g.getLast hg) (h.head hh) = false)
    (hlast : ∀ hg : g ≠ [], isBlankSegment (g.getLast hg) = true) : StartsSolid gs.flatten := by
  cases gs with
  | nil => exact fun l hl => absurd hl (by simp)
  | cons k gs =>
    obtain ⟨hg, hk, hboth⟩ := (List.isChain_cons_cons.mp h).1
    rw [bothBlank, hlast hg, Bool.true_and] at hboth
    intro l hl
    obtain ⟨x, k, rfl⟩ := List.exists_cons_of_ne_nil hk
    obtain rfl : x = l := by simpa using hl
    exact hboth

/-- Cutting segments where two that follow each other are not both blank puts them in groups. -/
theorem grouped_splitBy (ls : List Text) : Grouped (ls.splitBy bothBlank) := by
  have hne := List.nil_notMem_splitBy bothBlank ls
  have hwithin : ∀ g ∈ ls.splitBy bothBlank, g.IsChain fun l k => bothBlank l k = true :=
    fun g hg => List.isChain_of_mem_splitBy hg
  have hbetween := List.isChain_getLast_head_splitBy bothBlank ls
  generalize ls.splitBy bothBlank = gs at hne hwithin hbetween
  induction gs with
  | nil => exact .nil
  | cons g gs ih =>
    rw [List.mem_cons, not_or] at hne
    rw [List.forall_mem_cons] at hwithin
    have hgs := ih hne.2 hwithin.2 hbetween.tail
    match g, hne.1, hwithin.1, hbetween with
    | [l], _, _, hbetween =>
      exact .single (fun hl => startsSolid_of_isChain hbetween fun _ => hl) hgs
    | l :: k :: g, _, hchain, hbetween =>
      have hblank := isBlankSegment_of_isChain hchain
      exact .run (by simp) hblank
        (startsSolid_of_isChain hbetween fun hg => hblank _ (List.getLast_mem hg)) hgs

/-! ## Collapsing, group by group -/

theorem newline_not_mem_carriageOf (l : Text) : '\n' ∉ carriageOf l := by
  rw [carriageOf]
  split
  · decide
  · exact List.not_mem_nil

theorem shrinkGroups_single (before l : Text) (gs : List (List Text)) :
    shrinkGroups before ([l] :: gs) = l :: shrinkGroups l gs := rfl

theorem shrinkGroups_run (before : Text) {g : List Text} (hg : 2 ≤ g.length)
    (gs : List (List Text)) :
    shrinkGroups before (g :: gs) = carriageOf before :: shrinkGroups (g.getLastD before) gs := by
  rw [shrinkGroups, shrinkGroup, if_pos hg, List.singleton_append]

/-- Behind a segment, and at the front of a text that does not begin with a group of blank ones,
collapsing shrinks the groups. -/
theorem Grouped.collapseBlankLines_unlines {gs : List (List Text)} (h : Grouped gs)
    (hgs : ∀ k ∈ gs.flatten, '\n' ∉ k) {last : Text} (hlast : '\n' ∉ last) :
    (∀ l, '\n' ∉ l → collapseBlankLines (unlines (l :: gs.flatten) last) =
      unlines (l :: shrinkGroups l gs) last) ∧
    (StartsSolid gs.flatten → ∀ before, collapseBlankLines (unlines gs.flatten last) =
      unlines (shrinkGroups before gs) last) := by
  induction h with
  | nil =>
    refine ⟨fun l hl => ?_, fun _ before => collapseBlankLines_of_not_mem hlast⟩
    have hnone := afterBlankRun?_eq_none (afterBlankLine?_of_not_mem hlast)
    rw [List.flatten_nil, unlines_cons, unlines_nil, collapseBlankLines_segment_of_none hl hnone,
      collapseBlankLines_of_not_mem hlast, shrinkGroups, unlines_cons, unlines_nil]
  | @single k gs hsolid hgrouped ih =>
    rw [List.flatten_cons, List.singleton_append, List.forall_mem_cons] at hgs
    have hfront := (ih hgs.2).1 k hgs.1
    have hnone : afterBlankRun? (unlines (k :: gs.flatten) last) = none := by
      rw [afterBlankRun?, unlines_cons, afterBlankLine?_segment hgs.1]
      cases hk : isBlankSegment k with
      | false => rfl
      | true => simp [afterBlankLine?_unlines hgs.2 hlast (hsolid hk)]
    rw [List.flatten_cons, List.singleton_append]
    refine ⟨fun l hl => ?_, fun _ before => ?_⟩
    · rw [unlines_cons, collapseBlankLines_segment_of_none hl hnone, hfront, shrinkGroups_single,
        unlines_cons l]
    · rw [hfront, shrinkGroups_single]
  | @run g gs hlength hblank hsolid hgrouped ih =>
    rw [List.flatten_cons, List.forall_mem_append] at hgs
    have hrest := (ih hgs.2).2 hsolid
    have hrun : afterBlankRun? (unlines (g ++ gs.flatten) last) =
        some (unlines gs.flatten last) := by
      rw [unlines_append]
      exact afterBlankRun?_unlines hgs.1 hblank hlength (afterBlankLine?_unlines hgs.2 hlast hsolid)
    rw [List.flatten_cons]
    refine ⟨fun l hl => ?_, fun hstart => absurd hstart (not_startsSolid_append hlength hblank _)⟩
    rw [unlines_cons, collapseBlankLines_segment_of_some hl hrun, hrest (g.getLastD l),
      shrinkGroups_run l hlength, unlines_cons, unlines_cons]

/-! ## All segments -/

/-- No two blank segments follow each other in what is left of groups. -/
theorem Grouped.isChain_shrinkGroups {gs : List (List Text)} (h : Grouped gs) (before : Text) :
    (shrinkGroups before gs).IsChain (fun l k => bothBlank l k = false) ∧
      (StartsSolid gs.flatten → StartsSolid (shrinkGroups before gs)) := by
  induction h generalizing before with
  | nil => exact ⟨.nil, id⟩
  | @single l gs hsolid hgrouped ih =>
    obtain ⟨hchain, hstart⟩ := ih l
    rw [shrinkGroups_single]
    refine ⟨List.isChain_cons.mpr ⟨fun k hk => ?_, hchain⟩, fun hl k hk => hl k hk⟩
    rw [bothBlank]
    cases hl : isBlankSegment l with
    | false => rfl
    | true => rw [hstart (hsolid hl) k hk, Bool.and_false]
  | @run g gs hlength hblank hsolid hgrouped ih =>
    obtain ⟨hchain, hstart⟩ := ih (g.getLastD before)
    rw [shrinkGroups_run before hlength]
    refine ⟨List.isChain_cons.mpr ⟨fun k hk => ?_, hchain⟩, fun hfront => ?_⟩
    · rw [bothBlank, hstart hsolid k hk, Bool.and_false]
    · exact absurd hfront (not_startsSolid_append hlength hblank _)

theorem newline_not_mem_of_mem_shrinkGroups {gs : List (List Text)}
    (hgs : ∀ k ∈ gs.flatten, '\n' ∉ k) (before : Text) :
    ∀ k ∈ shrinkGroups before gs, '\n' ∉ k := by
  induction gs generalizing before with
  | nil => exact List.forall_mem_nil _
  | cons g gs ih =>
    rw [List.flatten_cons, List.forall_mem_append] at hgs
    rw [shrinkGroups, List.forall_mem_append, shrinkGroup]
    refine ⟨?_, ih hgs.2 _⟩
    split
    · exact List.forall_mem_singleton.mpr (newline_not_mem_carriageOf before)
    · exact hgs.1

theorem shrinkSegments_concat (first : Text) (ls : List Text) (last : Text) :
    shrinkSegments (first :: (ls ++ [last])) =
      first :: shrinkGroups first (ls.splitBy bothBlank) ++ [last] := by
  rw [shrinkSegments, List.dropLast_concat, List.getLast?_concat, Option.toList_some]

/-- **Collapsing blank lines leaves one of each group of two or more, and all else as it was.** -/
theorem segments_collapseBlankLines (s : Text) :
    segments (collapseBlankLines s) = shrinkSegments (segments s) ∧
      (interior (segments (collapseBlankLines s))).IsChain
        fun l k => ¬(isBlankSegment l = true ∧ isBlankSegment k = true) := by
  obtain ⟨ls, last, hls, hlast, rfl⟩ := exists_unlines s
  cases ls with
  | nil =>
    rw [unlines_nil, collapseBlankLines_of_not_mem hlast, segments,
      List.splitOn_eq_singleton hlast]
    exact ⟨rfl, .nil⟩
  | cons first ls =>
    rw [List.forall_mem_cons] at hls
    have hgrouped := grouped_splitBy ls
    have hflatten := List.flatten_splitBy bothBlank ls
    have hgs : ∀ k ∈ (ls.splitBy bothBlank).flatten, '\n' ∉ k := by
      rw [hflatten]
      exact hls.2
    have hcollapse := (hgrouped.collapseBlankLines_unlines hgs hlast).1 first hls.1
    rw [hflatten] at hcollapse
    have hleft := segments_unlines (List.forall_mem_cons.mpr
      ⟨hls.1, newline_not_mem_of_mem_shrinkGroups hgs first⟩) hlast
    rw [hcollapse, hleft, segments_unlines (List.forall_mem_cons.mpr hls) hlast, List.cons_append,
      List.cons_append, shrinkSegments_concat]
    refine ⟨rfl, ?_⟩
    rw [interior, List.tail_cons, List.dropLast_concat]
    refine (hgrouped.isChain_shrinkGroups first).1.imp fun l k hlk => ?_
    rw [← Bool.and_eq_true_iff, ← bothBlank, hlk]
    decide

/-- Of a group of three a carriage return is left, for the line before it has one. A blank segment
between two others stays. -/
example : shrinkSegments (segments "a\r\n \n\t\n\nb\n \nc".toList) =
    segments "a\r\n\r\nb\n \nc".toList := by
  decide +kernel

end PromptTemplate.Template
