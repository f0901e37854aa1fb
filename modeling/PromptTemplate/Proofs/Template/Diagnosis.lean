import PromptTemplate.Proofs.Placeholder.Placement
import PromptTemplate.Proofs.Template.Registry
import PromptTemplate.Proofs.Template.Spans

/-!
# Proofs/Template/Diagnosis — every occurrence is folded or reported

    {{@a}} {{b c}} {{a}}     0 and 2 are folded into `a`; 1 is reported, at `c`

The survey of a template parts its occurrences into those that parse, which are folded into the
registry with their indices, and those that do not, each of which has a diagnostic with its span.
The fault of an occurrence takes a part of its text, and the offset of the occurrence makes that a
part of the template (`inside_shift`). So **every occurrence is folded or reported once, and what is
reported lies inside it** (`surveyed`).
-/

namespace PromptTemplate

open Placeholder Template Text

namespace Template

/-- The occurrences that are placeholders, each with its index among all of them. -/
def parsed (os : List (Occurrence × Nat)) : List (Node × Nat) :=
  os.filterMap fun p => (Placeholder.parse p.1.text).toOption.map (·, p.2)

/-- The occurrences that are no placeholders. -/
def unparsed (os : List Occurrence) : List Occurrence :=
  os.filter fun o => (Placeholder.parse o.text).toOption.isNone

theorem map_fst_parsed (index : Nat) (os : List Occurrence) :
    (parsed (os.zipIdx index)).map Prod.fst =
      os.filterMap fun o => (Placeholder.parse o.text).toOption := by
  induction os generalizing index with
  | nil => rfl
  | cons o os ih =>
    rw [List.zipIdx_cons, parsed, List.filterMap_cons, List.filterMap_cons, ← ih]
    cases Placeholder.parse o.text with
    | ok n => rfl
    | error f => rfl

end Template

namespace Registry

/-! ## The two sides of the survey -/

/-- Folding goes over the occurrences that are placeholders. -/
theorem survey_registry (r : Registry) (index : Nat) (os : List Occurrence) :
    (r.survey index os).1 = (parsed (os.zipIdx index)).foldl (fun r p => r.add p.1 p.2) r := by
  induction os generalizing r index with
  | nil => rfl
  | cons o os ih =>
    rw [survey, List.zipIdx_cons, parsed, List.filterMap_cons]
    cases Placeholder.parse o.text with
    | ok n => exact ih _ _
    | error f => exact ih _ _

/-- Each of the others has one diagnostic, which has its span. -/
theorem survey_spans (r : Registry) (index : Nat) (os : List Occurrence) :
    (r.survey index os).2.map (fun d => (d.start, d.stop)) =
      (unparsed os).map fun o => (o.start, o.stop) := by
  induction os generalizing r index with
  | nil => rfl
  | cons o os ih =>
    rw [survey, unparsed, List.filter_cons]
    cases Placeholder.parse o.text with
    | ok n => exact ih _ _
    | error f => exact congrArg (_ :: ·) (ih _ _)

theorem exists_of_mem_survey {r : Registry} {index : Nat} {os : List Occurrence} {d : Diagnostic}
    (h : d ∈ (r.survey index os).2) :
    ∃ o ∈ os, ∃ f, Placeholder.parse o.text = .error f ∧ d = diagnose o f := by
  induction os generalizing r index with
  | nil => exact absurd h List.not_mem_nil
  | cons o os ih =>
    rw [survey] at h
    have hlater : ∀ {r : Registry}, d ∈ (r.survey (index + 1) os).2 →
        ∃ o' ∈ o :: os, ∃ f, Placeholder.parse o'.text = .error f ∧ d = diagnose o' f := by
      intro r hd
      obtain ⟨o', ho', hfault⟩ := ih hd
      exact ⟨o', List.mem_cons_of_mem o ho', hfault⟩
    cases hparse : Placeholder.parse o.text with
    | ok n =>
      rw [hparse] at h
      exact hlater h
    | error f =>
      rw [hparse] at h
      obtain rfl | hd := List.mem_cons.mp h
      · exact ⟨o, List.mem_cons_self, f, hparse, rfl⟩
      · exact hlater hd

/-! ## Where issues lie -/

/-- A part of the template that is not empty, between two of its characters. -/
structure Inside (s : Text) (d : Diagnostic) (i : Issue) : Prop where
  start_le : d.start ≤ i.start
  start_lt_stop : i.start < i.stop
  stop_le : i.stop ≤ d.stop
  isValid_start : String.Pos.Raw.IsValid (String.ofList s) ⟨i.start⟩
  isValid_stop : String.Pos.Raw.IsValid (String.ofList s) ⟨i.stop⟩

/-- **The fault of an occurrence lies inside it**, at its offset in the template. -/
theorem inside_shift {s : Text} {o : Occurrence} {f : Fault} (ho : o ∈ scan s)
    (h : Placeholder.parse o.text = .error f) :
    Inside s (diagnose o f) (f.issue.shift o.start) := by
  obtain ⟨hbody, a, b, hs, hstart⟩ := mem_scan_iff.mp ho
  obtain ⟨p, w, q, hw, htext, hfstart, hfstop⟩ := exists_slice_of_parse hbody h
  have hbytes := bytes_pos hw
  have hlength := congrArg bytes htext
  rw [bytes_append, bytes_append] at hlength
  have hshift : (f.issue.shift o.start).start = bytes (a ++ p) := by
    rw [bytes_append, hstart, ← hfstart, Nat.add_comm]
    rfl
  have hshift' : (f.issue.shift o.start).stop = bytes (a ++ (p ++ w)) := by
    rw [bytes_append, bytes_append, hstart, ← hfstop, Nat.add_comm]
    rfl
  have hcut : s = (a ++ p) ++ (w ++ q ++ b) := by
    rw [hs, Occurrence.text, htext]
    simp
  have hcut' : s = (a ++ (p ++ w)) ++ (q ++ b) := by
    rw [hcut]
    simp
  refine ⟨?_, ?_, ?_, ?_, ?_⟩
  · rw [hshift, bytes_append, hstart]
    exact Nat.le_add_right _ _
  · rw [hshift, hshift', bytes_append, bytes_append, bytes_append]
    omega
  · rw [hshift', bytes_append, bytes_append, hstart]
    change _ ≤ o.start + bytes (braced o.body)
    omega
  · rw [hshift, hcut]
    exact isValid_append (a ++ p) (w ++ q ++ b)
  · rw [hshift', hcut']
    exact isValid_append (a ++ (p ++ w)) (q ++ b)

/-! ## All of it -/

/-- What the survey of a template comes to. -/
structure Surveyed (s : Text) (r : Registry) (ds : List Diagnostic) : Prop where
  /-- The registry is folded from the occurrences that are placeholders, in order. -/
  folded : r = (parsed (scan s).zipIdx).foldl (fun r p => r.add p.1 p.2) .empty
  reflects : r.Reflects ((parsed (scan s).zipIdx).map Prod.fst)
  /-- Each of the other occurrences has one diagnostic, in order. -/
  reported : ds.map (fun d => (d.start, d.stop)) =
    (unparsed (scan s)).map fun o => (o.start, o.stop)
  /-- No two diagnostics share a byte. -/
  ascending : ds.Pairwise fun d d' => d.stop ≤ d'.start
  issues_ne_nil : ∀ d ∈ ds, d.issues ≠ []
  inside : ∀ d ∈ ds, ∀ i ∈ d.issues, Inside s d i

/-- **Every occurrence is folded into the registry or has one diagnostic, with its span; and each of
the issues lies inside that span**, between two characters of the template. -/
theorem surveyed (s : Text) : Surveyed s (ofTemplate s) (diagnostics s) := by
  have hspans := survey_spans .empty 0 (scan s)
  refine ⟨survey_registry .empty 0 (scan s), ?_, hspans, ?_, ?_, ?_⟩
  · rw [map_fst_parsed, scan, filterMap_occurrencesFrom]
    exact reflects_ofTemplate s
  · have hascending : (unparsed (scan s)).Pairwise fun o o' => o.stop ≤ o'.start :=
      (pairwise_occurrencesFrom 0 (pieces s)).filter _
    have hpairs : ((diagnostics s).map fun d => (d.start, d.stop)).Pairwise
        fun p p' => p.2 ≤ p'.1 := by
      rw [diagnostics, hspans]
      exact List.pairwise_map.mpr hascending
    exact List.pairwise_map.mp hpairs
  · intro d hd
    obtain ⟨o, -, f, -, rfl⟩ := exists_of_mem_survey hd
    exact List.cons_ne_nil _ _
  · intro d hd i hi
    obtain ⟨o, ho, f, hparse, rfl⟩ := exists_of_mem_survey hd
    obtain rfl := List.mem_singleton.mp hi
    exact inside_shift ho hparse

/-- The second occurrence is reported, at `ç`. -/
example :
    (diagnostics "\x7b\x7b@a\x7d\x7d \x7b\x7bb ç\x7d\x7d \x7b\x7ba\x7d\x7d".toList).map
        (fun d => (d.start, d.stop, d.issues.map fun i => (i.start, i.stop))) =
      [(7, 15, [(11, 13)])] := by decide +kernel

end Registry

end PromptTemplate
