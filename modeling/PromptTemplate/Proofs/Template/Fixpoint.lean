import PromptTemplate.Proofs.Template.Collapsing
import PromptTemplate.Proofs.Template.Leakage
import PromptTemplate.Proofs.Template.Spans
import PromptTemplate.Proofs.Values.Map

/-!
# Proofs/Template/Fixpoint — rendering what was rendered

    a {{b}} ↵ ↵ ↵ c   →   a x ↵ ↵ c   →   a x ↵ ↵ c

Where all braces belong to occurrences (`Enclosed`), cutting the occurrences out leaves no braces,
and so does filling them in with texts that have none. Such a text has no occurrences, it is filled
in as it stands, and tidying up a second time changes nothing: **what was rendered is rendered as
itself** (`render_render`).
-/

namespace PromptTemplate.Template

open Placeholder Text

/-! ## Braces that belong to occurrences -/

/-- **Each brace of the template lies inside an occurrence.** -/
def Enclosed (s : Text) : Prop :=
  ∀ (i : Nat) (h : i < s.length), Token.isBrace s[i] = true →
    ∃ o ∈ scan s, o.start ≤ bytes (s.take i) ∧ bytes (s.take i) < o.stop

instance : DecidablePred Enclosed := fun s =>
  inferInstanceAs (Decidable (∀ (i : Nat) (_ : i < s.length), _ → _))

/-- Occurrences end where the text of their pieces ends. -/
theorem stop_le_of_mem {i : Nat} {ps : List Piece} {o : Occurrence}
    (h : o ∈ occurrencesFrom i ps) : o.stop ≤ i + bytes (ps.flatMap Piece.text) := by
  obtain ⟨qs, rs, rfl, hstart⟩ := mem_occurrencesFrom.mp h
  rw [Occurrence.stop, hstart, List.flatMap_append, List.flatMap_cons, bytes_append, bytes_append]
  change i + bytes (qs.flatMap Piece.text) + bytes (Piece.occurrence o.body).text ≤ _
  omega

/-- No occurrence takes the byte where a single character stands. -/
theorem not_within_of_char {s : Text} {ps qs : List Piece} {c : Char}
    (h : pieces s = ps ++ .char c :: qs) {o : Occurrence} (ho : o ∈ scan s)
    (hstart : o.start ≤ bytes (ps.flatMap Piece.text)) :
    o.stop ≤ bytes (ps.flatMap Piece.text) := by
  rw [scan, h, occurrencesFrom_append, List.mem_append, occurrencesFrom, Nat.zero_add] at ho
  obtain hbefore | hbehind := ho
  · simpa using stop_le_of_mem hbefore
  · have hle := le_start_of_mem hbehind
    have hpos := c.utf8Size_pos
    omega

theorem unbraced_remnant {s : Text} (h : Enclosed s) : Unbraced (remnant s) := by
  intro c hc
  obtain ⟨p, hp, hcp⟩ := List.mem_flatMap.mp hc
  cases p with
  | occurrence body => exact absurd hcp List.not_mem_nil
  | char d =>
    obtain rfl : c = d := List.mem_singleton.mp hcp
    obtain ⟨ps, qs, hpieces⟩ := List.append_of_mem hp
    have hs : s = ps.flatMap Piece.text ++ c :: qs.flatMap Piece.text := by
      rw [← flatten_pieces s, hpieces, List.flatMap_append, List.flatMap_cons]
      rfl
    refine Bool.eq_false_iff.mpr fun hbrace => ?_
    have hlt : (ps.flatMap Piece.text).length < s.length := by
      rw [hs, List.length_append, List.length_cons]
      omega
    have htake : s.take (ps.flatMap Piece.text).length = ps.flatMap Piece.text := by
      conv_lhs => rw [hs]
      exact List.take_left
    obtain ⟨o, ho, hstart, hstop⟩ := h _ hlt (by simpa [hs] using hbrace)
    rw [htake] at hstart hstop
    exact absurd (not_within_of_char hpieces ho hstart) (by omega)

/-! ## Texts without braces -/

theorem scan_of_unbraced {t : Text} (h : Unbraced t) : scan t = [] := by
  refine scan_eq_nil_iff.mpr ?_
  rintro ⟨a, body, b, -, rfl⟩
  exact absurd (h '\x7b' (by simp [braced])) (by decide)

/-- A template without occurrences is filled in as it stands. -/
theorem fill_of_scan_eq_nil {t : Text} (h : scan t = []) (values : Values)
    (config : RenderConfig) : fill values config t = t := by
  conv_rhs => rw [← flatten_pieces t]
  refine List.flatMap_congr fun p hp => ?_
  cases p with
  | char c => rfl
  | occurrence body =>
    obtain ⟨o, ho, -⟩ := exists_mem_scan_body_iff.mpr hp
    exact absurd ho (by simp [h])

theorem unbraced_fill {values : Values} {config : RenderConfig} {s : Text}
    (h : ∀ body, Unbraced (substitute values config body)) (hs : Unbraced (remnant s)) :
    Unbraced (fill values config s) := by
  intro c hc
  obtain ⟨p, hp, hcp⟩ := List.mem_flatMap.mp hc
  cases p with
  | char d => exact hs c (List.mem_flatMap.mpr ⟨_, hp, hcp⟩)
  | occurrence body => exact h body c hcp

/-! ## Rendering again -/

/-- **What was rendered is rendered as itself, and has no placeholders**: for a template whose
braces all belong to occurrences, and values and a sentinel without braces. -/
theorem render_render {s : Text} {values : Values} {config : RenderConfig} (hs : Enclosed s)
    (hvalues : ∀ k v, values.get? k = some v → Unbraced v.display)
    (hsentinel : Unbraced config.sentinel) (hcollapse : config.collapse = true) :
    (∀ (values' : Values) (config' : RenderConfig),
      render values' config' (render values config s) = render values config s) ∧
      Registry.ofTemplate (render values config s) = .empty := by
  have hfill : Unbraced (fill values config s) :=
    unbraced_fill (unbraced_substitute hvalues hsentinel) (unbraced_remnant hs)
  have hscan : scan (render values config s) = [] := by
    rw [render_eq_tidy, scan_tidy_eq_nil_iff]
    exact scan_of_unbraced hfill
  refine ⟨fun values' config' => ?_, ofTemplate_eq_empty hscan⟩
  rw [render_eq_tidy, fill_of_scan_eq_nil hscan, render_eq_tidy, hcollapse, tidy_tidy]

/-- A definition, two references to it with one to nothing between them, and line ends of both
kinds. -/
def letter : Text :=
  ("\x7b\x7b@a\x7d\x7d\n\nDear \x7b\x7ba\x7d\x7d,\r\n \n\t\n" ++
    "\x7b\x7bb\x7d\x7d, \x7b\x7ba\x7d\x7d\n").toList

/-- A value of several lines, most of them blank. -/
def recipient : Values := Values.empty.insert ['a'] (.text "Ann\n\n \n\nB.".toList)

theorem render_render_letter :
    (∀ (values' : Values) (config' : RenderConfig),
      render values' config' (render recipient .default letter) =
        render recipient .default letter) ∧
      Registry.ofTemplate (render recipient .default letter) = .empty := by
  have hvalues : ∀ k v, recipient.get? k = some v → Unbraced v.display := by
    intro k v h
    rw [recipient, Values.get?_insert] at h
    split at h
    · obtain rfl := Option.some.inj h
      have hall : (Value.text "Ann\n\n \n\nB.".toList).display.all (!Token.isBrace ·) := by
        decide +kernel
      exact fun c hc => by simpa using List.all_eq_true.mp hall c hc
    · exact unbraced_of_get?_empty k v h
  exact render_render (by decide +kernel) hvalues (by decide) rfl

end PromptTemplate.Template
