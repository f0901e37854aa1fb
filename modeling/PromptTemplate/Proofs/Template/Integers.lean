import PromptTemplate.Proofs.Decimal.Shortest
import PromptTemplate.Proofs.Placeholder.Completeness
import PromptTemplate.Proofs.Template.Delimited
import PromptTemplate.Proofs.Template.Segments
import PromptTemplate.Proofs.Values.Json
import PromptTemplate.Template.Render

/-!
# Proofs/Template/Integers — integers from a file to a prompt

    {"k": -9223372036854775808}    {{k}}  →  -9223372036854775808
    {"k": 18446744073709551615}    {{k}}  →  18446744073709552000

An integer that has 64 signed bits is printed as it was written. A larger one is a double from the
moment it is read, and what is printed is the number that this double is displayed as
(`render_integer`). That is the written one for `10000000000000000000`, but **not for every one**
(`exists_render_ne`).
-/

namespace PromptTemplate

open Json Placeholder Placeholder.Grammar

/-- The object with one member. -/
def objectText (k e : Text) : Text :=
  '\x7b' :: '"' :: (k ++ '"' :: ':' :: ' ' :: (e ++ ['\x7d']))

/-! ## Reading -/

theorem Placeholder.Grammar.stringText_name (k : Name) : StringText k.val k.val := by
  refine stringText_self fun c hc => ?_
  have hident := k.2.2 c hc
  have hne (d : Char) (hd : Token.isIdentChar d = false) : c ≠ d := fun heq =>
    Bool.false_ne_true (hd.symm.trans (heq ▸ hident))
  refine ⟨hne _ (by decide), hne _ (by decide), ?_⟩
  simp only [Token.isIdentChar, Bool.or_eq_true, Bool.and_eq_true, decide_eq_true_eq, Char.le_def,
    UInt32.le_iff_toNat_le, beq_iff_eq] at hident
  obtain ((⟨hlow, -⟩ | ⟨hlow, -⟩) | ⟨hlow, -⟩) | rfl := hident
  · exact Nat.le_trans (by decide) hlow
  · exact Nat.le_trans (by decide) hlow
  · exact Nat.le_trans (by decide) hlow
  · decide

theorem Values.ofJson_objectText (k : Name) {e : Text} {v : Value} (he : Literal e v) :
    ofJson (objectText k.val e) = .ok (ofList [(k.val, v)]) := by
  have hmember := FlatMember.mk (stringText_name k) blank_nil
    (show Blank [' '] by simp [Blank, isSpace]) he
  refine ofJson_eq_ok.mpr ⟨_, ⟨[], _, [], blank_nil, .items (.one blank_nil hmember blank_nil),
    blank_nil, ?_⟩, rfl⟩
  simp [objectText]

/-- A number above the signed integers is a double. -/
theorem Values.literal_of_lt {e : Text} {n : Int} (he : IntegerText e n) (hne : e ≠ ['-', '0'])
    (hn : Int64.maxValue.toInt < n) (hhigh : n < UInt64.size) :
    Literal e (.real (Binary64.ofNat n.toNat)) := by
  have hmax : Int64.maxValue.toInt = 9223372036854775807 := rfl
  have hmin : Int64.minValue.toInt = -9223372036854775808 := rfl
  have hscalar : Scalar e (.number (.integer n)) :=
    scalar_integer_iff.mpr ⟨he, hne, by omega, hhigh⟩
  have hreal : Json.Number.nearest (.integer n) = Binary64.ofNat n.toNat := by
    have hsign : decide (n < 0) = false := decide_eq_false (by omega)
    have hnat : n.natAbs = n.toNat := by omega
    rw [Json.Number.nearest, hsign, hnat, Binary64.ofNat]
  refine hreal ▸ .real hscalar fun m hm => ?_
  by_contra _
  have hunique := hscalar.unique (scalar_int64_iff.mpr ⟨hm, hne⟩)
  obtain rfl : n = m.toInt := Json.Number.integer.inj (Json.number.inj hunique)
  exact absurd m.toInt_le (Int.not_le.mpr hn)

/-! ## Printing -/

namespace Template

theorem parse_braced (k : Name) :
    Placeholder.parse (braced k.val) = .ok ⟨.reference, k.val, []⟩ := by
  have h := parse_complete ⟨noGap, noGap, .named none k [], noGap, noGap⟩
  simpa [text_eq_braced, inner, Body.text, signText, noGap, Derivation.node, Body.node] using h

/-- A template that is one reference is rendered as the value, if that has no blanks. -/
theorem render_braced (k : Name) {vs : Values} {v : Value} (hv : vs.nonBlank? k.val = some v)
    (hblank : ∀ c ∈ v.display, Text.isBlank c = false) (config : RenderConfig) :
    render vs config (braced k.val) = v.display := by
  have hpieces := pieces_append_braced (unbraced_name k) [] []
  rw [List.nil_append, List.append_nil, pieces_nil, List.nil_append] at hpieces
  have hfill : fill vs config (braced k.val) = v.display := by
    rw [fill, hpieces, List.flatMap_cons, List.flatMap_nil, List.append_nil, renderPiece,
      substitute, parse_braced k]
    simp only [substituteNode, hv, Modifier.isMetadata, Bool.false_eq_true, if_false]
  have hnewline : '\n' ∉ v.display := fun h => absurd (hblank _ h) (by decide)
  rw [render, hfill, collapseBlankLines_of_not_mem hnewline, ite_self,
    Text.trim_of_forall_not_isBlank hblank]

/-- What is read from a literal is rendered as it is displayed. -/
theorem exists_render_eq (k : Name) {e : Text} {v : Value} (he : Values.Literal e v)
    (hv : v.isBlank = false) (hblank : ∀ c ∈ v.display, Text.isBlank c = false)
    (config : RenderConfig) :
    ∃ vs, Values.ofJson (objectText k.val e) = .ok vs ∧
      render vs config (braced k.val) = v.display :=
  ⟨_, Values.ofJson_objectText k he,
    render_braced k (Values.nonBlank?_insert_self .empty k.val hv) hblank config⟩

theorem displayReal_ofNat {n : Nat} (hlow : 2 ^ 63 ≤ n) (hhigh : n < 2 ^ 64) :
    ∃ m p x : Nat, Binary64.ofNat n = .finite false m p ∧ Decimal.Displayed m p x ∧
      Value.displayReal (Binary64.ofNat n) = Decimal.digits x := by
  have hne : n ≠ 0 := by omega
  have hlog : 63 ≤ n.log2 := (Nat.le_log2 hne).mpr hlow
  have hlog' : n.log2 < 64 := (Nat.log2_lt hne).mpr hhigh
  obtain ⟨m, p, hcoarse, hn⟩ := Binary64.exists_coarse (y := n) (by omega) (by omega)
  obtain ⟨x, hx, htext⟩ := Decimal.Layout.magnitudeText_eq (l := Value.realLayout) rfl
    (fun _ => rfl) rfl hcoarse
  exact ⟨m, p, x, hn, hx, by rw [hn]; exact htext⟩

/-- **Integers from a file to a prompt.** All that have 64 bits are read. Those in the range of the
signed ones are printed as they are written, and a larger one as the number that its double is
displayed as. -/
theorem render_integer (k : Name) {e : Text} {n : Int} (he : IntegerText e n) (hne : e ≠ ['-', '0'])
    (hlow : Int64.minValue.toInt ≤ n) (hhigh : n < UInt64.size) (config : RenderConfig) :
    ∃ vs, Values.ofJson (objectText k.val e) = .ok vs ∧
      (n ≤ Int64.maxValue.toInt → render vs config (braced k.val) = e) ∧
      (Int64.maxValue.toInt < n → ∃ m p x : Nat,
        Binary64.ofNat n.toNat = .finite false m p ∧ Decimal.Displayed m p x ∧
        render vs config (braced k.val) = Decimal.digits x ∧
        (render vs config (braced k.val) = e ↔ x = n)) := by
  have hmax : Int64.maxValue.toInt = 9223372036854775807 := rfl
  have hsize : UInt64.size = 18446744073709551616 := rfl
  have htext : e = Decimal.integerText n := he.eq_integerText hne
  by_cases hn : n ≤ Int64.maxValue.toInt
  · obtain ⟨i, rfl⟩ := Values.mem_int64_iff.mp ⟨hlow, hn⟩
    obtain ⟨vs, hvs, hrender⟩ := exists_render_eq k (.integer he hne) rfl
      Decimal.isBlank_of_mem_integerText config
    exact ⟨vs, hvs, fun _ => hrender.trans htext.symm, fun h => absurd h (Int.not_lt.mpr hn)⟩
  · obtain ⟨m, p, x, hn', hx, hdisplay⟩ := displayReal_ofNat (n := n.toNat) (by omega) (by omega)
    have hblank : ∀ c ∈ Value.displayReal (Binary64.ofNat n.toNat), Text.isBlank c = false := by
      rw [hdisplay]
      exact Decimal.isBlank_of_mem_digits
    obtain ⟨vs, hvs, hrender⟩ := exists_render_eq k
      (Values.literal_of_lt he hne (Int.not_le.mp hn) hhigh) rfl hblank config
    have hdigits : render vs config (braced k.val) = Decimal.digits x := hrender.trans hdisplay
    refine ⟨vs, hvs, fun h => absurd h hn, fun _ => ⟨m, p, x, hn', hx, hdigits, ?_⟩⟩
    rw [hdigits, htext, Decimal.integerText, if_neg (by omega), Decimal.digits_injective.eq_iff]
    omega

/-- The identifier `k`. -/
def nameK : Name := ⟨['k'], List.cons_ne_nil _ _, List.forall_mem_singleton.mpr rfl⟩

/-- The least integer is printed as it is written, and the largest as the number that the double
`2 ^ 64` is displayed as. -/
theorem render_integer_extremes :
    (∃ vs, Values.ofJson (objectText ['k'] "-9223372036854775808".toList) = .ok vs ∧
      render vs .default (braced ['k']) = "-9223372036854775808".toList) ∧
    ∃ vs, Values.ofJson (objectText ['k'] "18446744073709551615".toList) = .ok vs ∧
      ∃ m p x : Nat, Binary64.ofNat 18446744073709551615 = .finite false m p ∧
        Decimal.Displayed m p x ∧ render vs .default (braced ['k']) = Decimal.digits x := by
  have hleast : "-9223372036854775808".toList = Decimal.integerText (-9223372036854775808) := by
    decide +kernel
  have hlargest : "18446744073709551615".toList = Decimal.integerText 18446744073709551615 := by
    decide +kernel
  constructor
  · rw [hleast]
    obtain ⟨vs, hvs, hsigned, -⟩ := render_integer nameK
      (integerText_integerText (-9223372036854775808)) (by decide +kernel) (by decide) (by decide)
      .default
    exact ⟨vs, hvs, hsigned (by decide)⟩
  · rw [hlargest]
    obtain ⟨vs, hvs, -, hlarge⟩ := render_integer nameK
      (integerText_integerText 18446744073709551615) (by decide +kernel) (by decide) (by decide)
      .default
    obtain ⟨m, p, x, hm, hx, hrender, -⟩ := hlarge (by decide)
    exact ⟨vs, hvs, m, p, x, hm, hx, hrender⟩

/-- The largest integer of 64 bits is not printed as it is written. -/
theorem exists_render_ne :
    ¬ ∀ (k : Name) (e : Text) (n : Int), IntegerText e n → e ≠ ['-', '0'] →
      Int64.minValue.toInt ≤ n → n < UInt64.size →
      ∃ vs, Values.ofJson (objectText k.val e) = .ok vs ∧
        render vs .default (braced k.val) = e := by
  intro h
  have he := integerText_integerText 18446744073709551615
  have hne : Decimal.integerText 18446744073709551615 ≠ ['-', '0'] := by decide +kernel
  obtain ⟨vs, hvs, hrender⟩ := h nameK _ 18446744073709551615 he hne (by decide) (by decide)
  have hliteral := Values.literal_of_lt he hne (by decide) (by decide)
  rw [Values.ofJson_objectText nameK hliteral] at hvs
  obtain rfl := Except.ok.inj hvs
  revert hrender
  decide +kernel

end Template

end PromptTemplate
