import PromptTemplate.Proofs.Template.Form
import PromptTemplate.Proofs.Template.Sentinel

/-!
# Proofs/Template/Defaults — what the values hold once the defaults are filled in

    {{@a, default=x}} {{@b}} {{@c}}     a: " ", b: 1, c: " ", d: " "   supplied
                                        a: "x", b: 1, c: " ", d: " "   completed

An identifier is meant to get what is supplied or its default, and an input with neither nothing at
all (`intended?`). Values are completed by putting defaults in, though, and nothing is taken out: a
blank value of an input without a usable default stays, like `c` above. **The values come out as
intended just when every input that is supplied is provided for** (`get?_resolve_ofTemplate`).

What is filled in is not blank, so it is as good as supplied: **completed values are complete, and
give the same prompt** (`resolve_resolve_ofTemplate`).
-/

namespace PromptTemplate

namespace Values

theorem get?_of_nonBlank? {vs : Values} {k : Text} {v : Value} (h : vs.nonBlank? k = some v) :
    vs.get? k = some v :=
  (Option.filter_eq_some_iff.mp h).1

end Values

namespace Registry

/-! ## What is intended -/

/-- What an identifier is to have: an input the supplied value, else its default, blank ones passed
over; all else what is supplied. -/
def intended? (r : Registry) (supplied : Values) (k : Text) : Option Value :=
  match r.input? k with
  | some e => (supplied.nonBlank? k).or ((e.default?.filter (!Text.isAllBlank ·)).map .text)
  | none => supplied.get? k

variable {r : Registry}

/-- **An identifier gets what is intended; where that is nothing, it keeps what is supplied.** -/
theorem get?_resolve (h : Distinct r.entries) (supplied : Values) (k : Text) :
    (r.resolve supplied).get? k = (r.intended? supplied k).or (supplied.get? k) := by
  rw [resolve, get?_foldl_resolveEntry (distinct_inputs h), ← input?, intended?]
  cases he : r.input? k with
  | none => simp
  | some e =>
    obtain rfl := identifier_of_input? he
    rw [Option.bind_some, fallback?]
    cases hv : supplied.nonBlank? e.identifier with
    | none => rfl
    | some v => simpa using Values.get?_of_nonBlank? hv

/-- Something is intended for an input just when it is provided for. -/
theorem intended?_isSome_iff {supplied : Values} {k : Text} {e : Entry}
    (he : r.input? k = some e) :
    (r.intended? supplied k).isSome = true ↔ e.Provided supplied := by
  obtain rfl := identifier_of_input? he
  rw [intended?, he, Entry.Provided]
  simp [Option.any_eq_true]

/-- A value comes out as intended unless nothing is intended and something supplied. -/
theorem get?_resolve_eq_intended?_iff (h : Distinct r.entries) (supplied : Values) (k : Text) :
    (r.resolve supplied).get? k = r.intended? supplied k ↔
      ∀ e, r.input? k = some e → (supplied.get? k).isSome = true → e.Provided supplied := by
  rw [get?_resolve h]
  cases he : r.input? k with
  | none => simp [intended?, he]
  | some e =>
    simp only [← intended?_isSome_iff he, Option.some.injEq, forall_eq']
    cases r.intended? supplied k with
    | some v => simp
    | none => simp

/-- **Values that are completed hold what is intended, and beside it the blank values of inputs for
which nothing is**; so all of them come out as intended just when every input that is supplied is
provided for. -/
theorem get?_resolve_ofTemplate (s : Text) (supplied : Values) :
    (∀ k, ((ofTemplate s).resolve supplied).get? k =
      ((ofTemplate s).intended? supplied k).or (supplied.get? k)) ∧
    ((∀ k, ((ofTemplate s).resolve supplied).get? k = (ofTemplate s).intended? supplied k) ↔
      ∀ e ∈ (ofTemplate s).inputs, (supplied.get? e.identifier).isSome = true →
        e.Provided supplied) := by
  have h := (reflects_ofTemplate s).distinct
  refine ⟨get?_resolve h supplied, ?_⟩
  simp only [get?_resolve_eq_intended?_iff h]
  constructor
  · intro hall e he
    exact hall e.identifier e ((input?_eq_some_iff_mem h).mpr ⟨he, rfl⟩)
  · intro hall k e he
    obtain ⟨hmem, rfl⟩ := (input?_eq_some_iff_mem h).mp he
    exact hall e hmem

/-- A blank value of a definition without a default is not taken out. -/
theorem exists_get?_resolve_ne :
    ¬ ∀ (s : Text) (supplied : Values) (k : Text),
      ((ofTemplate s).resolve supplied).get? k = (ofTemplate s).intended? supplied k := by
  intro h
  have hdistinct := (reflects_ofTemplate (Template.braced "@topic".toList)).distinct
  have htopic := h (Template.braced "@topic".toList)
    (Values.empty.insert "topic".toList (.text [' '])) "topic".toList
  -- the kernel does not evaluate the sort of the inputs, so the entry is looked up without it
  rw [get?_resolve hdistinct, intended?, input?, find?_inputs hdistinct] at htopic
  revert htopic
  decide +kernel

/-! ## Completed values -/

/-- A value that is not blank is what is intended. -/
theorem intended?_of_nonBlank? {supplied : Values} {k : Text} {v : Value}
    (hv : supplied.nonBlank? k = some v) : r.intended? supplied k = some v := by
  rw [intended?]
  cases r.input? k with
  | some e => simp only [hv, Option.some_or]
  | none => exact Values.get?_of_nonBlank? hv

/-- What is filled in is intended as if it were supplied. -/
theorem intended?_resolve (h : Distinct r.entries) (supplied : Values) (k : Text) :
    r.intended? (r.resolve supplied) k = r.intended? supplied k := by
  rw [intended?, nonBlank?_resolve h, ← find?_inputs h, ← input?, get?_resolve h, intended?]
  cases r.input? k with
  | some e => simp only [Option.bind_some, Option.or_assoc, Option.or_self]
  | none => simp only [Option.or_self]

/-- **Values that are completed stay as they are when they are completed again.** -/
theorem resolve_resolve (h : Distinct r.entries) (supplied : Values) :
    r.resolve (r.resolve supplied) = r.resolve supplied := by
  refine Values.ext_get? fun k => ?_
  rw [get?_resolve h, intended?_resolve h, get?_resolve h, ← Option.or_assoc, Option.or_self]

/-- **Completed values are complete, keep every supplied value that is not blank, and give the
prompt that the supplied ones give.** -/
theorem resolve_resolve_ofTemplate (s : Text) (supplied : Values) :
    (ofTemplate s).resolve ((ofTemplate s).resolve supplied) = (ofTemplate s).resolve supplied ∧
    (∀ k v, supplied.nonBlank? k = some v →
      ((ofTemplate s).resolve supplied).get? k = some v) ∧
    ∀ model existing config,
      generatePrompt s ⟨(ofTemplate s).resolve supplied, model, existing, config⟩ =
        generatePrompt s ⟨supplied, model, existing, config⟩ := by
  have h := (reflects_ofTemplate s).distinct
  have hagain := resolve_resolve h supplied
  refine ⟨hagain, fun k v hv => ?_, fun model existing config => ?_⟩
  · rw [get?_resolve h, intended?_of_nonBlank? hv, Option.some_or]
  · simp only [generatePrompt, hagain]

/-- A blank value with a default, a blank value without one, and a zero. -/
theorem resolve_resolve_ofTemplate_zero :
    let s := Template.braced "@a, default=x".toList ++ Template.braced ['b'] ++
      Template.braced ['c']
    let supplied := ((Values.empty.insert ['a'] (.text [' '])).insert ['b'] .null).insert ['c']
      (.integer 0)
    supplied.nonBlank? ['c'] = some (.integer 0) ∧
    (ofTemplate s).resolve ((ofTemplate s).resolve supplied) = (ofTemplate s).resolve supplied ∧
    ((ofTemplate s).resolve supplied).get? ['c'] = some (.integer 0) ∧
    ∀ model existing config,
      generatePrompt s ⟨(ofTemplate s).resolve supplied, model, existing, config⟩ =
        generatePrompt s ⟨supplied, model, existing, config⟩ := by
  intro s supplied
  obtain ⟨hagain, hkept, hprompt⟩ := resolve_resolve_ofTemplate s supplied
  have hzero : supplied.nonBlank? ['c'] = some (.integer 0) := by decide
  exact ⟨hzero, hagain, hkept _ _ hzero, hprompt⟩

end Registry

end PromptTemplate
