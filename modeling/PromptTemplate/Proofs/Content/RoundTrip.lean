import PromptTemplate.Content.Instructions
import PromptTemplate.Proofs.Json.Decoding

/-!
# Proofs/Content/RoundTrip — models that were saved are loaded again

    {"name":null,"fields":[{"name":"x","label":null,"description":null,"type":"other"}]}

A model is saved with all parts of its fields, those it does not have as `null` and the kind by its
name. It is read member by member, each at most once. `fieldStep` and `modelStep` say what a member
comes to, and the readers decode what they say (`decodes_field`, `ofJson_of_modelOf?`). What is
saved decodes to the model, so **a saved model is loaded as it was** (`ofJson_print_toJson`).
-/

namespace PromptTemplate.ContentModel

open Json

/-! ## The steps of the readers -/

/-- A part that has not been read yet, from the value of its member. -/
def onceOf? {α σ : Type} (old : Option α) (decode : Json → Option α) (set : α → σ) (v : Json) :
    Option σ :=
  match old with
  | some _ => none
  | none => (decode v).map set

def kindOf? (v : Json) : Option FieldKind := (textOf? v).map .ofName

/-- What a member of a field comes to. -/
def fieldStep (f : PartialField) (m : Text × Json) : Option PartialField :=
  if m.1 = "name".toList then onceOf? f.name textOf? (fun x => { f with name := some x }) m.2
  else if m.1 = "label".toList then
    onceOf? f.label (optionOf? textOf?) (fun x => { f with label := some x }) m.2
  else if m.1 = "description".toList then
    onceOf? f.description (optionOf? textOf?) (fun x => { f with description := some x }) m.2
  else if m.1 = "type".toList then
    onceOf? f.kind kindOf? (fun x => { f with kind := some x }) m.2
  else none

/-- A field has a name and a kind. -/
def completeField? (f : PartialField) : Option ContentField :=
  match f.name, f.kind with
  | some name, some kind => some ⟨name, f.label.getD none, f.description.getD none, kind⟩
  | _, _ => none

def fieldOf? : Json → Option ContentField :=
  recordOf? fieldStep ⟨none, none, none, none⟩ completeField?

/-- What a member of a model comes to. -/
def modelStep (m : PartialModel) (p : Text × Json) : Option PartialModel :=
  if p.1 = "name".toList then
    onceOf? m.name (optionOf? textOf?) (fun x => { m with name := some x }) p.2
  else if p.1 = "fields".toList then
    onceOf? m.fields (listOf? fieldOf?) (fun x => { m with fields := some x }) p.2
  else none

def modelOf? : Json → Option ContentModel :=
  recordOf? modelStep ⟨none, none⟩ fun m => some ⟨m.name.getD none, m.fields.getD []⟩

/-! ## What the readers decode -/

theorem once_complete {α σ : Type} {name : String} {old : Option α}
    {read : Text → Except Fault (α × Text)} {decode : Json → Option α} {set : α → σ}
    (h : Decodes read decode) {d : Nat} {b c e r : Text} {v : Json} {st : σ} (hb : Blank b)
    (hc : Blank c) (hv : Verbatim d e v) (hr : Follows r)
    (hst : onceOf? old decode set v = some st) :
    once name old read set (b ++ ':' :: (c ++ (e ++ r))) = .ok (st, r) := by
  cases old with
  | some x => exact absurd hst (by simp [onceOf?])
  | none =>
    obtain ⟨x, hx, rfl⟩ := Option.map_eq_some_iff.mp hst
    simp only [once, colon_eq_ok.mpr ⟨b, hb, rfl⟩, h hc hv hx hr]
    rfl

theorem decodes_readString : Decodes readString textOf? := decodes_readText "a string"

theorem decodes_readKind : Decodes readKind kindOf? := by
  intro d a e r v k ha hv hk hr
  obtain ⟨t, ht, rfl⟩ := Option.map_eq_some_iff.mp hk
  obtain rfl := textOf?_eq_some.mp ht
  obtain ⟨w, hw, rfl⟩ := hv.stringText
  have hread : stringBody (w ++ ['"'] ++ r) = .ok (t, r) :=
    stringBody_eq_ok.mpr ⟨w, hw, by simp⟩
  rw [readKind, blanks_item ha hv.begins]
  simp only [List.cons_append, if_true, hread]
  rfl

/-- A step and a visitor that look for the same key. -/
theorem visit_ite {σ : Type} {p : Prop} [Decidable p] {taken passed : Option σ}
    {visited skipped : Except Fault (σ × Text)} {st : σ} {r : Text}
    (h : (if p then taken else passed) = some st)
    (hvisited : taken = some st → visited = .ok (st, r))
    (hskipped : passed = some st → skipped = .ok (st, r)) :
    (if p then visited else skipped) = .ok (st, r) := by
  by_cases hp : p
  · rw [if_pos hp] at h ⊢
    exact hvisited h
  · rw [if_neg hp] at h ⊢
    exact hskipped h

theorem takesUp_fieldVisitor (d : Nat) : TakesUp fieldVisitor (Verbatim d) fieldStep where
  complete hb hc hx hr hname := by
    refine visit_ite hname (once_complete decodes_readString hb hc hx hr) fun hlabel => ?_
    refine visit_ite hlabel (once_complete decodes_readString.readOptional hb hc hx hr)
      fun hdescription => ?_
    refine visit_ite hdescription (once_complete decodes_readString.readOptional hb hc hx hr)
      fun htype => ?_
    exact visit_ite htype (once_complete decodes_readKind hb hc hx hr) nofun

theorem decodes_field : Decodes field.read fieldOf? := by
  refine decodes_readRecord takesUp_fieldVisitor _ fun {s u st f} hvisit hf => ?_
  simp only [completeField?] at hf
  split at hf
  · rename_i name kind hname hkind
    obtain rfl := Option.some.inj hf
    simp only [fieldFromObject, hvisit, completeField, hname, hkind]
  · exact absurd hf (by simp)

theorem takesUp_modelVisitor (d : Nat) : TakesUp modelVisitor (Verbatim d) modelStep where
  complete hb hc hx hr hname := by
    refine visit_ite hname (once_complete decodes_readString.readOptional hb hc hx hr)
      fun hfields => ?_
    exact visit_ite hfields (once_complete decodes_field.readList hb hc hx hr) nofun

/-- **A model is read from the members that it decodes from.** -/
theorem ofJson_of_modelOf? {d : Nat} {e : Text} {v : Json} {m : ContentModel}
    (hv : Verbatim d e v) (hm : modelOf? v = some m) : ofJson e = .ok m := by
  refine Decodes.whole (decodes_readRecord takesUp_modelVisitor _ ?_) hv hm
  intro s u st m hvisit hm
  obtain rfl := Option.some.inj hm
  rw [fromObject, hvisit]
  rfl

/-! ## What is saved -/

theorem optionOf?_optionalText (t : Option Text) : optionOf? textOf? (optionalText t) = some t := by
  cases t <;> rfl

theorem kindOf?_name (k : FieldKind) : kindOf? (.string k.name.toList) = some k :=
  congrArg some (FieldKind.ofName_name k)

/-- **A field decodes from what it is saved as.** -/
theorem fieldOf?_fieldToJson (f : ContentField) : fieldOf? (fieldToJson f) = some f := by
  simp [fieldOf?, fieldToJson, recordOf?, fieldStep, onceOf?, textOf?, optionOf?_optionalText,
    kindOf?_name, completeField?]

theorem modelOf?_toJson (m : ContentModel) : modelOf? m.toJson = some m := by
  have hfields : listOf? fieldOf? (.array (m.fields.map fieldToJson)) = some m.fields := by
    rw [listOf?, mapM_eq_some_iff, List.forall₂_map_left_iff, List.forall₂_same]
    exact fun f _ => fieldOf?_fieldToJson f
  simp [modelOf?, toJson, recordOf?, modelStep, onceOf?, optionOf?_optionalText, hfields]

theorem storable_optionalText (d : Nat) (t : Option Text) : Storable d (optionalText t) := by
  cases t with
  | none => exact .null
  | some t => exact .string t

theorem storable_fieldToJson (f : ContentField) : Storable 1 (fieldToJson f) := by
  have hkeys : ["name".toList, "label".toList, "description".toList, "type".toList].Nodup := by
    decide
  refine .object ?_ hkeys
  simp only [List.forall_mem_cons]
  exact ⟨.string f.name, storable_optionalText 0 f.label, storable_optionalText 0 f.description,
    .string f.kind.name.toList, List.forall_mem_nil _⟩

theorem storable_toJson (m : ContentModel) : Storable 3 m.toJson := by
  have hfields : Storable 2 (.array (m.fields.map fieldToJson)) :=
    .array (List.forall_mem_map.mpr fun f _ => storable_fieldToJson f)
  have hkeys : ["name".toList, "fields".toList].Nodup := by decide
  refine .object ?_ hkeys
  simp only [List.forall_mem_cons]
  exact ⟨storable_optionalText 2 m.name, hfields, List.forall_mem_nil _⟩

/-- **A saved model is loaded as it was**, be it saved in one line or over several, and so the same
is asked for with any existing content. -/
theorem ofJson_print_toJson (m : ContentModel) :
    ofJson (print m.toJson) = .ok m ∧ ofJson (pretty m.toJson) = .ok m ∧
      ∀ existing, (ofJson (print m.toJson)).map (fun n => Instructions.text (some n) existing) =
        .ok (Instructions.text (some m) existing) := by
  obtain ⟨hprint, hpretty⟩ := (storable_toJson m).verbatim
  have hload := ofJson_of_modelOf? hprint (modelOf?_toJson m)
  refine ⟨hload, ofJson_of_modelOf? (hpretty 0) (modelOf?_toJson m), fun existing => ?_⟩
  rw [hload, Except.map]

example : print (ContentModel.mk none [⟨['x'], none, some ['"'], .other⟩]).toJson =
    ("\x7b\"name\":null,\"fields\":[\x7b\"name\":\"x\",\"label\":null," ++
      "\"description\":\"\\\"\",\"type\":\"other\"\x7d]\x7d").toList := by
  decide +kernel

end PromptTemplate.ContentModel
