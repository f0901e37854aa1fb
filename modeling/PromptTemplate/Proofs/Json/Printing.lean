import PromptTemplate.Json.Printer
import PromptTemplate.Proofs.Json.Members
import PromptTemplate.Proofs.Json.Reading

/-!
# Proofs/Json/Printing — what is printed is read back

    ["é\n", -1, {"a": [], "b": null}]      in one line, or over several

What is printed for a value is one of its texts: strings are escaped as the grammar asks, digits
begin with no zero, and brackets have their items and members between them. Doubles are left out,
as reading rounds them twice. **A `Storable` value is read back from either text**
(`parse_print_of_storable`, `parse_pretty_of_storable`).
-/

namespace PromptTemplate.Json

/-! ## Strings -/

theorem hexValue?_hexChar {d : Nat} (h : d < 16) : hexValue? (Text.hexChar d) = some d := by
  have hall : ∀ d : Fin 16, hexValue? (Text.hexChar d) = some d.val := by decide
  exact hall ⟨d, h⟩

/-- A control is escaped by the number that it has. -/
theorem hexText_control {c : Char} (h : c.toNat < 0x20) :
    HexText ['0', '0', Text.hexChar (c.toNat / 16), Text.hexChar (c.toNat % 16)] c.toNat := by
  have hhex := HexText.mk (a := '0') (b := '0') rfl rfl
    (hexValue?_hexChar (d := c.toNat / 16) (by omega))
    (hexValue?_hexChar (d := c.toNat % 16) (by omega))
  have hzero : Decimal.digitValue '0' = 0 := rfl
  have hvalue : ((0 * 16 + 0) * 16 + c.toNat / 16) * 16 + c.toNat % 16 = c.toNat := by omega
  rwa [hzero, hvalue] at hhex

theorem StringText.escaped_append (c : Char) {s t : Text} (h : StringText s t) :
    StringText (escaped c ++ s) (c :: t) := by
  fun_cases escaped c with
  | case8 c hquote hslash _ _ _ _ _ hcontrol =>
    have hunit := Escape.unit (hexText_control hcontrol) (.inl (by omega))
    rw [Char.ofNat_toNat] at hunit
    exact .escape hunit h
  | case9 c hquote hslash _ _ _ _ _ hcontrol => exact .plain hquote hslash (by omega) h
  | _ => exact .escape (.short rfl) h

/-- **A text is what its escaped form means.** -/
theorem stringText_escaped (t : Text) : StringText (t.flatMap escaped) t := by
  induction t with
  | nil => exact .nil
  | cons c t ih => exact ih.escaped_append c

/-- A text without quotes, backslashes and controls is not escaped. -/
theorem stringText_self {t : Text} (h : ∀ c ∈ t, c ≠ '"' ∧ c ≠ '\\' ∧ 0x20 ≤ c.toNat) :
    StringText t t := by
  induction t with
  | nil => exact .nil
  | cons c t ih =>
    obtain ⟨⟨hquote, hslash, hcontrol⟩, ht⟩ := List.forall_mem_cons.mp h
    exact .plain hquote hslash hcontrol (ih ht)

/-! ## Integers -/

theorem le_continueValue (n : Nat) (ds : Text) : n ≤ Decimal.continueValue n ds := by
  induction ds generalizing n with
  | nil => exact Nat.le_refl n
  | cons d ds ih =>
    have hstep : n ≤ 10 * n + Decimal.digitValue d := by omega
    exact Nat.le_trans hstep (ih _)

/-- No digit of a number that fits is dropped. -/
theorem absorb_eq {n : Nat} {ds : Text} (h : Decimal.continueValue n ds ≤ maxWhole) :
    absorb n ds = (Decimal.continueValue n ds, 0) := by
  induction ds generalizing n with
  | nil => rfl
  | cons d ds ih =>
    have hfits : 10 * n + Decimal.digitValue d ≤ maxWhole :=
      Nat.le_trans (le_continueValue _ ds) h
    rw [absorb, if_pos hfits]
    exact ih h

/-- The digits of a number begin with no zero, unless that is all of them. -/
theorem digits_eq_cons (n : Nat) :
    ∃ d ds, Decimal.digits n = d :: ds ∧ Decimal.isDigit d = true ∧ Digits ds ∧
      (d = '0' → ds = []) := by
  fun_induction Decimal.digits n with
  | case1 n hn => exact ⟨_, [], rfl, Decimal.isDigit_digitChar hn, by simp [Digits], fun _ => rfl⟩
  | case2 n hn ih =>
    obtain ⟨d, ds, hdigits, hd, hds, hzero⟩ := ih
    have hlast : Digits [Decimal.digitChar (n % 10)] := by
      simpa [Digits] using Decimal.isDigit_digitChar (Nat.mod_lt n (by decide))
    refine ⟨d, ds ++ _, by rw [hdigits, List.cons_append], hd,
      List.forall_mem_append.mpr ⟨hds, hlast⟩, ?_⟩
    rintro rfl
    -- a zero in front would make the number one of a single digit
    have hvalue := Decimal.value_digits (n / 10)
    rw [hdigits, hzero rfl] at hvalue
    change 0 = n / 10 at hvalue
    omega

theorem numeral_digits (n : Nat) : Numeral (Decimal.digits n) := by
  obtain ⟨d, ds, hdigits, hd, hds, hzero⟩ := digits_eq_cons n
  have h := Numeral.mk hd hds hzero .none .none
  rwa [List.append_nil, List.append_nil, ← hdigits] at h

theorem readNumber_digits (negative : Bool) {n : Nat} (h : n ≤ maxWhole) :
    readNumber negative (Decimal.digits n) = wholeNumber negative n [] := by
  obtain ⟨d, ds, hdigits, hd, hds, hzero⟩ := digits_eq_cons n
  have hvalue : Decimal.continueValue (Decimal.digitValue d) ds = n := by
    have hn := Decimal.value_digits n
    rwa [hdigits, Decimal.value, Decimal.continueValue, List.foldl_cons, Nat.mul_zero,
      Nat.zero_add] at hn
  have hread := readNumber_append negative hd hds hzero follows_nil.noDigit
  rw [absorb_eq (hvalue.symm ▸ h), hvalue, List.append_nil, ← hdigits] at hread
  exact hread

/-- **An integer of 64 bits is read back**, be it signed or not. -/
theorem scalar_integerText {n : Int} (hlow : Int64.minValue.toInt ≤ n) (hhigh : n < UInt64.size) :
    Scalar (Decimal.integerText n) (.number (.integer n)) := by
  have hmin : Int64.minValue.toInt = -9223372036854775808 := rfl
  have hsize : UInt64.size = 18446744073709551616 := rfl
  have hfits : n.natAbs ≤ maxWhole := by
    rw [maxWhole]
    omega
  rw [Decimal.integerText]
  split
  · refine .negative (numeral_digits _) ?_
    rw [readNumber_digits _ hfits, wholeNumber, if_pos rfl, if_pos (by omega)]
    have hneg : -(n.natAbs : Int) = n := by omega
    rw [hneg]
  · refine .number (numeral_digits _) ?_
    rw [readNumber_digits _ hfits, wholeNumber, if_neg Bool.false_ne_true]
    have hpos : (n.natAbs : Int) = n := by omega
    rw [hpos]

/-! ## What stands in brackets -/

section

variable {α : Type} {P : Text → α → Prop} {f : α → Text} {a b : Text}

/-- Items that are written by `f`, with the same blanks in front of each. -/
theorem separated_flatMap (ha : Blank a) (hb : Blank b) (x : α) (xs : List α)
    (h : ∀ y ∈ x :: xs, P (f y) y) :
    Separated P (a ++ (f x ++ (xs.flatMap (fun y => ',' :: (a ++ f y)) ++ b))) (x :: xs) := by
  induction xs generalizing x with
  | nil => exact .one ha (h x List.mem_cons_self) hb
  | cons y ys ih =>
    obtain ⟨hx, hys⟩ := List.forall_mem_cons.mp h
    have hsep := Separated.cons ha hx blank_nil (ih y hys)
    simpa using hsep

/-- A list of items as `P` describes them, in square brackets. -/
def ListText (P : Text → α → Prop) (e : Text) (xs : List α) : Prop :=
  ∃ t, Listed P t xs ∧ e = '[' :: (t ++ [']'])

end

/-- An object of members whose values `P` describes, as they are written. -/
def MembersText (P : Text → Json → Prop) (e : Text) (ms : List (Text × Json)) : Prop :=
  ∃ t, Listed (Member P) t ms ∧ e = '\x7b' :: (t ++ ['\x7d'])

theorem printItems_eq (vs : List Json) : printItems vs = vs.flatMap fun v => ',' :: print v := by
  induction vs with
  | nil => rfl
  | cons v vs ih => rw [printItems, ih, List.flatMap_cons, List.cons_append]

/-- A member, its value written by `f`. -/
def memberText (f : Json → Text) (m : Text × Json) : Text := printString m.1 ++ ':' :: f m.2

theorem printMembers_eq (ms : List (Text × Json)) :
    printMembers ms = ms.flatMap fun m => ',' :: memberText print m := by
  induction ms with
  | nil => rfl
  | cons m ms ih => simp [printMembers, ih, memberText]

theorem prettyItems_eq (level : Nat) (vs : List Json) :
    prettyItems level vs =
      vs.flatMap fun v => ',' :: (newLine (level + 1) ++ prettyAt (level + 1) v) := by
  induction vs with
  | nil => rfl
  | cons v vs ih => simp [prettyItems, ih]

theorem prettyMembers_eq (level : Nat) (ms : List (Text × Json)) :
    prettyMembers level ms = ms.flatMap fun m =>
      ',' :: (newLine (level + 1) ++ memberText (' ' :: prettyAt (level + 1) ·) m) := by
  induction ms with
  | nil => rfl
  | cons m ms ih => simp [prettyMembers, ih, memberText]

theorem blank_newLine (level : Nat) : Blank (newLine level) := by
  intro c hc
  obtain rfl | hc := List.mem_cons.mp hc
  · rfl
  · rw [List.eq_of_mem_replicate hc]
    rfl

section

variable {P : Text → Json → Prop}

theorem member_memberText {f : Json → Text} {b : Text} (hb : Blank b) {m : Text × Json}
    (h : P (f m.2) m.2) : Member P (memberText (b ++ f ·) m) m := by
  have hmember := Member.mk (stringText_escaped m.1) blank_nil hb h
  simpa [memberText, printString] using hmember

/-- What is printed of the items stands between the brackets. -/
theorem listText_print {vs : List Json} (h : ∀ v ∈ vs, P (print v) v) :
    ListText P (print (.array vs)) vs := by
  cases vs with
  | nil => exact ⟨[], .empty blank_nil, rfl⟩
  | cons v vs =>
    exact ⟨_, .items (separated_flatMap blank_nil blank_nil v vs h), by simp [print, printItems_eq]⟩

theorem listText_prettyAt (level : Nat) {vs : List Json}
    (h : ∀ v ∈ vs, P (prettyAt (level + 1) v) v) :
    ListText P (prettyAt level (.array vs)) vs := by
  cases vs with
  | nil => exact ⟨[], .empty blank_nil, rfl⟩
  | cons v vs =>
    have hsep := separated_flatMap (blank_newLine (level + 1)) (blank_newLine level) v vs h
    exact ⟨_, .items hsep, by simp [prettyAt, prettyItems_eq]⟩

/-- What is printed of the members stands between the brackets. -/
theorem membersText_print {ms : List (Text × Json)} (h : ∀ m ∈ ms, P (print m.2) m.2) :
    MembersText P (print (.object ms)) ms := by
  cases ms with
  | nil => exact ⟨[], .empty blank_nil, rfl⟩
  | cons m ms =>
    have hsep := separated_flatMap blank_nil blank_nil m ms
      fun n hn => member_memberText blank_nil (h n hn)
    exact ⟨_, .items hsep, by simp [print, printMembers_eq, memberText]⟩

theorem membersText_prettyAt (level : Nat) {ms : List (Text × Json)}
    (h : ∀ m ∈ ms, P (prettyAt (level + 1) m.2) m.2) :
    MembersText P (prettyAt level (.object ms)) ms := by
  cases ms with
  | nil => exact ⟨[], .empty blank_nil, rfl⟩
  | cons m ms =>
    have hspace : Blank [' '] := by simp [Blank, isSpace]
    have hsep := separated_flatMap (blank_newLine (level + 1)) (blank_newLine level) m ms
      fun n hn => member_memberText hspace (h n hn)
    exact ⟨_, .items hsep, by simp [prettyAt, prettyMembers_eq, memberText]⟩

end

/-! ## Values -/

/-- Values that are read back as they are printed, with brackets at most `d` deep: no numbers but
integers of 64 bits, and no key twice in an object. -/
inductive Storable : (d : Nat) → Json → Prop
  | null {d : Nat} : Storable d .null
  | bool {d : Nat} (b : Bool) : Storable d (.bool b)
  | integer {d : Nat} {n : Int} : Int64.minValue.toInt ≤ n → n < UInt64.size →
      Storable d (.number (.integer n))
  | string {d : Nat} (t : Text) : Storable d (.string t)
  | array {d : Nat} {vs : List Json} : (∀ v ∈ vs, Storable d v) → Storable (d + 1) (.array vs)
  | object {d : Nat} {ms : List (Text × Json)} : (∀ m ∈ ms, Storable d m.2) →
      (ms.map Prod.fst).Nodup → Storable (d + 1) (.object ms)

theorem Written.of_scalar {d : Nat} {e : Text} {v : Json} (h : Scalar e v) : Written d e v := by
  cases d with
  | zero => exact h
  | succ d => exact .scalar h

theorem scalar_bool (b : Bool) : Scalar (print (.bool b)) (.bool b) := by
  cases b with
  | false => exact .false
  | true => exact .true

theorem Written.of_listText {d : Nat} {e : Text} {vs : List Json} (h : ListText (Written d) e vs) :
    Written (d + 1) e (.array vs) := by
  obtain ⟨t, ht, rfl⟩ := h
  exact .array ht

theorem Written.of_membersText {d : Nat} {e : Text} {ms : List (Text × Json)}
    (h : MembersText (Written d) e ms) (hnodup : (ms.map Prod.fst).Nodup) :
    Written (d + 1) e (.object ms) := by
  obtain ⟨t, ht, rfl⟩ := h
  have hobject := Bracketed.object ht
  rwa [ofWritten_of_nodup hnodup] at hobject

/-- What holds of the texts of scalars, and of brackets if it does of what stands in them, holds of
the printed texts. -/
theorem Storable.print_induction {P : Nat → Text → Json → Prop}
    (hscalar : ∀ {d e v}, Scalar e v → P d e v)
    (harray : ∀ {d e vs}, ListText (P d) e vs → P (d + 1) e (.array vs))
    (hobject : ∀ {d e ms}, MembersText (P d) e ms → (ms.map Prod.fst).Nodup →
      P (d + 1) e (.object ms))
    {d : Nat} {v : Json} (h : Storable d v) :
    P d (print v) v ∧ ∀ level, P d (prettyAt level v) v := by
  have hsame {d : Nat} {v : Json} (hv : Scalar (print v) v)
      (hpretty : ∀ level, prettyAt level v = print v) :
      P d (print v) v ∧ ∀ level, P d (prettyAt level v) v :=
    ⟨hscalar hv, fun level => hpretty level ▸ hscalar hv⟩
  induction h with
  | null => exact hsame .null fun _ => rfl
  | bool b => exact hsame (scalar_bool b) fun _ => rfl
  | integer hlow hhigh => exact hsame (scalar_integerText hlow hhigh) fun _ => rfl
  | string t => exact hsame (.string (stringText_escaped t)) fun _ => rfl
  | array _ ih =>
    exact ⟨harray (listText_print fun v hv => (ih v hv).1), fun level =>
      harray (listText_prettyAt level fun v hv => (ih v hv).2 (level + 1))⟩
  | object _ hnodup ih =>
    exact ⟨hobject (membersText_print fun m hm => (ih m hm).1) hnodup, fun level =>
      hobject (membersText_prettyAt level fun m hm => (ih m hm).2 (level + 1)) hnodup⟩

/-- **The printed text is one of the value's texts**, in one line or over several. -/
theorem Storable.written {d : Nat} {v : Json} (h : Storable d v) :
    Written d (print v) v ∧ ∀ level, Written d (prettyAt level v) v :=
  h.print_induction (P := Written) .of_scalar .of_listText .of_membersText

/-! ## Whole texts -/

theorem parse_of_written {e : Text} {v : Json} (h : Written maxDepth e v) : parse e = .ok v :=
  parse_eq_ok_iff.mpr ⟨[], e, [], blank_nil, h, blank_nil, (List.append_nil e).symm⟩

/-- **A value is read back from the line that is printed for it.** -/
theorem parse_print_of_storable {v : Json} (h : Storable maxDepth v) : parse (print v) = .ok v :=
  parse_of_written h.written.1

/-- **A value is read back from the lines that are printed for it.** -/
theorem parse_pretty_of_storable {v : Json} (h : Storable maxDepth v) : parse (pretty v) = .ok v :=
  parse_of_written (h.written.2 0)

/-- An object is printed with its members as they are, no matter what their keys are. -/
theorem objectText_print {ms : List (Text × Json)} (h : ∀ m ∈ ms, Storable (maxDepth - 1) m.2) :
    ObjectText (print (.object ms)) ms ∧ ObjectText (pretty (.object ms)) ms := by
  have hobject {s : Text} (hs : MembersText (Written (maxDepth - 1)) s ms) : ObjectText s ms := by
    obtain ⟨t, ht, rfl⟩ := hs
    exact ⟨[], t, [], blank_nil, ht, blank_nil, rfl⟩
  exact ⟨hobject (membersText_print fun m hm => (h m hm).written.1),
    hobject (membersText_prettyAt 0 fun m hm => (h m hm).written.2 1)⟩

end PromptTemplate.Json
