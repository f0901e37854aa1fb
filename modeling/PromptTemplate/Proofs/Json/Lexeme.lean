import Mathlib.Data.List.TakeWhile
import PromptTemplate.Proofs.Json.Grammar

/-!
# Proofs/Json/Lexeme — blanks, words, strings and numbers are read as the grammar says

Each reader of a lexeme is matched with its rule in both directions. A number is the one lexeme
without an end of its own, so `readNumber_sound` also says that **a number is read alike whatever
may follow it**; that covers the other direction.
-/

namespace PromptTemplate.Json

/-! ## Blanks -/

theorem blank_nil : Blank [] := by simp [Blank]

theorem Blank.append {a b : Text} (ha : Blank a) (hb : Blank b) : Blank (a ++ b) := by
  intro c hc
  rcases List.mem_append.mp hc with h | h
  · exact ha c h
  · exact hb c h

/-- Blanks in front of a text are skipped. -/
theorem blanks_append {a : Text} (ha : Blank a) (s : Text) : blanks (a ++ s) = blanks s := by
  rw [blanks, blanks, List.dropWhile_append_of_pos ha]

theorem blanks_cons {c : Char} (hc : isSpace c = false) (s : Text) : blanks (c :: s) = c :: s := by
  rw [blanks, List.dropWhile_cons_of_neg (by simp [hc])]

/-- What is skipped is blank. -/
theorem exists_blank (s : Text) : ∃ a, Blank a ∧ s = a ++ blanks s :=
  ⟨s.takeWhile isSpace, fun _ hc => List.mem_takeWhile_imp hc,
    (List.takeWhile_append_dropWhile ..).symm⟩

theorem blanks_eq_nil {s : Text} : blanks s = [] ↔ Blank s := by
  rw [blanks, List.dropWhile_eq_nil_iff]
  rfl

/-! ## What may follow -/

theorem follows_nil : Follows [] := by simp [Follows]

theorem follows_of_blank {b r : Text} (hb : Blank b) (hr : Follows r) : Follows (b ++ r) := by
  cases b with
  | nil => exact hr
  | cons c b =>
    intro d hd
    obtain rfl : c = d := by simpa using hd
    exact .inl (hb c (by simp))

theorem follows_comma (r : Text) : Follows (',' :: r) := by simp [Follows]

theorem follows_listEnd (r : Text) : Follows (']' :: r) := by simp [Follows]

theorem follows_objectEnd (r : Text) : Follows ('\x7d' :: r) := by simp [Follows]

/-- Nothing that may follow a value continues a number. -/
theorem Follows.ends {c : Char} {r : Text} (h : Follows (c :: r)) :
    Decimal.isDigit c = false ∧ c ≠ '.' ∧ c ≠ 'e' ∧ c ≠ 'E' := by
  rcases h c rfl with hc | rfl | rfl | rfl
  · simp only [isSpace, Bool.or_eq_true, beq_iff_eq] at hc
    rcases hc with ((rfl | rfl) | rfl) | rfl <;> decide
  · decide
  · decide
  · decide

/-! ## Words -/

theorem word_eq_ok {w s r : Text} : word w s = .ok r ↔ s = w ++ r := by
  induction w generalizing s with
  | nil => simp [word, eq_comm]
  | cons e w ih =>
    cases s with
    | nil => simp [word]
    | cons c s =>
      by_cases hc : c = e
      · simp [word, hc, ih]
      · simp [word, hc]

/-! ## Strings -/

theorem hexUnit_eq_ok {s r : Text} {n : Nat} :
    hexUnit s = .ok (n, r) ↔ ∃ u, HexText u n ∧ s = u ++ r := by
  constructor
  · intro h
    simp only [hexUnit] at h
    split at h
    · split at h
      · obtain ⟨rfl, rfl⟩ := Prod.mk.inj (Except.ok.inj h)
        exact ⟨_, .mk ‹_› ‹_› ‹_› ‹_›, rfl⟩
      · exact absurd h (by simp)
    · split at h <;> exact absurd h (by simp)
  · rintro ⟨u, ⟨ha, hb, hc, hd⟩, rfl⟩
    simp [hexUnit, ha, hb, hc, hd]

theorem lowSurrogate_eq_ok {s r : Text} {n : Nat} :
    lowSurrogate s = .ok (n, r) ↔
      ∃ u, HexText u n ∧ 0xDC00 ≤ n ∧ n ≤ 0xDFFF ∧ s = '\\' :: 'u' :: (u ++ r) := by
  constructor
  · intro h
    fun_cases lowSurrogate s with
    | case4 r' n' r'' hu hn =>
      simp only [lowSurrogate, hu, hn, and_self, if_true, Except.ok.injEq, Prod.mk.injEq] at h
      obtain ⟨rfl, rfl⟩ := h
      obtain ⟨u, hx, rfl⟩ := hexUnit_eq_ok.mp hu
      exact ⟨u, hx, hn.1, hn.2, rfl⟩
    | case5 r' n' r'' hu hn =>
      rw [lowSurrogate, hu] at h
      simp only [if_neg hn, reduceCtorEq] at h
    | _ => simp_all [lowSurrogate]
  · rintro ⟨u, hx, h₁, h₂, rfl⟩
    simp [lowSurrogate, hexUnit_eq_ok.mpr ⟨u, hx, rfl⟩, h₁, h₂]

theorem unicodeEscape_unit {u r : Text} {n : Nat} (hu : HexText u n)
    (hn : n < 0xD800 ∨ 0xDFFF < n) : unicodeEscape (u ++ r) = .ok (Char.ofNat n, r) := by
  rw [unicodeEscape, hexUnit_eq_ok.mpr ⟨u, hu, rfl⟩]
  simp only
  rw [if_neg (by omega), if_neg (by omega)]

theorem unicodeEscape_pair {u w r : Text} {n m : Nat} (hu : HexText u n) (h₁ : 0xD800 ≤ n)
    (h₂ : n ≤ 0xDBFF) (hw : HexText w m) (h₃ : 0xDC00 ≤ m) (h₄ : m ≤ 0xDFFF) :
    unicodeEscape (u ++ '\\' :: 'u' :: (w ++ r)) =
      .ok (Char.ofNat ((n - 0xD800) * 1024 + (m - 0xDC00) + 0x10000), r) := by
  rw [unicodeEscape, hexUnit_eq_ok.mpr ⟨u, hu, rfl⟩]
  simp only
  rw [if_neg (by omega), if_pos (by omega), lowSurrogate_eq_ok.mpr ⟨w, hw, h₃, h₄, rfl⟩]

theorem unicodeEscape_sound {s r : Text} {c : Char} (h : unicodeEscape s = .ok (c, r)) :
    ∃ e, Escape ('u' :: e) c ∧ s = e ++ r := by
  simp only [unicodeEscape] at h
  split at h
  · exact absurd h (by simp)
  rename_i n t hu
  obtain ⟨u, hx, rfl⟩ := hexUnit_eq_ok.mp hu
  split at h
  · exact absurd h (by simp)
  split at h
  · split at h
    · exact absurd h (by simp)
    rename_i n' t' hl
    obtain ⟨w, hw, h₁, h₂, rfl⟩ := lowSurrogate_eq_ok.mp hl
    obtain ⟨rfl, rfl⟩ := Prod.mk.inj (Except.ok.inj h)
    refine ⟨_, .pair hx ?_ ?_ hw h₁ h₂, by simp⟩ <;> omega
  · obtain ⟨rfl, rfl⟩ := Prod.mk.inj (Except.ok.inj h)
    exact ⟨u, .unit hx (by omega), rfl⟩

theorem escape_sound {s r : Text} {c : Char} (h : escape s = .ok (c, r)) :
    ∃ e, Escape e c ∧ s = e ++ r := by
  cases s with
  | nil => exact absurd h (by simp [escape])
  | cons a s =>
    simp only [escape] at h
    split at h
    case h_9 =>
      obtain ⟨e, he, rfl⟩ := unicodeEscape_sound h
      exact ⟨_, he, rfl⟩
    case h_10 => exact absurd h (by simp)
    all_goals
      obtain ⟨rfl, rfl⟩ := Prod.mk.inj (Except.ok.inj h)
      exact ⟨_, .short rfl, rfl⟩

theorem escape_append {e : Text} {c : Char} (h : Escape e c) (r : Text) :
    escape (e ++ r) = .ok (c, r) := by
  cases h with
  | short hd =>
    rw [List.singleton_append]
    simp only [shortEscape?] at hd
    split at hd <;> cases hd <;> rfl
  | unit hu hn => exact unicodeEscape_unit hu hn
  | @pair u w n m hu h₁ h₂ hw h₃ h₄ =>
    rw [List.cons_append, List.append_assoc]
    exact unicodeEscape_pair hu h₁ h₂ hw h₃ h₄

theorem stringBody_sound {s t r : Text} (h : stringBody s = .ok (t, r)) :
    ∃ k, StringText k t ∧ s = k ++ '"' :: r := by
  fun_induction stringBody s generalizing t r with
  | case2 r' =>
    obtain ⟨rfl, rfl⟩ := Prod.mk.inj (Except.ok.inj h)
    exact ⟨[], .nil, rfl⟩
  | case5 r' d r'' hr t' u hs _ ih =>
    obtain ⟨rfl, rfl⟩ := Prod.mk.inj (Except.ok.inj h)
    obtain ⟨k, hk, rfl⟩ := ih hs
    obtain ⟨e, he, rfl⟩ := escape_sound hr
    exact ⟨_, .escape he hk, by simp⟩
  | case8 c r' hq hb hc t' u hs ih =>
    obtain ⟨rfl, rfl⟩ := Prod.mk.inj (Except.ok.inj h)
    obtain ⟨k, hk, rfl⟩ := ih hs
    exact ⟨_, .plain hq hb (by omega) hk, rfl⟩
  | _ => exact absurd h (by simp)

theorem stringBody_append {k t : Text} (h : StringText k t) (r : Text) :
    stringBody (k ++ '"' :: r) = .ok (t, r) := by
  induction h with
  | nil => simp [stringBody]
  | plain hq hb hc _ ih =>
    rw [List.cons_append, stringBody, if_neg hq, if_neg hb, if_neg (by omega), ih]
  | @escape e s t c he _ ih =>
    have hread := escape_append he (s ++ '"' :: r)
    rw [← List.append_assoc] at hread
    rw [List.cons_append, stringBody, if_neg (by decide), if_pos rfl]
    split <;> simp_all

/-- **A string is read up to its closing quote, as the grammar says.** -/
theorem stringBody_eq_ok {s t r : Text} :
    stringBody s = .ok (t, r) ↔ ∃ k, StringText k t ∧ s = k ++ '"' :: r := by
  refine ⟨stringBody_sound, ?_⟩
  rintro ⟨k, hk, rfl⟩
  exact stringBody_append hk r

/-! ## Numbers

Every lemma here has one shape: what the reader took, its shape, and that the reading is the same
before any other text that does not continue the number. -/

/-- A text that begins with no digit. -/
def NoDigit (r : Text) : Prop := ∀ c ∈ r.head?, Decimal.isDigit c = false

theorem Follows.noDigit {r : Text} (h : Follows r) : NoDigit r := by
  cases r with
  | nil => simp [NoDigit]
  | cons c r => simpa [NoDigit] using h.ends.1

theorem noDigit_cons {c : Char} (h : Decimal.isDigit c = false) (r : Text) : NoDigit (c :: r) := by
  simpa [NoDigit] using h

theorem digits_takeWhile (s : Text) : Digits (s.takeWhile Decimal.isDigit) :=
  fun _ hc => List.mem_takeWhile_imp hc

theorem noDigit_dropWhile (s : Text) : NoDigit (s.dropWhile Decimal.isDigit) := by
  have := List.head?_dropWhile_not Decimal.isDigit s
  intro c hc
  rw [Option.mem_def.mp hc] at this
  simpa using this

theorem dropWhile_of_noDigit {r : Text} (h : NoDigit r) : r.dropWhile Decimal.isDigit = r := by
  cases r with
  | nil => rfl
  | cons c r => rw [List.dropWhile_cons_of_neg (by simp [h c rfl])]

/-- Digits end where no digit follows. -/
theorem dropWhile_digits {ds r : Text} (hd : Digits ds) (hr : NoDigit r) :
    (ds ++ r).dropWhile Decimal.isDigit = r := by
  rw [List.dropWhile_append_of_pos hd, dropWhile_of_noDigit hr]

theorem takeWhile_digits {ds r : Text} (hd : Digits ds) (hr : NoDigit r) :
    (ds ++ r).takeWhile Decimal.isDigit = ds := by
  have h := List.takeWhile_append_dropWhile (p := Decimal.isDigit) (l := ds ++ r)
  rw [dropWhile_digits hd hr] at h
  exact List.append_cancel_right h

theorem exists_digits (s : Text) : ∃ ds r, Digits ds ∧ NoDigit r ∧ s = ds ++ r :=
  ⟨_, _, digits_takeWhile s, noDigit_dropWhile s, List.takeWhile_append_dropWhile.symm⟩

theorem realNumber_sound {neg : Bool} {n : Nat} {e : Int} {s r : Text} {x : Number}
    (h : realNumber neg n e s = .ok (x, r)) :
    s = r ∧ ∀ r', realNumber neg n e r' = .ok (x, r') := by
  simp only [realNumber] at h ⊢
  split at h
  · obtain ⟨rfl, rfl⟩ := Prod.mk.inj (Except.ok.inj h)
    exact ⟨rfl, fun _ => rfl⟩
  · exact absurd h (by simp)

theorem wholeNumber_sound {neg : Bool} {n : Nat} {s r : Text} {x : Number}
    (h : wholeNumber neg n s = .ok (x, r)) :
    s = r ∧ ∀ r', wholeNumber neg n r' = .ok (x, r') := by
  cases neg with
  | false =>
    obtain ⟨rfl, rfl⟩ := Prod.mk.inj (Except.ok.inj h)
    exact ⟨rfl, fun _ => rfl⟩
  | true =>
    simp only [wholeNumber, if_true] at h ⊢
    split at h
    · rename_i hn
      obtain ⟨rfl, rfl⟩ := Prod.mk.inj (Except.ok.inj h)
      exact ⟨rfl, fun _ => if_pos hn⟩
    · rename_i hn
      simp only [if_neg hn]
      exact realNumber_sound h

theorem exponentValue_of_noDigit (n : Nat) {r : Text} (hr : NoDigit r) :
    exponentValue n r = .inl (n, r) := by
  cases r with
  | nil => rfl
  | cons c r => rw [exponentValue, if_neg (by simp [hr c rfl])]

theorem exponentValue_inl {n k : Nat} {s r : Text} (h : exponentValue n s = .inl (k, r)) :
    ∃ ds, Digits ds ∧ s = ds ++ r ∧
      ∀ r', NoDigit r' → exponentValue n (ds ++ r') = .inl (k, r') := by
  induction s generalizing n with
  | nil =>
    obtain ⟨rfl, rfl⟩ := Prod.mk.inj (Sum.inl.inj h)
    exact ⟨[], by simp [Digits], rfl, fun _ => exponentValue_of_noDigit n⟩
  | cons c s ih =>
    simp only [exponentValue] at h
    split at h
    · rename_i hc
      split at h
      · rename_i hm
        obtain ⟨ds, hd, rfl, hf⟩ := ih h
        refine ⟨c :: ds, List.forall_mem_cons.mpr ⟨hc, hd⟩, rfl, fun r' hr => ?_⟩
        simp only [List.cons_append, exponentValue, if_pos hc, if_pos hm, hf r' hr]
      · exact absurd h (by simp)
    · obtain ⟨rfl, rfl⟩ := Prod.mk.inj (Sum.inl.inj h)
      exact ⟨[], by simp [Digits], rfl, fun _ => exponentValue_of_noDigit n⟩

theorem exponentValue_inr {n : Nat} {s r : Text} (h : exponentValue n s = .inr r) :
    ∃ ds, Digits ds ∧ s = ds ++ r ∧ ∀ r', exponentValue n (ds ++ r') = .inr r' := by
  induction s generalizing n with
  | nil => exact absurd h (by simp [exponentValue])
  | cons c s ih =>
    simp only [exponentValue] at h
    split at h
    · rename_i hc
      split at h
      · rename_i hm
        obtain ⟨ds, hd, rfl, hf⟩ := ih h
        refine ⟨c :: ds, List.forall_mem_cons.mpr ⟨hc, hd⟩, rfl, fun r' => ?_⟩
        simp only [List.cons_append, exponentValue, if_pos hc, if_pos hm, hf r']
      · rename_i hm
        obtain rfl := Sum.inr.inj h
        refine ⟨[c], by simpa [Digits] using hc, rfl, fun r' => ?_⟩
        simp only [List.singleton_append, exponentValue, if_pos hc, if_neg hm]
    · exact absurd h (by simp)

theorem exponentDigits_sound {neg down : Bool} {n : Nat} {e : Int} {s r : Text} {x : Number}
    (h : exponentDigits neg n e down s = .ok (x, r)) :
    ∃ c ds, Decimal.isDigit c = true ∧ Digits ds ∧ s = c :: (ds ++ r) ∧
      ∀ r', NoDigit r' → exponentDigits neg n e down (c :: (ds ++ r')) = .ok (x, r') := by
  cases s with
  | nil => exact absurd h (by simp [exponentDigits])
  | cons c s =>
    simp only [exponentDigits] at h
    split at h
    case isFalse => exact absurd h (by simp)
    rename_i hc
    split at h
    · rename_i hv
      obtain ⟨ds, hd, rfl, hf⟩ := exponentValue_inl hv
      obtain ⟨rfl, hx⟩ := realNumber_sound h
      refine ⟨c, ds, hc, hd, rfl, fun r' hr => ?_⟩
      simp only [exponentDigits, if_pos hc, hf r' hr, hx]
    · rename_i rest hv
      obtain ⟨ds, hd, rfl, hf⟩ := exponentValue_inr hv
      split at h
      · exact absurd h (by simp)
      · rename_i hz
        obtain ⟨rfl, rfl⟩ := Prod.mk.inj (Except.ok.inj h)
        refine ⟨c, ds ++ rest.takeWhile Decimal.isDigit, hc, ?_, ?_, fun r' hr => ?_⟩
        · exact List.forall_mem_append.mpr ⟨hd, digits_takeWhile rest⟩
        · rw [List.append_assoc, List.takeWhile_append_dropWhile]
        · rw [exponentDigits, if_pos hc, List.append_assoc, hf]
          simp only [if_neg hz, dropWhile_digits (digits_takeWhile rest) hr]

/-- The sign that an exponent has, and that a digit behind it does not become one. -/
theorem exponentSign_sound (s : Text) :
    ∃ sign, (sign = [] ∨ sign = ['+'] ∨ sign = ['-']) ∧ s = sign ++ (exponentSign s).2 ∧
      ∀ d t, Decimal.isDigit d = true →
        exponentSign (sign ++ d :: t) = ((exponentSign s).1, d :: t) := by
  fun_cases exponentSign s with
  | case1 s => exact ⟨['+'], .inr (.inl rfl), rfl, fun _ _ _ => rfl⟩
  | case2 s => exact ⟨['-'], .inr (.inr rfl), rfl, fun _ _ _ => rfl⟩
  | case3 s _ _ =>
    refine ⟨[], .inl rfl, rfl, fun d t hd => ?_⟩
    rw [List.nil_append, exponentSign.eq_3]
    · rintro u ⟨rfl, -⟩
      exact absurd hd (by decide)
    · rintro u ⟨rfl, -⟩
      exact absurd hd (by decide)

theorem exponentPart_sound {neg : Bool} {n : Nat} {e : Int} {s r : Text} {x : Number} {c : Char}
    (hc : c = 'e' ∨ c = 'E') (h : exponentPart neg n e s = .ok (x, r)) :
    ∃ t, Exponent (c :: t) ∧ s = t ++ r ∧
      ∀ r', NoDigit r' → exponentPart neg n e (t ++ r') = .ok (x, r') := by
  obtain ⟨d, ds, hd, hds, hs, hf⟩ := exponentDigits_sound h
  obtain ⟨sign, hsign, hs', hsame⟩ := exponentSign_sound s
  refine ⟨sign ++ d :: ds, ?_, ?_, fun r' hr => ?_⟩
  · exact .some hc hsign (List.forall_mem_cons.mpr ⟨hd, hds⟩) (by simp)
  · rw [hs', hs, List.append_assoc, List.cons_append]
  · rw [List.append_assoc, List.cons_append, exponentPart, hsame d _ hd]
    exact hf r' hr

theorem Exponent.noDigit {t r : Text} (h : Exponent t) (hr : Follows r) : NoDigit (t ++ r) := by
  cases h with
  | none => exact hr.noDigit
  | some he => rcases he with rfl | rfl <;> exact noDigit_cons (by decide) _

theorem Fraction.noDigit {f t r : Text} (h : Fraction f) (ht : Exponent t) (hr : Follows r) :
    NoDigit (f ++ (t ++ r)) := by
  cases h with
  | none => exact ht.noDigit hr
  | some => exact noDigit_cons (by decide) _

/-- A number from what follows the digits behind its point. -/
def fractionEnd (neg : Bool) (n : Nat) (e : Int) : Text → Except Fault (Number × Text)
  | 'e' :: r => exponentPart neg n e r
  | 'E' :: r => exponentPart neg n e r
  | r => realNumber neg n e r

/-- A number without point and exponent, some of whose digits were `dropped`. -/
def digitsEnd (neg : Bool) (n dropped : Nat) (r : Text) : Except Fault (Number × Text) :=
  if dropped = 0 then wholeNumber neg n r else realNumber neg n dropped r

/-- A number from what follows its whole digits. -/
def wholeEnd (neg : Bool) (n dropped : Nat) : Text → Except Fault (Number × Text)
  | '.' :: r => fractionPart neg n dropped r
  | 'e' :: r => exponentPart neg n dropped r
  | 'E' :: r => exponentPart neg n dropped r
  | r => digitsEnd neg n dropped r

theorem fractionPart_append (neg : Bool) (n : Nat) (e : Int) {ds r : Text} (hd : Digits ds)
    (hne : ds ≠ []) (hr : NoDigit r) :
    fractionPart neg n e (ds ++ r)
      = fractionEnd neg (absorb n ds).1 (e - (ds.length - (absorb n ds).2 : Nat)) r := by
  have he : ds.isEmpty = Bool.false := by simpa using hne
  rw [fractionPart, takeWhile_digits hd hr, dropWhile_digits hd hr, he]
  rfl

theorem readNumber_append (neg : Bool) {d : Char} {ds r : Text} (hd : Decimal.isDigit d = true)
    (hds : Digits ds) (hz : d = '0' → ds = []) (hr : NoDigit r) :
    readNumber neg (d :: (ds ++ r))
      = wholeEnd neg (absorb (Decimal.digitValue d) ds).1 (absorb (Decimal.digitValue d) ds).2 r := by
  have hz' : ¬(d = '0' && !ds.isEmpty) = true := by simpa using hz
  rw [readNumber, if_pos hd, takeWhile_digits hds hr, dropWhile_digits hds hr, if_neg hz']
  rfl

theorem digitsEnd_sound {neg : Bool} {n dropped : Nat} {s r : Text} {x : Number}
    (h : digitsEnd neg n dropped s = .ok (x, r)) :
    s = r ∧ ∀ r', digitsEnd neg n dropped r' = .ok (x, r') := by
  simp only [digitsEnd] at h ⊢
  by_cases hd : dropped = 0
  · simp only [if_pos hd] at h ⊢
    exact wholeNumber_sound h
  · simp only [if_neg hd] at h ⊢
    exact realNumber_sound h

theorem fractionEnd_of_follows (neg : Bool) (n : Nat) (e : Int) {r : Text} (hr : Follows r) :
    fractionEnd neg n e r = realNumber neg n e r := by
  rw [fractionEnd.eq_3]
  · rintro u rfl
    exact absurd rfl hr.ends.2.2.1
  · rintro u rfl
    exact absurd rfl hr.ends.2.2.2

theorem fractionEnd_sound {neg : Bool} {n : Nat} {e : Int} {s r : Text} {x : Number}
    (h : fractionEnd neg n e s = .ok (x, r)) :
    ∃ t, Exponent t ∧ s = t ++ r ∧
      ∀ r', Follows r' → fractionEnd neg n e (t ++ r') = .ok (x, r') := by
  fun_cases fractionEnd neg n e s with
  | case1 s =>
    obtain ⟨t, ht, rfl, hf⟩ := exponentPart_sound (.inl rfl) h
    exact ⟨'e' :: t, ht, rfl, fun r' hr => hf r' hr.noDigit⟩
  | case2 s =>
    obtain ⟨t, ht, rfl, hf⟩ := exponentPart_sound (.inr rfl) h
    exact ⟨'E' :: t, ht, rfl, fun r' hr => hf r' hr.noDigit⟩
  | case3 s h₁ h₂ =>
    rw [fractionEnd.eq_3 neg n e s h₁ h₂] at h
    obtain ⟨rfl, hf⟩ := realNumber_sound h
    exact ⟨[], .none, rfl, fun r' hr => (fractionEnd_of_follows neg n e hr).trans (hf r')⟩

theorem fractionPart_sound {neg : Bool} {n : Nat} {e : Int} {s r : Text} {x : Number}
    (h : fractionPart neg n e s = .ok (x, r)) :
    ∃ f t, Fraction ('.' :: f) ∧ Exponent t ∧ s = f ++ (t ++ r) ∧
      ∀ r', Follows r' → fractionPart neg n e (f ++ (t ++ r')) = .ok (x, r') := by
  obtain ⟨ds, rest, hds, hrest, rfl⟩ := exists_digits s
  have hne : ds ≠ [] := by
    rintro rfl
    rw [fractionPart, takeWhile_digits hds hrest, dropWhile_digits hds hrest] at h
    cases rest <;> exact absurd h (by simp)
  rw [fractionPart_append neg n e hds hne hrest] at h
  obtain ⟨t, ht, rfl, hf⟩ := fractionEnd_sound h
  refine ⟨ds, t, .some hds hne, ht, rfl, fun r' hr => ?_⟩
  rw [fractionPart_append neg n e hds hne (ht.noDigit hr), hf r' hr]

theorem wholeEnd_of_follows (neg : Bool) (n dropped : Nat) {r : Text} (hr : Follows r) :
    wholeEnd neg n dropped r = digitsEnd neg n dropped r := by
  rw [wholeEnd.eq_4]
  · rintro u rfl
    exact absurd rfl hr.ends.2.1
  · rintro u rfl
    exact absurd rfl hr.ends.2.2.1
  · rintro u rfl
    exact absurd rfl hr.ends.2.2.2

theorem wholeEnd_sound {neg : Bool} {n dropped : Nat} {s r : Text} {x : Number}
    (h : wholeEnd neg n dropped s = .ok (x, r)) :
    ∃ f t, Fraction f ∧ Exponent t ∧ s = f ++ (t ++ r) ∧
      ∀ r', Follows r' → wholeEnd neg n dropped (f ++ (t ++ r')) = .ok (x, r') := by
  fun_cases wholeEnd neg n dropped s with
  | case1 s =>
    obtain ⟨f, t, hf, ht, rfl, hx⟩ := fractionPart_sound h
    exact ⟨'.' :: f, t, hf, ht, rfl, hx⟩
  | case2 s =>
    obtain ⟨t, ht, rfl, hx⟩ := exponentPart_sound (.inl rfl) h
    exact ⟨[], 'e' :: t, .none, ht, rfl, fun r' hr => hx r' hr.noDigit⟩
  | case3 s =>
    obtain ⟨t, ht, rfl, hx⟩ := exponentPart_sound (.inr rfl) h
    exact ⟨[], 'E' :: t, .none, ht, rfl, fun r' hr => hx r' hr.noDigit⟩
  | case4 s h₁ h₂ h₃ =>
    rw [wholeEnd.eq_4 neg n dropped s h₁ h₂ h₃] at h
    obtain ⟨rfl, hx⟩ := digitsEnd_sound h
    refine ⟨[], [], .none, .none, rfl, fun r' hr => ?_⟩
    exact (wholeEnd_of_follows neg n dropped hr).trans (hx r')

/-- **A number has the shape of a numeral, and is read alike whatever follows it.** -/
theorem readNumber_sound {neg : Bool} {s r : Text} {x : Number}
    (h : readNumber neg s = .ok (x, r)) :
    ∃ e, Numeral e ∧ s = e ++ r ∧ ∀ r', Follows r' → readNumber neg (e ++ r') = .ok (x, r') := by
  cases s with
  | nil => exact absurd h (by simp [readNumber])
  | cons d s =>
    obtain ⟨ds, rest, hds, hrest, rfl⟩ := exists_digits s
    have hd : Decimal.isDigit d = true := by
      by_contra hd
      exact absurd h (by simp [readNumber, hd])
    have hz : d = '0' → ds = [] := by
      rintro rfl
      by_contra hz
      exact absurd h (by simp [readNumber, hd, takeWhile_digits hds hrest, hz])
    rw [readNumber_append neg hd hds hz hrest] at h
    obtain ⟨f, t, hf, ht, rfl, hx⟩ := wholeEnd_sound h
    refine ⟨_, .mk hd hds hz hf ht, by simp, fun r' hr => ?_⟩
    rw [List.cons_append, List.append_assoc, List.append_assoc,
      readNumber_append neg hd hds hz (hf.noDigit ht hr), hx r' hr]

end PromptTemplate.Json
