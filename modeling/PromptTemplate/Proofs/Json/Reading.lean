import PromptTemplate.Proofs.Json.Lexeme

/-!
# Proofs/Json/Reading — the reader accepts exactly the documents

`Reads read P` says that a reader takes the texts that `P` describes, all of them and no others,
before anything that may follow a value. Lists and objects lift it from what stands in their
brackets (`reads_bracketed`), so induction on the depth gives it for `valueAt`, and
**`parse_eq_ok_iff`** for whole texts.
-/

namespace PromptTemplate.Json

/-- A text that begins as a value does: with no blank and no closing bracket. -/
def Begins (e : Text) : Prop := ∃ c t, e = c :: t ∧ isSpace c = false ∧ c ≠ ']' ∧ c ≠ '\x7d'

theorem Begins.append {e : Text} (h : Begins e) (r : Text) : Begins (e ++ r) := by
  obtain ⟨c, t, rfl, hc⟩ := h
  exact ⟨c, t ++ r, rfl, hc⟩

theorem blanks_item {a e : Text} (ha : Blank a) (he : Begins e) (t : Text) :
    blanks (a ++ (e ++ t)) = e ++ t := by
  obtain ⟨c, u, rfl, hc, -⟩ := he
  rw [blanks_append ha, List.cons_append, blanks_cons hc]

/-- The reader takes exactly the texts that `P` describes, behind any blanks. -/
structure Reads {α : Type} (read : Text → Except Fault (α × Text)) (P : Text → α → Prop) :
    Prop where
  sound : ∀ {s r : Text} {x : α}, read s = .ok (x, r) → ∃ a e, Blank a ∧ P e x ∧ s = a ++ (e ++ r)
  complete : ∀ {a e r : Text} {x : α}, Blank a → P e x → Follows r →
    read (a ++ (e ++ r)) = .ok (x, r)
  begins : ∀ {e : Text} {x : α}, P e x → Begins e

/-- The reader takes the texts that `P` describes, and perhaps others. -/
structure Takes {α : Type} (read : Text → Except Fault (α × Text)) (P : Text → α → Prop) :
    Prop where
  complete : ∀ {a e r : Text} {x : α}, Blank a → P e x → Follows r →
    read (a ++ (e ++ r)) = .ok (x, r)
  begins : ∀ {e : Text} {x : α}, P e x → Begins e

theorem Reads.takes {α : Type} {read : Text → Except Fault (α × Text)} {P : Text → α → Prop}
    (h : Reads read P) : Takes read P := ⟨h.complete, h.begins⟩

/-! ## What stands between commas -/

section

variable {α : Type} {P : Text → α → Prop}

/-- What may stand behind an item: blanks, or a comma and more items. -/
inductive Continued (P : Text → α → Prop) : Text → List α → Prop
  | done {b : Text} : Blank b → Continued P b []
  | more {b s : Text} {xs : List α} : Blank b → Separated P s xs → Continued P (b ++ ',' :: s) xs

/-- What stands before the closing bracket, behind the opening one or behind an item. -/
def Remaining (P : Text → α → Prop) (first : Bool) : Text → List α → Prop :=
  if first then Listed P else Continued P

theorem Separated.of_continued {a e t : Text} {x : α} {xs : List α} (ha : Blank a) (he : P e x)
    (ht : Continued P t xs) : Separated P (a ++ (e ++ t)) (x :: xs) := by
  cases ht with
  | done hb => exact .one ha he hb
  | more hb hs => exact .cons ha he hb hs

theorem Remaining.of_blank (first : Bool) {b : Text} (hb : Blank b) : Remaining P first b [] := by
  cases first with
  | false => exact .done hb
  | true => exact .empty hb

/-- Behind its blanks, a text with items begins with an item. -/
theorem Separated.begins (hP : ∀ {e x}, P e x → Begins e) {s : Text} {xs : List α}
    (h : Separated P s xs) (r : Text) : Begins (blanks (s ++ r)) := by
  cases h with
  | one ha he =>
    rw [List.append_assoc, List.append_assoc, blanks_item ha (hP he)]
    exact (hP he).append _
  | cons ha he =>
    rw [List.append_assoc, List.append_assoc, blanks_item ha (hP he)]
    exact (hP he).append _

theorem Separated.blank {b s : Text} {xs : List α} (hb : Blank b) (h : Separated P s xs) :
    Separated P (b ++ s) xs := by
  cases h with
  | one ha he hc =>
    rw [← List.append_assoc]
    exact .one (hb.append ha) he hc
  | cons ha he hc hs =>
    rw [← List.append_assoc]
    exact .cons (hb.append ha) he hc hs

/-- What is passed over before an item: blanks, and behind another item a comma as well. -/
inductive Skips : (first : Bool) → Text → Text → Prop
  | first {b p : Text} : Blank b → Skips true (b ++ p) p
  | next {b c p : Text} : Blank b → Blank c → Skips false (b ++ ',' :: (c ++ p)) p

theorem skips_first {s p : Text} (h : blanks s = p) : Skips true s p := by
  obtain ⟨b, hb, hs⟩ := exists_blank s
  rw [hs, h]
  exact .first hb

theorem skips_next {s t p : Text} (hs : blanks s = ',' :: t) (ht : blanks t = p) :
    Skips false s p := by
  obtain ⟨b, hb, hs'⟩ := exists_blank s
  obtain ⟨c, hc, ht'⟩ := exists_blank t
  rw [hs', hs, ht', ht]
  exact .next hb hc

/-- Items from the next one on, with what was passed over before it. -/
theorem Remaining.of_skips {first : Bool} {s w u : Text} {xs : List α}
    (h : Skips first s (w ++ u)) (hw : Separated P w xs) :
    ∃ t, s = t ++ u ∧ Remaining P first t xs := by
  generalize hp : w ++ u = p at h
  cases h with
  | @first b _ hb =>
    subst hp
    exact ⟨b ++ w, (List.append_assoc ..).symm, .items (hw.blank hb)⟩
  | @next b c _ hb hc =>
    subst hp
    exact ⟨b ++ ',' :: (c ++ w), by simp, .more hb (hw.blank hc)⟩

/-! ## Lists -/

theorem nextItem_none {first : Bool} {s : Text} (h : nextItem first s = .ok none) :
    ∃ b r, Blank b ∧ s = b ++ ']' :: r := by
  obtain ⟨b, hb, hs⟩ := exists_blank s
  simp only [nextItem] at h
  split at h
  · exact absurd h (by simp)
  rename_i c r hc
  rw [hc] at hs
  split at h
  · rename_i he
    exact ⟨b, r, hb, he ▸ hs⟩
  · repeat' split at h
    all_goals exact absurd h (by simp)

theorem closeList_append {b : Text} (hb : Blank b) (r : Text) :
    closeList (b ++ ']' :: r) = .ok r := by
  rw [closeList, blanks_append hb, blanks_cons (by decide)]
  rfl

theorem nextItem_some {first : Bool} {s r : Text} (h : nextItem first s = .ok (some r)) :
    Skips first s r := by
  simp only [nextItem] at h
  split at h
  · exact absurd h (by simp)
  rename_i c t hs
  split at h
  · exact absurd h (by simp)
  cases first with
  | true =>
    obtain rfl : c :: t = r := by simpa using h
    exact skips_first hs
  | false =>
    simp only [Bool.false_eq_true, if_false] at h
    split at h
    · obtain rfl := ‹c = ','›
      split at h
      · exact absurd h (by simp)
      rename_i d u ht
      split at h
      · exact absurd h (by simp)
      obtain rfl : d :: u = r := by simpa using h
      exact skips_next hs ht
    · exact absurd h (by simp)

theorem items_sound {item : Reader α} (hi : Reads item.read P) {first : Bool} {s u : Text}
    {xs : List α} (h : items item first s = .ok (xs, u)) :
    ∃ t r, s = t ++ ']' :: r ∧ Remaining P first t xs ∧ closeList u = .ok r := by
  fun_induction items item first s generalizing xs u with
  | case2 first s hn =>
    obtain ⟨rfl, rfl⟩ := Prod.mk.inj (Except.ok.inj h)
    obtain ⟨b, r, hb, rfl⟩ := nextItem_none hn
    exact ⟨b, r, rfl, .of_blank first hb, closeList_append hb r⟩
  | case5 first s r hn x t hr xs' u' hs ih =>
    obtain ⟨rfl, rfl⟩ := Prod.mk.inj (Except.ok.inj h)
    obtain ⟨w, r', rfl, hw, hclose⟩ := ih hs
    obtain ⟨a, e, ha, he, rfl⟩ := hi.sound hr
    have hsep : Separated P (a ++ (e ++ w)) (x :: xs') := .of_continued ha he hw
    obtain ⟨t, rfl, ht⟩ := Remaining.of_skips (u := ']' :: r') (by simpa using nextItem_some hn) hsep
    exact ⟨t, r', rfl, ht, hclose⟩
  | _ => exact absurd h (by simp)

theorem nextItem_next {b s : Text} (hb : Blank b) (h : Begins (blanks s)) :
    nextItem false (b ++ ',' :: s) = .ok (some (blanks s)) := by
  obtain ⟨c, t, hs, -, hc, -⟩ := h
  rw [nextItem, blanks_append hb, blanks_cons (by decide)]
  simp [hs, hc]

theorem items_done (item : Reader α) (first : Bool) {b : Text} (hb : Blank b) (r : Text) :
    items item first (b ++ ']' :: r) = .ok ([], b ++ ']' :: r) := by
  have hn : nextItem first (b ++ ']' :: r) = .ok none := by
    rw [nextItem, blanks_append hb, blanks_cons (by decide)]
    rfl
  unfold items
  split <;> simp_all

theorem items_step {item : Reader α} {first : Bool} {s r t u : Text} {x : α} {xs : List α}
    (hn : nextItem first s = .ok (some r)) (hr : item.read r = .ok (x, t))
    (hs : items item false t = .ok (xs, u)) : items item first s = .ok (x :: xs, u) := by
  rw [items]
  split
  · simp_all
  · simp_all
  · split <;> simp_all

/-- From the next item on, the items of a list are read up to its closing bracket. -/
theorem items_complete {item : Reader α} (hi : Takes item.read P) {s : Text} {xs : List α}
    (h : Separated P s xs) {first : Bool} {z : Text} (r : Text)
    (hz : nextItem first z = .ok (some (blanks (s ++ ']' :: r)))) :
    ∃ u, items item first z = .ok (xs, u) ∧ closeList u = .ok r := by
  induction h generalizing first z with
  | @one a e b x ha he hb =>
    have hread : item.read (e ++ (b ++ ']' :: r)) = .ok (x, b ++ ']' :: r) :=
      hi.complete (a := []) blank_nil he (follows_of_blank hb (follows_listEnd r))
    rw [List.append_assoc, List.append_assoc, blanks_item ha (hi.begins he)] at hz
    exact ⟨_, items_step hz hread (items_done item false hb r), closeList_append hb r⟩
  | @cons a e b s x xs ha he hb hs ih =>
    have hread : item.read (e ++ (b ++ ',' :: (s ++ ']' :: r)))
        = .ok (x, b ++ ',' :: (s ++ ']' :: r)) :=
      hi.complete (a := []) blank_nil he (follows_of_blank hb (follows_comma _))
    obtain ⟨u, hu, hclose⟩ := ih (nextItem_next hb (hs.begins hi.begins _))
    simp only [List.append_assoc, List.cons_append] at hz
    rw [blanks_item ha (hi.begins he)] at hz
    exact ⟨u, items_step hz hread hu, hclose⟩

/-- The items of a list are read up to its closing bracket. -/
theorem items_listed {item : Reader α} (hi : Takes item.read P) {s : Text} {xs : List α}
    (h : Listed P s xs) (r : Text) :
    ∃ u, items item true (s ++ ']' :: r) = .ok (xs, u) ∧ closeList u = .ok r := by
  cases h with
  | empty hb => exact ⟨_, items_done item true hb r, closeList_append hb r⟩
  | items hs =>
    obtain ⟨c, t, hc, -, he, -⟩ := hs.begins hi.begins (']' :: r)
    exact items_complete hi hs r (by simp [nextItem, hc, he])

end

/-! ## Objects -/

theorem keyAt_eq_ok {s : Text} {o : Option (Text × Text)} :
    keyAt s = .ok o ↔
      ∃ k key r, StringText k key ∧ s = '"' :: (k ++ '"' :: r) ∧ o = some (key, r) := by
  constructor
  · intro h
    cases s with
    | nil => exact absurd h (by simp [keyAt])
    | cons c s =>
      simp only [keyAt] at h
      split at h
      · rename_i hc
        obtain ⟨⟨key, r⟩, hs, rfl⟩ := map_eq_ok h
        obtain ⟨k, hk, rfl⟩ := stringBody_eq_ok.mp hs
        exact ⟨k, key, r, hk, hc ▸ rfl, rfl⟩
      · exact absurd h (by simp)
  · rintro ⟨k, key, r, hk, rfl, rfl⟩
    rw [keyAt, if_pos rfl, stringBody_eq_ok.mpr ⟨k, hk, rfl⟩]
    rfl

theorem nextKey_none {first : Bool} {s : Text} (h : nextKey first s = .ok none) :
    ∃ b r, Blank b ∧ s = b ++ '\x7d' :: r := by
  obtain ⟨b, hb, hs⟩ := exists_blank s
  have hkey (z : Text) : keyAt z ≠ .ok none := fun hz => by simp [keyAt_eq_ok] at hz
  simp only [nextKey] at h
  split at h
  · exact absurd h (by simp)
  rename_i c r hc
  rw [hc] at hs
  split at h
  · rename_i he
    exact ⟨b, r, hb, he ▸ hs⟩
  · repeat' split at h
    all_goals first
      | exact absurd h (hkey _)
      | exact absurd h (by simp)

theorem colon_eq_ok {s r : Text} : colon s = .ok r ↔ ∃ b, Blank b ∧ s = b ++ ':' :: r := by
  constructor
  · intro h
    obtain ⟨b, hb, hs⟩ := exists_blank s
    simp only [colon] at h
    split at h
    · exact absurd h (by simp)
    rename_i c t hc
    split at h
    · rename_i he
      obtain rfl := Except.ok.inj h
      exact ⟨b, hb, by rw [hs, hc, he]⟩
    · exact absurd h (by simp)
  · rintro ⟨b, hb, rfl⟩
    rw [colon, blanks_append hb, blanks_cons (by decide)]
    rfl

/-- The visitor takes up exactly the members whose values `P` describes, and goes on from a state as
`step` says; a member for which `step` has no state is refused. -/
structure Visits {σ : Type} (v : Visitor σ) (P : Text → Json → Prop)
    (step : σ → Text × Json → Option σ) : Prop where
  sound : ∀ {st st' : σ} {key z r : Text}, v.visit st key z = .ok (st', r) →
    ∃ b c e x, Blank b ∧ Blank c ∧ P e x ∧ z = b ++ ':' :: (c ++ (e ++ r)) ∧
      step st (key, x) = some st'
  complete : ∀ {st st' : σ} {key b c e r : Text} {x : Json}, Blank b → Blank c → P e x →
    Follows r → step st (key, x) = some st' →
      v.visit st key (b ++ ':' :: (c ++ (e ++ r))) = .ok (st', r)

/-- The visitor takes up the members whose values `P` describes and for which there is a step, and
perhaps others. -/
structure TakesUp {σ : Type} (v : Visitor σ) (P : Text → Json → Prop)
    (step : σ → Text × Json → Option σ) : Prop where
  complete : ∀ {st st' : σ} {key b c e r : Text} {x : Json}, Blank b → Blank c → P e x →
    Follows r → step st (key, x) = some st' →
      v.visit st key (b ++ ':' :: (c ++ (e ++ r))) = .ok (st', r)

theorem Visits.takesUp {σ : Type} {v : Visitor σ} {P : Text → Json → Prop}
    {step : σ → Text × Json → Option σ} (h : Visits v P step) : TakesUp v P step := ⟨h.complete⟩

/-- A visitor that reads a colon and a value visits what the reader of the value takes. -/
theorem Visits.of_value {σ : Type} {v : Visitor σ} {P : Text → Json → Prop} {value : Reader Json}
    {step : σ → Text × Json → Option σ} (hv : Reads value.read P)
    (h : ∀ {st st' : σ} {key z r : Text}, v.visit st key z = .ok (st', r) ↔
      ∃ t x, colon z = .ok t ∧ value.read t = .ok (x, r) ∧ step st (key, x) = some st') :
    Visits v P step where
  sound hvisit := by
    obtain ⟨t, x, hcolon, hread, hstep⟩ := h.mp hvisit
    obtain ⟨b, hb, rfl⟩ := colon_eq_ok.mp hcolon
    obtain ⟨c, e, hc, he, rfl⟩ := hv.sound hread
    exact ⟨b, c, e, x, hb, hc, he, rfl, hstep⟩
  complete hb hc he hr hstep :=
    h.mpr ⟨_, _, colon_eq_ok.mpr ⟨_, hb, rfl⟩, hv.complete hc he hr, hstep⟩

theorem visits_putMember {value : Reader Json} {P : Text → Json → Prop}
    (hv : Reads value.read P) :
    Visits (putMember value) P fun ms m => some (put ms m.1 m.2) := by
  refine .of_value hv fun {st st' key z r} => ⟨fun h => ?_, ?_⟩
  · simp only [putMember] at h
    split at h
    · exact absurd h (by simp)
    rename_i t ht
    split at h
    · exact absurd h (by simp)
    rename_i x u hx
    obtain ⟨rfl, rfl⟩ := Prod.mk.inj (Except.ok.inj h)
    exact ⟨t, x, ht, hx, rfl⟩
  · rintro ⟨t, x, ht, hx, hst⟩
    obtain rfl := Option.some.inj hst
    simp [putMember, ht, hx]

theorem closeObject_append {b : Text} (hb : Blank b) (r : Text) :
    closeObject (b ++ '\x7d' :: r) = .ok r := by
  rw [closeObject, blanks_append hb, blanks_cons (by decide)]
  rfl

section

variable {σ : Type} {v : Visitor σ} {P : Text → Json → Prop} {step : σ → Text × Json → Option σ}
  {st st' : σ}

theorem Member.begins {e : Text} {m : Text × Json} (h : Member P e m) : Begins e := by
  cases h
  exact ⟨'"', _, rfl, by decide, by decide, by decide⟩

theorem keyAt_eq_some {s key z : Text} (h : keyAt s = .ok (some (key, z))) :
    ∃ k, StringText k key ∧ s = '"' :: (k ++ '"' :: z) := by
  obtain ⟨k, key', z', hk, rfl, ho⟩ := keyAt_eq_ok.mp h
  obtain ⟨rfl, rfl⟩ := Prod.mk.inj (Option.some.inj ho)
  exact ⟨k, hk, rfl⟩

theorem nextKey_some {first : Bool} {s key z : Text} (h : nextKey first s = .ok (some (key, z))) :
    ∃ k, StringText k key ∧ Skips first s ('"' :: (k ++ '"' :: z)) := by
  simp only [nextKey] at h
  split at h
  · exact absurd h (by simp)
  rename_i c t hs
  split at h
  · exact absurd h (by simp)
  cases first with
  | true =>
    rw [if_pos rfl] at h
    obtain ⟨k, hk, ht⟩ := keyAt_eq_some h
    exact ⟨k, hk, skips_first (hs.trans ht)⟩
  | false =>
    simp only [Bool.false_eq_true, if_false] at h
    split at h
    · obtain rfl := ‹c = ','›
      split at h
      · exact absurd h (by simp)
      rename_i d u ht
      split at h
      · exact absurd h (by simp)
      obtain ⟨k, hk, hu⟩ := keyAt_eq_some h
      exact ⟨k, hk, skips_next hs (ht.trans hu)⟩
    · exact absurd h (by simp)

/-- The members that were taken up, as they are written, and the state that they lead to. -/
theorem members_sound (hv : Visits v P step) {first : Bool} {s u : Text}
    (h : visitMembers v st first s = .ok (st', u)) :
    ∃ t r ms, s = t ++ '\x7d' :: r ∧ Remaining (Member P) first t ms ∧
      ms.foldlM step st = some st' ∧ closeObject u = .ok r := by
  fun_induction visitMembers v st first s with
  | case2 st first s hn =>
    obtain ⟨rfl, rfl⟩ := Prod.mk.inj (Except.ok.inj h)
    obtain ⟨b, r, hb, rfl⟩ := nextKey_none hn
    exact ⟨b, r, [], rfl, .of_blank first hb, rfl, closeObject_append hb r⟩
  | case4 st first s key z hn st'' t hr ih =>
    obtain ⟨w, r, ms, rfl, hw, hrun, hclose⟩ := ih h
    obtain ⟨b, a, e, x, hb, ha, he, rfl, hstep⟩ := hv.sound hr
    obtain ⟨k, hk, hskip⟩ := nextKey_some hn
    have hsep : Separated (Member P) ([] ++ ('"' :: (k ++ '"' :: (b ++ ':' :: (a ++ e))) ++ w))
        ((key, x) :: ms) :=
      .of_continued blank_nil (.mk hk hb ha he) hw
    obtain ⟨t, rfl, ht⟩ := Remaining.of_skips (u := '\x7d' :: r) (by simpa using hskip) hsep
    refine ⟨t, r, _, rfl, ht, ?_, hclose⟩
    rw [List.foldlM_cons, hstep]
    exact hrun
  | _ => exact absurd h (by simp)

theorem nextKey_next {b s : Text} (hb : Blank b) (h : Begins (blanks s)) :
    nextKey false (b ++ ',' :: s) = keyAt (blanks s) := by
  obtain ⟨c, t, hs, -, -, hc⟩ := h
  rw [nextKey, blanks_append hb, blanks_cons (by decide)]
  simp [hs, hc]

theorem members_done (v : Visitor σ) (st : σ) (first : Bool) {b : Text} (hb : Blank b)
    (r : Text) : visitMembers v st first (b ++ '\x7d' :: r) = .ok (st, b ++ '\x7d' :: r) := by
  have hn : nextKey first (b ++ '\x7d' :: r) = .ok none := by
    rw [nextKey, blanks_append hb, blanks_cons (by decide)]
    rfl
  unfold visitMembers
  split <;> simp_all

theorem members_step {first : Bool} {s key r t : Text}
    (hn : nextKey first s = .ok (some (key, r))) (hr : v.visit st key r = .ok (st', t)) :
    visitMembers v st first s = visitMembers v st' false t := by
  rw [visitMembers]
  split
  · simp_all
  · simp_all
  · split <;> simp_all

theorem member_read (hv : TakesUp v P step) {e r : Text} {m : Text × Json} (h : Member P e m)
    (hr : Follows r) (hstep : step st m = some st') :
    ∃ z, keyAt (e ++ r) = .ok (some (m.1, z)) ∧ v.visit st m.1 z = .ok (st', r) := by
  cases h with
  | @mk k key b c e x hk hb hc he =>
    refine ⟨b ++ ':' :: (c ++ (e ++ r)), keyAt_eq_ok.mpr ⟨k, key, _, hk, by simp, rfl⟩, ?_⟩
    exact hv.complete hb hc he hr hstep

/-- From the next one on, the members of an object are taken up, to its closing bracket. -/
theorem members_complete (hv : TakesUp v P step) {s : Text} {ms : List (Text × Json)}
    (h : Separated (Member P) s ms) {first : Bool} {z : Text} (hrun : ms.foldlM step st = some st')
    (r : Text) (hz : nextKey first z = keyAt (blanks (s ++ '\x7d' :: r))) :
    ∃ u, visitMembers v st first z = .ok (st', u) ∧ closeObject u = .ok r := by
  induction h generalizing first z st with
  | @one a e b m ha he hb =>
    obtain ⟨st'', hstep, hdone⟩ := Option.bind_eq_some_iff.mp hrun
    obtain rfl := Option.some.inj hdone
    obtain ⟨y, hkey, hvisit⟩ :=
      member_read hv he (follows_of_blank hb (follows_objectEnd r)) hstep
    rw [List.append_assoc, List.append_assoc, blanks_item ha he.begins, hkey] at hz
    refine ⟨_, ?_, closeObject_append hb r⟩
    rw [members_step hz hvisit, members_done _ _ _ hb]
  | @cons a e b s m ms ha he hb hs ih =>
    obtain ⟨st'', hstep, hrest⟩ := Option.bind_eq_some_iff.mp hrun
    obtain ⟨y, hkey, hvisit⟩ :=
      member_read hv he (follows_of_blank hb (follows_comma (s ++ '\x7d' :: r))) hstep
    obtain ⟨u, hu, hclose⟩ := ih hrest (nextKey_next hb (hs.begins Member.begins _))
    simp only [List.append_assoc, List.cons_append] at hz
    rw [blanks_item ha he.begins, hkey] at hz
    exact ⟨u, (members_step hz hvisit).trans hu, hclose⟩

/-- The members of an object are taken up, to its closing bracket. -/
theorem members_listed (hv : TakesUp v P step) {s : Text} {ms : List (Text × Json)}
    (h : Listed (Member P) s ms) (hrun : ms.foldlM step st = some st') (r : Text) :
    ∃ u, visitMembers v st true (s ++ '\x7d' :: r) = .ok (st', u) ∧ closeObject u = .ok r := by
  cases h with
  | empty hb =>
    obtain rfl := Option.some.inj hrun
    exact ⟨_, members_done _ _ _ hb r, closeObject_append hb r⟩
  | items hs =>
    obtain ⟨c, t, hc, -, -, he⟩ := hs.begins Member.begins ('\x7d' :: r)
    exact members_complete hv hs hrun r (by simp [nextKey, hc, he])

end

/-- What the members of any object come to. -/
theorem foldlM_put (ms st : Members) :
    ms.foldlM (fun ms m => some (put ms m.1 m.2)) st =
      some (ms.foldl (fun ms m => put ms m.1 m.2) st) :=
  List.foldlM_pure

/-! ## Values -/

theorem Numeral.begins {e : Text} (h : Numeral e) :
    ∃ d t, e = d :: t ∧ Decimal.isDigit d = true := by
  cases h with
  | mk hd => exact ⟨_, _, rfl, hd⟩

theorem digit_ne {d c : Char} (hd : Decimal.isDigit d = true) (hc : Decimal.isDigit c = false) :
    d ≠ c := by
  rintro rfl
  simp [hd] at hc

theorem isSpace_of_isDigit {d : Char} (hd : Decimal.isDigit d = true) : isSpace d = false := by
  have hne (c : Char) (hc : Decimal.isDigit c = false) : (d == c) = false :=
    beq_eq_false_iff_ne.mpr (digit_ne hd hc)
  simp only [isSpace, hne ' ' (by decide), hne '\n' (by decide), hne '\t' (by decide),
    hne '\r' (by decide), Bool.or_false]

theorem Scalar.begins {e : Text} {v : Json} (h : Scalar e v) : Begins e := by
  cases h with
  | null => exact ⟨'n', _, rfl, by decide⟩
  | true => exact ⟨'t', _, rfl, by decide⟩
  | false => exact ⟨'f', _, rfl, by decide⟩
  | number he =>
    obtain ⟨d, t, rfl, hd⟩ := he.begins
    exact ⟨d, t, rfl, isSpace_of_isDigit hd, digit_ne hd (by decide), digit_ne hd (by decide)⟩
  | negative => exact ⟨'-', _, rfl, by decide⟩
  | string => exact ⟨'"', _, rfl, by decide⟩

/-- What a value that was read is: a scalar, a list or an object. -/
theorem readValue_cases {inner : Option (Reader Json)} {s r : Text} {v : Json}
    (h : readValue inner s = .ok (v, r)) :
    ∃ a, Blank a ∧ ((∃ e, Scalar e v ∧ s = a ++ (e ++ r)) ∨
      (∃ i t vs u, inner = some i ∧ s = a ++ '[' :: t ∧ items i true t = .ok (vs, u) ∧
        closeList u = .ok r ∧ v = .array vs) ∨
      (∃ i t ms u, inner = some i ∧ s = a ++ '\x7b' :: t ∧
        visitMembers (putMember i) [] true t = .ok (ms, u) ∧ closeObject u = .ok r ∧
        v = .object ms)) := by
  obtain ⟨a, ha, hs⟩ := exists_blank s
  refine ⟨a, ha, ?_⟩
  simp only [readValue] at h
  split at h
  · exact absurd h (by simp)
  rename_i c t hc
  rw [hc] at hs
  subst hs
  clear hc
  repeat' split at h
  all_goals first
    | (obtain ⟨p, hp, he⟩ := map_eq_ok h; obtain ⟨rfl, rfl⟩ := Prod.mk.inj he)
    | exact absurd h (by simp)
  · rename_i hc
    obtain rfl := word_eq_ok.mp hp
    exact .inl ⟨_, .null, by rw [hc]; rfl⟩
  · rename_i hc
    obtain rfl := word_eq_ok.mp hp
    exact .inl ⟨_, .true, by rw [hc]; rfl⟩
  · rename_i hc
    obtain rfl := word_eq_ok.mp hp
    exact .inl ⟨_, .false, by rw [hc]; rfl⟩
  · rename_i hc
    obtain ⟨e, hn, rfl, hx⟩ := readNumber_sound hp
    exact .inl ⟨_, .negative hn (by simpa using hx [] follows_nil), by rw [hc]; rfl⟩
  · obtain ⟨e, hn, hs, hx⟩ := readNumber_sound hp
    exact .inl ⟨_, .number hn (by simpa using hx [] follows_nil), by rw [hs]⟩
  · rename_i hc
    obtain ⟨k, hk, rfl⟩ := stringBody_eq_ok.mp hp
    exact .inl ⟨_, .string hk, by rw [hc]; simp⟩
  · rename_i hc _ i _ vs u hi
    exact .inr (.inl ⟨i, t, vs, u, rfl, by rw [hc], hi, hp, rfl⟩)
  · rename_i hc _ i _ ms u hi
    exact .inr (.inr ⟨i, t, ms, u, rfl, by rw [hc], hi, hp, rfl⟩)

/-- A numeral keeps its value in front of anything that may follow it. -/
theorem readNumber_complete {neg : Bool} {e r : Text} {x : Number}
    (h : readNumber neg e = .ok (x, [])) (hr : Follows r) :
    readNumber neg (e ++ r) = .ok (x, r) := by
  obtain ⟨e', -, he, hx⟩ := readNumber_sound h
  rw [List.append_nil] at he
  exact he ▸ hx r hr

theorem readValue_scalar (inner : Option (Reader Json)) {a e r : Text} {v : Json} (ha : Blank a)
    (he : Scalar e v) (hr : Follows r) : readValue inner (a ++ (e ++ r)) = .ok (v, r) := by
  rw [readValue, blanks_item ha he.begins]
  cases he with
  | null => rfl
  | true => rfl
  | false => rfl
  | number he hx =>
    obtain ⟨d, t, rfl, hd⟩ := he.begins
    have hread := readNumber_complete hx hr
    rw [List.cons_append] at hread
    simp only [List.cons_append, if_neg (digit_ne (c := 'n') hd (by decide)),
      if_neg (digit_ne (c := 't') hd (by decide)), if_neg (digit_ne (c := 'f') hd (by decide)),
      if_neg (digit_ne (c := '-') hd (by decide)), if_pos hd, hread]
    rfl
  | negative he hx =>
    simp only [List.cons_append, readNumber_complete hx hr]
    rfl
  | @string k t hk =>
    have hread : stringBody (k ++ ['"'] ++ r) = .ok (t, r) :=
      stringBody_eq_ok.mpr ⟨k, hk, by simp⟩
    simp only [List.cons_append, hread]
    rfl

theorem reads_scalar : Reads (readValue none) Scalar where
  sound h := by
    obtain ⟨a, ha, ⟨e, he, hs⟩ | ⟨i, _, _, _, hi, _⟩ | ⟨i, _, _, _, hi, _⟩⟩ := readValue_cases h
    · exact ⟨a, e, ha, he, hs⟩
    · exact absurd hi (by simp)
    · exact absurd hi (by simp)
  complete := readValue_scalar none
  begins := Scalar.begins

theorem Scalar.unique {e : Text} {v w : Json} (hv : Scalar e v) (hw : Scalar e w) : v = w := by
  have hread := reads_scalar.complete blank_nil hv follows_nil
  rw [reads_scalar.complete blank_nil hw follows_nil] at hread
  exact (Prod.mk.inj (Except.ok.inj hread)).1.symm

theorem Bracketed.begins {P : Text → Json → Prop} {e : Text} {v : Json} (h : Bracketed P e v) :
    Begins e := by
  cases h with
  | scalar he => exact he.begins
  | array => exact ⟨'[', _, rfl, by decide⟩
  | object => exact ⟨'\x7b', _, rfl, by decide⟩

section

variable {inner : Reader Json} {P : Text → Json → Prop} (hi : Reads inner.read P)

include hi

theorem readValue_list {a s : Text} {vs : List Json} (ha : Blank a) (hs : Listed P s vs)
    (r : Text) : readValue (some inner) (a ++ ('[' :: (s ++ [']']) ++ r)) = .ok (.array vs, r) := by
  obtain ⟨u, hu, hclose⟩ := items_listed hi.takes hs r
  rw [readValue, blanks_item ha ⟨'[', _, rfl, by decide⟩]
  simp only [List.cons_append, List.append_assoc, List.nil_append, hu, hclose]
  rfl

theorem readValue_object {a s : Text} {ms : List (Text × Json)} (ha : Blank a)
    (hs : Listed (Member P) s ms) (r : Text) :
    readValue (some inner) (a ++ ('\x7b' :: (s ++ ['\x7d']) ++ r)) =
      .ok (.object (ofWritten ms), r) := by
  obtain ⟨u, hu, hclose⟩ := members_listed (visits_putMember hi).takesUp hs (foldlM_put ms []) r
  rw [← ofWritten] at hu
  rw [readValue, blanks_item ha ⟨'\x7b', _, rfl, by decide⟩]
  simp only [List.cons_append, List.append_assoc, List.nil_append, hu, hclose]
  rfl

/-- **What is read in brackets lifts to the brackets.** -/
theorem reads_bracketed : Reads (readValue (some inner)) (Bracketed P) where
  sound {s r v} h := by
    obtain ⟨a, ha, ⟨e, he, hs⟩ | ⟨i, t, vs, u, hsome, hs, hvs, hclose, rfl⟩ |
      ⟨i, t, ms, u, hsome, hs, hms, hclose, rfl⟩⟩ := readValue_cases h
    · exact ⟨a, e, ha, .scalar he, hs⟩
    · obtain rfl := Option.some.inj hsome
      obtain ⟨w, r', rfl, hw, hclose'⟩ := items_sound hi hvs
      obtain rfl := Except.ok.inj (hclose'.symm.trans hclose)
      exact ⟨a, _, ha, .array hw, by rw [hs]; simp⟩
    · obtain rfl := Option.some.inj hsome
      obtain ⟨w, r', ws, rfl, hw, hrun, hclose'⟩ := members_sound (visits_putMember hi) hms
      rw [foldlM_put] at hrun
      obtain rfl := Option.some.inj hrun
      obtain rfl := Except.ok.inj (hclose'.symm.trans hclose)
      exact ⟨a, _, ha, .object hw, by rw [hs]; simp⟩
  complete {a e r v} ha he hr := by
    cases he with
    | scalar he => exact readValue_scalar _ ha he hr
    | array hs => exact readValue_list hi ha hs r
    | object hs => exact readValue_object hi ha hs r
  begins := Bracketed.begins

end

/-- **The reader of bounded depth takes exactly the texts of that depth.** -/
theorem reads_valueAt (d : Nat) : Reads (valueAt d).read (Written d) := by
  induction d with
  | zero => exact reads_scalar
  | succ d ih => exact reads_bracketed ih

/-- **A text is read as a value exactly if it is a document of that value.** -/
theorem parse_eq_ok_iff {s : Text} {v : Json} : parse s = .ok v ↔ Document s v := by
  constructor
  · intro h
    simp only [parse, whole] at h
    split at h
    · exact absurd h (by simp)
    rename_i x r hread
    split at h
    · rename_i hr
      obtain rfl := Except.ok.inj h
      obtain ⟨a, e, ha, he, rfl⟩ := (reads_valueAt maxDepth).sound hread
      exact ⟨a, e, r, ha, he, blanks_eq_nil.mp hr, rfl⟩
    · exact absurd h (by simp)
  · rintro ⟨a, e, b, ha, he, hb, rfl⟩
    have hread : (valueAt maxDepth).read (a ++ (e ++ b)) = .ok (v, b) :=
      (reads_valueAt maxDepth).complete ha he (by simpa using follows_of_blank hb follows_nil)
    rw [parse, whole, hread]
    simp only [blanks_eq_nil.mpr hb]

theorem Document.not_blank {s : Text} {v : Json} (h : Document s v) : ¬Blank s := by
  obtain ⟨a, e, b, -, he, -, rfl⟩ := h
  obtain ⟨c, t, rfl, hc, -⟩ := (reads_valueAt maxDepth).begins he
  intro hs
  exact absurd (hs c (by simp)) (by simp [hc])

end PromptTemplate.Json
