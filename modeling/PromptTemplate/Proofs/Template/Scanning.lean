import Mathlib.Data.List.Forall2
import PromptTemplate.Placeholder.Token
import PromptTemplate.Proofs.Text.Run
import PromptTemplate.Template.Scan

/-!
# Proofs/Template/Scanning — where the occurrences of a template are

    …a {{x} {{{b}} c}} …    one occurrence, `b`, whatever stands around it

An occurrence is found wherever braces close around a text without braces: no brace in front of it
and none behind it can hide it, nor can anything that was found before (`pieces_append_braced`).
So **the occurrences of a template are all such parts of it** (`mem_scan_iff`), and where they are
does not depend on what their bodies say (`pieces_flatMap_text`).
-/

namespace PromptTemplate.Template

open Placeholder Text

/-- A text without braces. -/
def Unbraced (t : Text) : Prop := ∀ c ∈ t, Token.isBrace c = false

instance : DecidablePred Unbraced := fun t => List.decidableBAll (Token.isBrace · = false) t

theorem unbraced_nil : Unbraced [] := fun _ hc => absurd hc List.not_mem_nil

theorem unbraced_cons {c : Char} {t : Text} :
    Unbraced (c :: t) ↔ Token.isBrace c = false ∧ Unbraced t := List.forall_mem_cons

theorem unbraced_append {s t : Text} : Unbraced (s ++ t) ↔ Unbraced s ∧ Unbraced t :=
  List.forall_mem_append

/-- A class without the two braces. -/
theorem unbraced_of_class {p : Char → Bool} (hopening : p '\x7b' = false)
    (hclosing : p '\x7d' = false) {t : Text} (h : ∀ c ∈ t, p c = true) : Unbraced t := by
  intro c hc
  have hne : ∀ b, p b = false → c ≠ b := fun b hb heq =>
    Bool.false_ne_true (hb.symm.trans (heq ▸ h c hc))
  simp [Token.isBrace, hne _ hopening, hne _ hclosing]

/-! ## At the front of a text -/

theorem occurrence?_braced {body : Text} (h : Unbraced body) (rest : Text) :
    occurrence? (braced body ++ rest) = some (body, rest) := by
  have hclass : (fun c => c != '\x7b' && c != '\x7d') = (!Token.isBrace ·) := by
    funext c
    simp [Token.isBrace, bne]
  have hbody : ∀ c ∈ body, (!Token.isBrace c) = true := fun c hc => by rw [h c hc]; rfl
  have hends : Ends (!Token.isBrace ·) ('\x7d' :: '\x7d' :: rest) := ends_cons.mpr rfl
  have htext : braced body ++ rest = '\x7b' :: '\x7b' :: (body ++ '\x7d' :: '\x7d' :: rest) := by
    simp [braced]
  rw [htext, occurrence?, hclass, dropWhile_of_ends hbody hends, takeWhile_of_ends hbody hends]
  rfl

/-- The body of an occurrence has no braces. -/
theorem unbraced_of_occurrence? {s body rest : Text} (h : occurrence? s = some (body, rest)) :
    Unbraced body := by
  simp only [occurrence?] at h
  split at h
  · split at h
    · obtain ⟨rfl, rfl⟩ := Prod.mk.inj (Option.some.inj h)
      exact unbraced_of_class rfl rfl (List.all_eq_true.mp List.all_takeWhile)
    · exact absurd h (by simp)
  · exact absurd h (by simp)

theorem occurrence?_eq_some {s body rest : Text} :
    occurrence? s = some (body, rest) ↔ Unbraced body ∧ s = braced body ++ rest := by
  refine ⟨fun h => ⟨unbraced_of_occurrence? h, occurrence?_eq h⟩, ?_⟩
  rintro ⟨h, rfl⟩
  exact occurrence?_braced h rest

/-- No braces open behind the first two of an occurrence. -/
theorem not_opening_mem {body : Text} (h : Unbraced body) : '\x7b' ∉ body ++ ['\x7d', '\x7d'] := by
  rw [List.mem_append]
  rintro (hmem | hmem)
  · exact absurd (h _ hmem) (by decide)
  · exact absurd hmem (by decide)

/-- Two braces that open behind the start of an occurrence open behind its end. -/
theorem exists_eq_braced_append {a body rest t : Text} (ha : a ≠ []) (hbody : Unbraced body)
    (h : a ++ '\x7b' :: '\x7b' :: t = braced body ++ rest) : ∃ x, a = braced body ++ x := by
  obtain ⟨c, a, rfl⟩ := List.exists_cons_of_ne_nil ha
  obtain ⟨x, hx, hrest⟩ | ⟨x, hx, -⟩ := List.append_eq_append_iff.mp h
  · cases x with
    | nil => exact ⟨[], by rw [hx, List.append_nil, List.append_nil]⟩
    | cons d x =>
      -- the occurrence ends behind the first of the two braces
      obtain ⟨rfl, hx'⟩ := List.cons.inj hrest
      refine absurd ?_ (not_opening_mem hbody)
      cases a with
      | nil =>
        obtain rfl : body ++ ['\x7d', '\x7d'] = x := (List.cons.inj (List.cons.inj hx).2).2
        cases body with
        | nil => exact absurd hx' (by simp)
        | cons d body => exact (List.cons.inj hx').1 ▸ List.mem_cons_self
      | cons d a =>
        have hbehind : body ++ ['\x7d', '\x7d'] = a ++ '\x7b' :: x :=
          (List.cons.inj (List.cons.inj hx).2).2
        rw [hbehind]
        exact List.mem_append_right a List.mem_cons_self
  · exact ⟨x, hx⟩

/-- **Braces that open later do not make an occurrence at the front, nor do they hide it.** -/
theorem occurrence?_append_opening {a : Text} (ha : a ≠ []) (t : Text) :
    occurrence? (a ++ '\x7b' :: '\x7b' :: t) = none ↔ occurrence? a = none := by
  simp only [Option.eq_none_iff_forall_ne_some, ne_eq, Prod.forall, occurrence?_eq_some, not_and]
  constructor
  · rintro h body rest hbody rfl
    exact h body (rest ++ '\x7b' :: '\x7b' :: t) hbody (List.append_assoc _ _ _)
  · intro h body rest hbody heq
    obtain ⟨x, hx⟩ := exists_eq_braced_append ha hbody heq
    exact h body x hbody hx

/-! ## In a whole text -/

theorem pieces_nil : pieces [] = [] := by simp [pieces, occurrence?]

theorem pieces_of_occurrence? {s body rest : Text} (h : occurrence? s = some (body, rest)) :
    pieces s = .occurrence body :: pieces rest := by
  rw [pieces]
  split
  · rename_i h'
    obtain ⟨rfl, rfl⟩ := Prod.mk.inj (Option.some.inj (h'.symm.trans h))
    rfl
  · exact absurd (h.symm.trans ‹_›) (by simp)

theorem pieces_cons {c : Char} {s : Text} (h : occurrence? (c :: s) = none) :
    pieces (c :: s) = .char c :: pieces s := by
  rw [pieces]
  split
  · exact absurd (h.symm.trans ‹_›) (by simp)
  · rfl

theorem unbraced_of_mem_pieces {s body : Text} (h : .occurrence body ∈ pieces s) :
    Unbraced body := by
  fun_induction pieces s with
  | case1 s b rest hs ih =>
    obtain heq | hmem := List.mem_cons.mp h
    · exact Piece.occurrence.inj heq ▸ unbraced_of_occurrence? hs
    · exact ih hmem
  | case2 => exact absurd h List.not_mem_nil
  | case3 c r hs ih =>
    obtain heq | hmem := List.mem_cons.mp h
    · exact absurd heq (by simp)
    · exact ih hmem

/-- **An occurrence is found whatever stands in front of it.** -/
theorem pieces_append_braced {body : Text} (h : Unbraced body) (a t : Text) :
    pieces (a ++ (braced body ++ t)) = pieces a ++ .occurrence body :: pieces t := by
  fun_induction pieces a with
  | case1 a b rest ha ih =>
    obtain ⟨hb, rfl⟩ := occurrence?_eq_some.mp ha
    rw [List.append_assoc, pieces_of_occurrence? (occurrence?_braced hb _), ih, List.cons_append]
  | case2 => exact pieces_of_occurrence? (occurrence?_braced h t)
  | case3 c r hc ih =>
    rw [List.cons_append, List.cons_append, ← ih]
    exact pieces_cons ((occurrence?_append_opening (List.cons_ne_nil c r)
      (body ++ ['\x7d', '\x7d'] ++ t)).mpr hc)

/-! ## The occurrences and their offsets -/

/-- The offsets of later pieces count the text of those before them. -/
theorem occurrencesFrom_append (i : Nat) (ps qs : List Piece) :
    occurrencesFrom i (ps ++ qs) =
      occurrencesFrom i ps ++ occurrencesFrom (i + bytes (ps.flatMap Piece.text)) qs := by
  induction ps generalizing i with
  | nil => rfl
  | cons p ps ih =>
    cases p <;> simp [occurrencesFrom, Piece.text, ih, Nat.add_assoc]

theorem occurrencesFrom_cons (i : Nat) (p : Piece) (ps : List Piece) :
    occurrencesFrom i (p :: ps) =
      occurrencesFrom i [p] ++ occurrencesFrom (i + bytes p.text) ps := by
  have h := occurrencesFrom_append i [p] ps
  rwa [List.flatMap_singleton] at h

theorem mem_occurrencesFrom_singleton {i : Nat} {p : Piece} {o : Occurrence} :
    o ∈ occurrencesFrom i [p] ↔ p = .occurrence o.body ∧ o.start = i := by
  obtain ⟨start, body⟩ := o
  cases p with
  | char c => simp [occurrencesFrom]
  | occurrence b => simp [occurrencesFrom, eq_comm, and_comm]

theorem mem_occurrencesFrom {i : Nat} {ps : List Piece} {o : Occurrence} :
    o ∈ occurrencesFrom i ps ↔ ∃ qs rs, ps = qs ++ .occurrence o.body :: rs ∧
      o.start = i + bytes (qs.flatMap Piece.text) := by
  constructor
  · induction ps generalizing i with
    | nil => exact fun h => absurd h List.not_mem_nil
    | cons p ps ih =>
      rw [occurrencesFrom_cons, List.mem_append]
      rintro (hfirst | hlater)
      · obtain ⟨rfl, hstart⟩ := mem_occurrencesFrom_singleton.mp hfirst
        exact ⟨[], ps, rfl, hstart⟩
      · obtain ⟨qs, rs, rfl, hstart⟩ := ih hlater
        refine ⟨p :: qs, rs, rfl, ?_⟩
        rw [hstart, List.flatMap_cons, bytes_append, Nat.add_assoc]
  · rintro ⟨qs, rs, rfl, hstart⟩
    rw [occurrencesFrom_append, occurrencesFrom, ← hstart]
    exact List.mem_append_right _ List.mem_cons_self

/-- The bodies of the occurrences are those of the pieces. -/
theorem exists_mem_scan_body_iff {s body : Text} :
    (∃ o ∈ scan s, o.body = body) ↔ .occurrence body ∈ pieces s := by
  constructor
  · rintro ⟨o, ho, rfl⟩
    obtain ⟨qs, rs, hpieces, -⟩ := mem_occurrencesFrom.mp ho
    exact hpieces ▸ List.mem_append_right qs List.mem_cons_self
  · intro h
    obtain ⟨qs, rs, hpieces⟩ := List.append_of_mem h
    exact ⟨⟨_, body⟩, mem_occurrencesFrom.mpr ⟨qs, rs, hpieces, rfl⟩, rfl⟩

/-- What holds of all bodies among the pieces holds of the occurrences, and the other way round. -/
theorem forall_mem_scan_iff {s : Text} {P : Text → Prop} :
    (∀ o ∈ scan s, P o.body) ↔ ∀ p ∈ pieces s, ∀ body, p = .occurrence body → P body := by
  constructor
  · rintro h p hp body rfl
    obtain ⟨o, ho, rfl⟩ := exists_mem_scan_body_iff.mpr hp
    exact h o ho
  · intro h o ho
    exact h _ (exists_mem_scan_body_iff.mp ⟨o, ho, rfl⟩) _ rfl

/-- **The occurrences of a text are its parts that are braces around a text without braces.** -/
theorem mem_scan_iff {s : Text} {o : Occurrence} :
    o ∈ scan s ↔ Unbraced o.body ∧ ∃ a b, s = a ++ (o.text ++ b) ∧ bytes a = o.start := by
  rw [scan, mem_occurrencesFrom]
  constructor
  · rintro ⟨qs, rs, hpieces, hstart⟩
    have hflatten := flatten_pieces s
    rw [hpieces, List.flatMap_append, List.flatMap_cons] at hflatten
    refine ⟨unbraced_of_mem_pieces (s := s) ?_, _, _, hflatten.symm, ?_⟩
    · exact hpieces ▸ List.mem_append_right qs List.mem_cons_self
    · rw [hstart, Nat.zero_add]
  · rintro ⟨hbody, a, b, rfl, hstart⟩
    refine ⟨pieces a, pieces b, pieces_append_braced hbody a b, ?_⟩
    rw [flatten_pieces, Nat.zero_add, hstart]

/-- A text has no occurrence just when it has no such part. -/
theorem scan_eq_nil_iff {s : Text} :
    scan s = [] ↔ ¬ ∃ a body t, Unbraced body ∧ s = a ++ (braced body ++ t) := by
  rw [List.eq_nil_iff_forall_not_mem]
  constructor
  · rintro h ⟨a, body, t, hbody, hs⟩
    exact h ⟨bytes a, body⟩ (mem_scan_iff.mpr ⟨hbody, a, t, hs, rfl⟩)
  · intro h o ho
    obtain ⟨hbody, a, t, hs, -⟩ := mem_scan_iff.mp ho
    exact h ⟨a, o.body, t, hbody, hs⟩

/-! ## The same pieces with other bodies -/

/-- Pieces that differ in the body of an occurrence at most. -/
inductive SameShape : Piece → Piece → Prop
  | char (c : Char) : SameShape (.char c) (.char c)
  | occurrence {b b' : Text} (h : Unbraced b') : SameShape (.occurrence b) (.occurrence b')

/-- Up to the first braces that open an occurrence, pieces of the same shape have the same text. -/
theorem text_eq_or_of_sameShape {ps qs : List Piece} (h : List.Forall₂ SameShape ps qs) :
    ps.flatMap Piece.text = qs.flatMap Piece.text ∨
      ∃ a t t', ps.flatMap Piece.text = a ++ '\x7b' :: '\x7b' :: t ∧
        qs.flatMap Piece.text = a ++ '\x7b' :: '\x7b' :: t' := by
  induction h with
  | nil => exact .inl rfl
  | cons hp hps ih =>
    cases hp with
    | occurrence h => exact .inr ⟨[], _, _, rfl, rfl⟩
    | char c =>
      obtain heq | ⟨a, t, t', ht, ht'⟩ := ih
      · exact .inl (congrArg (c :: ·) heq)
      · exact .inr ⟨c :: a, t, t', congrArg (c :: ·) ht, congrArg (c :: ·) ht'⟩

/-- **Where the occurrences of a template are does not depend on their bodies.** -/
theorem pieces_flatMap_text {s : Text} {qs : List Piece}
    (h : List.Forall₂ SameShape (pieces s) qs) : pieces (qs.flatMap Piece.text) = qs := by
  fun_induction pieces s generalizing qs with
  | case1 s b rest hs ih =>
    obtain _ | @⟨_, _, _, qs, hp, hps⟩ := h
    obtain _ | hb := hp
    rw [List.flatMap_cons, Piece.text, pieces_of_occurrence? (occurrence?_braced hb _), ih hps]
  | case2 =>
    obtain _ | _ := h
    exact pieces_nil
  | case3 c r hc ih =>
    obtain _ | @⟨_, _, _, qs, hp, hps⟩ := h
    obtain _ | _ := hp
    rw [List.flatMap_cons, Piece.text, List.singleton_append, pieces_cons ?_, ih hps]
    obtain heq | ⟨a, t, t', ht, ht'⟩ := text_eq_or_of_sameShape hps
    · rw [← heq, flatten_pieces]
      exact hc
    · rw [flatten_pieces] at ht
      rw [ht, ← List.cons_append, occurrence?_append_opening (List.cons_ne_nil c a)] at hc
      rw [ht', ← List.cons_append, occurrence?_append_opening (List.cons_ne_nil c a)]
      exact hc

end PromptTemplate.Template
