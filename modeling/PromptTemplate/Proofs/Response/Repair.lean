import PromptTemplate.Proofs.Json.Members
import PromptTemplate.Proofs.Json.Nesting
import PromptTemplate.Response.Decode

/-!
# Proofs/Response/Repair — what is recovered from a response that was cut off

    [ {…} , {…} , {"a": [ {…      cut off
    [ {…} , {…} , {"a": [ {…} ]   closed behind the last brace: too deep, so no JSON text

An `Envelope` is one of the two brackets around a response with what may stand inside. The repair
closes it behind the last closing brace. If that is a JSON text, the brace is on the level of the
items (`Envelope.exists_cut`), so **nothing but whole items is ever kept**
(`Envelope.contents_of_isPrefix`); and where nothing behind the last item has a brace, **all of
them are** (`Envelope.contents_of_truncated`).
-/

namespace PromptTemplate.Response

open Json

/-! ## The last closing brace -/

theorem upToLastBrace?_append (x : Text) {g : Text} (hg : '\x7d' ∉ g) :
    upToLastBrace? (x ++ '\x7d' :: g) = some (x ++ ['\x7d']) := by
  have hg' : ∀ c ∈ g.reverse, (c != '\x7d') = true := by
    intro c hc
    exact bne_iff_ne.mpr fun h => hg (h ▸ List.mem_reverse.mp hc)
  have hrev : (x ++ '\x7d' :: g).reverse = g.reverse ++ '\x7d' :: x.reverse := by simp
  rw [upToLastBrace?, hrev, List.dropWhile_append_of_pos hg']
  simp

theorem upToLastBrace?_eq_some {s k : Text} (h : upToLastBrace? s = some k) :
    k <+: s ∧ k.getLast? = some '\x7d' := by
  simp only [upToLastBrace?] at h
  split at h
  · exact absurd h (by simp)
  obtain rfl := Option.some.inj h
  refine ⟨?_, ?_⟩
  · rw [← List.reverse_suffix, List.reverse_reverse]
    exact List.dropWhile_suffix _
  · have hhead := List.head?_dropWhile_not (· != '\x7d') s.reverse
    rw [List.getLast?_reverse]
    cases hr : s.reverse.dropWhile (· != '\x7d') with
    | nil => simp_all
    | cons c r =>
      rw [hr] at hhead
      simpa using hhead

/-! ## The outer bracket -/

theorem isBlank_of_isSpace {c : Char} (h : isSpace c = true) : Text.isBlank c = true := by
  simp only [isSpace, Bool.or_eq_true, beq_iff_eq] at h
  rcases h with ((rfl | rfl) | rfl) | rfl <;> rfl

theorem trimStart_append {a : Text} (ha : Blank a) (s : Text) :
    Text.trimStart (a ++ s) = Text.trimStart s :=
  List.dropWhile_append_of_pos fun c hc => isBlank_of_isSpace (ha c hc)

theorem closer?_of_blank {s : Text} (h : Blank s) : closer? s = none := by
  have hs : Text.trimStart s = [] := by
    rw [← List.append_nil s, trimStart_append h]
    rfl
  rw [closer?, hs]

/-- The brackets around a response, what `R` describes in them, and the value they hold. -/
structure Envelope {α : Type} (o c : Char) (R : Text → α → Prop) (value : List α → Json) :
    Prop where
  pair : Pair o .outside c
  solid : ∀ {e : Text} {x : α}, R e x → Solid e
  parse : ∀ {a s b : Text} {xs : List α}, Blank a → Listed R s xs → Blank b →
    Json.parse (a ++ o :: (s ++ c :: b)) = .ok (value xs)
  closer : ∀ {a : Text} (t : Text), Blank a → closer? (a ++ o :: t) = some c
  empty : (if c = ']' then [] else [Content.record []]) = ofJson (value [])

theorem envelope_list : Envelope '[' ']' (Written (maxDepth - 1)) .array where
  pair := .list
  solid := Written.solid
  parse ha hs hb := parse_eq_ok_iff.mpr ⟨_, _, _, ha, .array hs, hb, by simp⟩
  closer t ha := by rw [closer?, trimStart_append ha]; rfl
  empty := rfl

theorem envelope_object :
    Envelope '\x7b' '\x7d' (Member (Written (maxDepth - 1))) fun ms => .object (ofWritten ms) where
  pair := .object
  solid := Member.solid Written.solid
  parse ha hs hb := parse_eq_ok_iff.mpr ⟨_, _, _, ha, .object hs, hb, by simp⟩
  closer t ha := by rw [closer?, trimStart_append ha]; rfl
  empty := rfl

namespace Envelope

variable {α : Type} {o c : Char} {R : Text → α → Prop} {value : List α → Json}

/-- A place of a response where closing its outer bracket behind a brace gives a balanced text is
behind an item. -/
theorem exists_cut (h : Envelope o c R value) {a s b q : Text} (ha : Blank a) (hs : Json.Balanced s)
    (hb : Blank b) (hq : q <+: a ++ o :: (s ++ c :: b)) (hlast : q.getLast? = some '\x7d')
    (hclosed : Json.Balanced (q ++ [c])) : ∃ p, Cut s p ∧ q = a ++ o :: p := by
  have hone := h.pair.level_of_closed hclosed
  obtain hqa | ⟨r, hr, hrt, rfl⟩ := prefix_append_cases hq
  · have hmem := hqa.subset (List.mem_of_getLast? hlast)
    exact absurd hmem (brace_not_mem_of_plain ha.plain)
  obtain rfl | ⟨t, rfl, ht⟩ := List.prefix_cons_iff.mp hrt
  · exact absurd rfl hr
  rw [Level.after_append, balanced_of_plain ha.plain, Option.bind_some, Level.after_cons,
    h.pair.opens, Option.bind_some] at hone
  obtain hts | ⟨u, hu, hut, rfl⟩ := prefix_append_cases ht
  · have hne : t ≠ [] := by
      rintro rfl
      exact absurd hlast (by cases h.pair <;> simp)
    rw [List.getLast?_append_of_ne_nil _ hr, List.getLast?_cons_of_ne_nil hne] at hlast
    exact ⟨t, cut_of_level hs hts hlast hone, rfl⟩
  · -- behind the closing bracket the walk stays on the outermost level
    obtain rfl | ⟨u, rfl, hub⟩ := List.prefix_cons_iff.mp hut
    · exact absurd rfl hu
    have hblank : Blank u := fun d hd => hb d (hub.subset hd)
    rw [Level.after_append, hs.outside, Option.bind_some, Level.after_cons, h.pair.closes,
      Option.bind_some, balanced_of_plain hblank.plain] at hone
    exact absurd hone (by simp)

/-- A beginning of a response that is balanced has all of it but blanks at the end. -/
theorem eq_of_balanced (h : Envelope o c R value) {a s b p : Text} (ha : Blank a)
    (hs : Json.Balanced s) (hb : Blank b) (hp : p <+: a ++ o :: (s ++ c :: b))
    (hbal : Json.Balanced p) (hne : ¬Blank p) :
    ∃ b', Blank b' ∧ p = a ++ o :: (s ++ c :: b') := by
  obtain hpa | ⟨q, hq, hqt, rfl⟩ := prefix_append_cases hp
  · exact absurd (fun d hd => ha d (hpa.subset hd)) hne
  rw [Json.Balanced, Level.after_append, balanced_of_plain ha.plain, Option.bind_some] at hbal
  have hsplit : o :: (s ++ c :: b) = o :: (s ++ [c]) ++ b := by simp
  rw [hsplit] at hqt
  obtain hqs | ⟨b', -, hb', rfl⟩ := prefix_append_cases hqt
  · exact ⟨[], blank_nil, by rw [h.pair.eq_of_balanced hs hqs hq hbal]⟩
  · exact ⟨b', fun d hd => hb d (hb'.subset hd), by simp⟩

/-- What is read where a response is closed behind a brace is a beginning of its items. -/
theorem exists_items (h : Envelope o c R value) {a s b q : Text} {xs : List α} {v : Json}
    (ha : Blank a) (hs : Listed R s xs) (hb : Blank b) (hq : q <+: a ++ o :: (s ++ c :: b))
    (hlast : q.getLast? = some '\x7d') (hv : Json.parse (q ++ [c]) = .ok v) :
    ∃ ys, ys <+: xs ∧ v = value ys := by
  have hclosed := (parse_eq_ok_iff.mp hv).balanced
  obtain ⟨u, hcut, rfl⟩ := h.exists_cut ha (hs.balanced h.solid) hb hq hlast hclosed
  cases hs with
  | empty hblank => exact absurd hcut.mem (brace_not_mem_of_plain hblank.plain)
  | items hsep =>
    obtain ⟨ys, hys, hsep'⟩ := hsep.cut h.solid hcut
    have hval := h.parse ha (.items hsep') blank_nil
    rw [List.append_assoc, List.cons_append, hval] at hv
    exact ⟨ys, hys, (Except.ok.inj hv).symm⟩

theorem repair_of_isPrefix (h : Envelope o c R value) {a s b p : Text} {xs : List α}
    (ha : Blank a) (hs : Listed R s xs) (hb : Blank b) (hp : p <+: a ++ o :: (s ++ c :: b)) :
    repair p = [.text p] ∨ ∃ ys, ys <+: xs ∧ repair p = ofJson (value ys) := by
  rw [repair]
  obtain hpa | ⟨q, hq, hqt, rfl⟩ := prefix_append_cases hp
  · rw [closer?_of_blank fun c hc => ha c (hpa.subset hc)]
    exact .inl rfl
  obtain rfl | ⟨t, rfl, ht⟩ := List.prefix_cons_iff.mp hqt
  · exact absurd rfl hq
  rw [h.closer t ha]
  cases hkept : upToLastBrace? (a ++ o :: t) with
  | none => exact .inr ⟨[], List.nil_prefix, h.empty⟩
  | some kept =>
    obtain ⟨hk, hlast⟩ := upToLastBrace?_eq_some hkept
    simp only
    cases hcand : Json.parse (kept ++ [c]) with
    | error f => exact .inl rfl
    | ok v =>
      obtain ⟨ys, hys, rfl⟩ := h.exists_items ha hs hb (hk.trans hp) hlast hcand
      exact .inr ⟨ys, hys, rfl⟩

/-- **Of a beginning of a response either whole items are kept, or it stays one text.** -/
theorem contents_of_isPrefix (h : Envelope o c R value) {a s b p : Text} {xs : List α}
    (ha : Blank a) (hs : Listed R s xs) (hb : Blank b) (hp : p <+: a ++ o :: (s ++ c :: b)) :
    contents p = [.text p] ∨ ∃ ys, ys <+: xs ∧ contents p = ofJson (value ys) := by
  cases hparse : Json.parse p with
  | error f =>
    rw [contents, hparse]
    exact h.repair_of_isPrefix ha hs hb hp
  | ok v =>
    have hdoc := parse_eq_ok_iff.mp hparse
    obtain ⟨b', hb', rfl⟩ :=
      h.eq_of_balanced ha (hs.balanced h.solid) hb hp hdoc.balanced hdoc.not_blank
    refine .inr ⟨xs, List.prefix_rfl, ?_⟩
    rw [contents, h.parse ha hs hb']

/-- **Of a response cut off behind an item that ends with a brace, all items are kept.** -/
theorem contents_of_truncated (h : Envelope o c R value) {s t g : Text} {xs : List α}
    (hs : Separated R (s ++ ['\x7d']) xs) (ht : Blank t) (hg : '\x7d' ∉ g)
    (hparse : ∀ v, Json.parse (o :: (s ++ '\x7d' :: (t ++ g))) ≠ .ok v) :
    contents (o :: (s ++ '\x7d' :: (t ++ g))) = ofJson (value xs) := by
  have hbrace : '\x7d' ∉ t ++ g := by
    rw [List.mem_append, not_or]
    exact ⟨brace_not_mem_of_plain ht.plain, hg⟩
  have hkept := upToLastBrace?_append (o :: s) hbrace
  have hval := h.parse blank_nil (.items hs) blank_nil
  have hcand : o :: s ++ ['\x7d'] ++ [c] = [] ++ o :: (s ++ ['\x7d'] ++ c :: []) := by simp
  cases hp : Json.parse (o :: (s ++ '\x7d' :: (t ++ g))) with
  | ok v => exact absurd hp (hparse v)
  | error f =>
    rw [contents, hp]
    simp only [repair]
    rw [← List.cons_append, hkept, List.cons_append]
    have hcloser := h.closer (a := []) (s ++ '\x7d' :: (t ++ g)) blank_nil
    rw [List.nil_append] at hcloser
    rw [hcloser]
    simp only
    rw [hcand, hval]

/-- The same where blanks may stand behind the last item. -/
theorem contents_of_last (h : Envelope o c R value) {s g : Text} {xs : List α} {x : α}
    (hs : Separated R s xs) (hlast : xs.getLast? = some x)
    (hx : ∀ e, R e x → e.getLast? = some '\x7d') (hg : '\x7d' ∉ g)
    (hparse : ∀ v, Json.parse (o :: (s ++ g)) ≠ .ok v) :
    contents (o :: (s ++ g)) = ofJson (value xs) := by
  obtain ⟨t, e, b, y, rfl, hb, hs', hy, hlast'⟩ := hs.exists_last
  obtain rfl : x = y := by simpa [hlast] using hlast'
  obtain ⟨r, rfl⟩ := List.getLast?_eq_some_iff.mp (hx e hy)
  have hsplit : o :: (t ++ (r ++ ['\x7d']) ++ b ++ g) = o :: (t ++ r ++ '\x7d' :: (b ++ g)) := by
    simp
  rw [← List.append_assoc] at hs'
  rw [hsplit] at hparse ⊢
  exact h.contents_of_truncated hs' hb hg hparse

end Envelope

/-! ## What is recovered -/

theorem map_content_variants {ι : Type} (id : Nat → ι) (s : Text) :
    (variants id s).map Variant.content = contents s := by
  refine List.ext_getElem (by simp [variants]) fun i hi hi' => ?_
  simp [variants]

theorem contents_of_parse {s : Text} {v : Json} (h : Json.parse s = .ok v) :
    contents s = ofJson v := by
  rw [contents, h]

/-- A text that holds a list has the outer brackets of one. -/
theorem exists_list {s : Text} {vs : List Json} (h : Json.parse s = .ok (.array vs)) :
    ∃ a t b, Blank a ∧ Listed (Written (maxDepth - 1)) t vs ∧ Blank b ∧
      s = a ++ '[' :: (t ++ ']' :: b) := by
  obtain ⟨a, e, b, ha, he, hb, rfl⟩ := parse_eq_ok_iff.mp h
  change Bracketed (Written (maxDepth - 1)) e (.array vs) at he
  cases he with
  | scalar hscalar => exact nomatch hscalar
  | @array t _ ht => exact ⟨a, t, b, ha, ht, hb, by simp⟩

/-! ## Small items -/

section

variable {d : Nat} {c : Char} {e : Text} {v : Json}

theorem written_empty_object : Written (d + 1) ['\x7b', '\x7d'] (.object []) :=
  .object (.empty blank_nil)

/-- A list of one item. -/
theorem written_list_one (h : Written d e v) :
    Written (d + 1) ('[' :: (e ++ [']'])) (.array [v]) := by
  have hlist := Bracketed.array (.items (.one blank_nil h blank_nil))
  rwa [List.nil_append, List.append_nil] at hlist

/-- A member whose key is one letter. -/
theorem member_letter {P : Text → Json → Prop} (hc : c ≠ '"' ∧ c ≠ '\\' ∧ 0x20 ≤ c.toNat)
    (h : P e v) : Member P ('"' :: c :: '"' :: ':' :: e) ([c], v) :=
  .mk (.plain hc.1 hc.2.1 hc.2.2 .nil) blank_nil blank_nil h

/-- An object of one such member. -/
theorem written_object_letter (hc : c ≠ '"' ∧ c ≠ '\\' ∧ 0x20 ≤ c.toNat) (h : Written d e v) :
    Written (d + 1) ('\x7b' :: '"' :: c :: '"' :: ':' :: (e ++ ['\x7d'])) (.object [([c], v)]) := by
  have hobject := Bracketed.object (.items (.one blank_nil (member_letter hc h) blank_nil))
  rwa [List.nil_append, List.append_nil] at hobject

end

/-- **A response that was cut off gives nothing but what the whole one gives**: of a list a
beginning of its contents, of an object a beginning of its members, or the response as one text. -/
theorem variants_of_isPrefix {ι : Type} (id : Nat → ι) {p s : Text} (hp : p <+: s) :
    (∀ vs, Json.parse s = .ok (.array vs) →
      (variants id p).map Variant.content = [.text p] ∨
        (variants id p).map Variant.content <+: (variants id s).map Variant.content) ∧
    (∀ ms, Json.parse s = .ok (.object ms) → DistinctKeys s →
      (variants id s).map Variant.content = [.record ms] ∧
        ((variants id p).map Variant.content = [.text p] ∨
          ∃ ns, ns <+: ms ∧ (variants id p).map Variant.content = [.record ns])) := by
  simp only [map_content_variants]
  refine ⟨fun vs hs => ?_, fun ms hs hkeys => ?_⟩
  · rw [contents_of_parse hs]
    obtain ⟨a, t, b, ha, ht, hb, rfl⟩ := exists_list hs
    obtain htext | ⟨ws, hws, hcontents⟩ := envelope_list.contents_of_isPrefix ha ht hb hp
    · exact .inl htext
    · rw [hcontents]
      exact .inr (hws.map Content.ofItem)
  · obtain ⟨ws, ⟨a, t, b, ha, ht, hb, rfl⟩, hnodup⟩ := hkeys
    rw [envelope_object.parse ha ht hb, ofWritten_of_nodup hnodup] at hs
    obtain rfl : ws = ms := by simpa using hs
    have hwhole := contents_of_parse (envelope_object.parse ha ht hb)
    rw [ofWritten_of_nodup hnodup] at hwhole
    refine ⟨hwhole, ?_⟩
    obtain htext | ⟨ns, hns, hcontents⟩ := envelope_object.contents_of_isPrefix ha ht hb hp
    · exact .inl htext
    · have hnodup' := hnodup.sublist (hns.map Prod.fst).sublist
      rw [ofWritten_of_nodup hnodup'] at hcontents
      exact .inr ⟨ns, hns, hcontents⟩

/-- Of two empty objects in a list, the second one is cut off in the middle; of two members, the
second one behind its key. -/
theorem variants_of_isPrefix_two :
    ((variants (fun i => i) ['[', '\x7b', '\x7d', ',', '\x7b']).map Variant.content =
        [.text ['[', '\x7b', '\x7d', ',', '\x7b']] ∨
      (variants (fun i => i) ['[', '\x7b', '\x7d', ',', '\x7b']).map Variant.content <+:
        (variants (fun i => i) ['[', '\x7b', '\x7d', ',', '\x7b', '\x7d', ']']).map
          Variant.content) ∧
    ((variants (fun i => i) ['\x7b', '"', 'a', '"', ':', '\x7b', '\x7d', ',', '"', 'b', '"', ':',
        '\x7b', '\x7d', '\x7d']).map Variant.content =
      [.record [(['a'], .object []), (['b'], .object [])]] ∧
      ((variants (fun i => i) ['\x7b', '"', 'a', '"', ':', '\x7b', '\x7d', ',', '"', 'b', '"']).map
          Variant.content =
        [.text ['\x7b', '"', 'a', '"', ':', '\x7b', '\x7d', ',', '"', 'b', '"']] ∨
      ∃ ns, ns <+: [(['a'], .object []), (['b'], .object [])] ∧
        (variants (fun i => i) ['\x7b', '"', 'a', '"', ':', '\x7b', '\x7d', ',', '"', 'b', '"']).map
          Variant.content = [.record ns])) := by
  have hlist := envelope_list.parse blank_nil (.items (.cons blank_nil written_empty_object
    blank_nil (.one blank_nil written_empty_object blank_nil))) blank_nil
  have hmember (c : Char) (hc : c ≠ '"' ∧ c ≠ '\\' ∧ 0x20 ≤ c.toNat) :=
    member_letter (P := Written (maxDepth - 1)) hc written_empty_object
  have hmembers := Listed.items (.cons blank_nil (hmember 'a' (by decide)) blank_nil
    (.one blank_nil (hmember 'b' (by decide)) blank_nil))
  have hwhole := envelope_object.parse blank_nil hmembers blank_nil
  have hkeys : DistinctKeys _ := ⟨_, ⟨_, _, _, blank_nil, hmembers, blank_nil, rfl⟩, by decide⟩
  refine ⟨?_, ?_⟩
  · exact (variants_of_isPrefix _ ⟨['\x7d', ']'], rfl⟩).1 _ hlist
  · refine (variants_of_isPrefix _ ?_).2 _ hwhole hkeys
    exact ⟨[':', '\x7b', '\x7d', '\x7d'], rfl⟩

/-- **Of a response that was cut off behind an object, everything up to that object is kept**, when
no brace is left behind it. -/
theorem variants_of_truncated {ι : Type} (id : Nat → ι) {s g : Text} (hg : '\x7d' ∉ g) :
    (∀ vs ms, Separated (Written (maxDepth - 1)) s vs → vs.getLast? = some (.object ms) →
      (∀ v, Json.parse ('[' :: (s ++ g)) ≠ .ok v) →
      (variants id ('[' :: (s ++ g))).map Variant.content = vs.map Content.ofItem) ∧
    (∀ ms k inner, Separated (Member (Written (maxDepth - 1))) s ms →
      ms.getLast? = some (k, .object inner) →
      (∀ v, Json.parse ('\x7b' :: (s ++ g)) ≠ .ok v) →
      ∃ rs, (variants id ('\x7b' :: (s ++ g))).map Variant.content = [.record rs] ∧
        rs.map Prod.fst = (ms.map Prod.fst).eraseDups ∧
        ∀ m ∈ rs, ms.reverse.lookup m.1 = some m.2) := by
  simp only [map_content_variants]
  refine ⟨fun vs ms hs hlast hparse => ?_, fun ms k inner hs hlast hparse => ?_⟩
  · have hbrace : ∀ e, Written (maxDepth - 1) e (.object ms) → e.getLast? = some '\x7d' :=
      fun _ => Written.getLast?_of_object
    exact envelope_list.contents_of_last hs hlast hbrace hg hparse
  · have hbrace : ∀ e, Member (Written (maxDepth - 1)) e (k, .object inner) →
        e.getLast? = some '\x7d' := fun _ => Member.getLast?_of_object
    refine ⟨ofWritten ms, ?_, keys_ofWritten ms, fun m => lookup_of_mem_ofWritten⟩
    exact envelope_object.contents_of_last hs hlast hbrace hg hparse

/-- A closing brace in a string, a list in the list, blanks, and half an object left over; and a key
that is written twice, with half a member left over. -/
theorem variants_of_truncated_three :
    (variants (fun i => i)
        ("[\x7b\"a\":\"\x7d\"\x7d, [null,\x7b\x7d] ,\x7b\"b\":[\x7b\x7d]\x7d" ++
          ",\x7b\"c\":[").toList).map Variant.content =
      [.record [(['a'], .string ['\x7d'])], .text "[null,\x7b\x7d]".toList,
        .record [(['b'], .array [.object []])]] ∧
    ∃ rs, (variants (fun i => i)
        ("\x7b\"a\":null,\"b\":[\x7b\x7d],\"a\":\x7b\"c\":\"\x7d\"\x7d" ++
          ",\"d").toList).map Variant.content = [.record rs] ∧
      rs.map Prod.fst = [['a'], ['b']] ∧
      ∀ m ∈ rs, [(['a'], Json.object [(['c'], .string ['\x7d'])]), (['b'], .array [.object []]),
        (['a'], .null)].lookup m.1 = some m.2 := by
  have hstring {d : Nat} : Written (d + 1) ['"', '\x7d', '"'] (.string ['\x7d']) :=
    .scalar (.string (.plain (by decide) (by decide) (by decide) .nil))
  have hnull {d : Nat} : Written (d + 1) ['n', 'u', 'l', 'l'] .null := .scalar .null
  have hblank : Blank [' '] := by simp [Blank, isSpace]
  have hpair : Written (maxDepth - 1) _ (.array [.null, .object []]) :=
    .array (.items (.cons blank_nil hnull blank_nil
      (.one blank_nil written_empty_object blank_nil)))
  have hlist := Separated.cons blank_nil (written_object_letter (c := 'a') (by decide) hstring)
    blank_nil (.cons hblank hpair hblank (.one blank_nil
      (written_object_letter (c := 'b') (by decide) (written_list_one written_empty_object))
      blank_nil))
  have hmembers := Separated.cons (P := Member (Written (maxDepth - 1))) blank_nil
    (member_letter (c := 'a') (by decide) hnull) blank_nil
    (.cons blank_nil
      (member_letter (c := 'b') (by decide) (written_list_one written_empty_object)) blank_nil
      (.one blank_nil
        (member_letter (c := 'a') (by decide)
          (written_object_letter (c := 'c') (by decide) hstring))
        blank_nil))
  constructor
  · have hkept := (variants_of_truncated (fun i => i) (g := ",\x7b\"c\":[".toList)
      (by decide +kernel)).1 _ _ hlist rfl
      fun v h => absurd (parse_eq_ok_iff.mp h).balanced (by decide +kernel)
    refine Eq.trans ?_ (hkept.trans ?_)
    · exact congrArg (fun s => (variants (fun i => i) s).map Variant.content) (by decide +kernel)
    · have hprint : print (.array [.null, .object []]) = "[null,\x7b\x7d]".toList := by
        decide +kernel
      rw [← hprint]
      rfl
  · obtain ⟨rs, hrs, hkeys, hvalues⟩ := (variants_of_truncated (fun i => i) (g := ",\"d".toList)
      (by decide +kernel)).2 _ _ _ hmembers rfl
      fun v h => absurd (parse_eq_ok_iff.mp h).balanced (by decide +kernel)
    refine ⟨rs, Eq.trans ?_ hrs, hkeys.trans (by decide), hvalues⟩
    exact congrArg (fun s => (variants (fun i => i) s).map Variant.content) (by decide +kernel)

end PromptTemplate.Response
