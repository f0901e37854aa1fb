import PromptTemplate.Proofs.Placeholder.Viability

/-!
# Proofs/Placeholder/Offence — the first token that fits no placeholder

    {{a b}}           reported at b, the first token that cannot come there
    {{a,b="c",d=}}    reported at }}
    {{a,b=c,d=}}      reported at the last =, though a value could follow it

The first offence of a text is the token up to which it could have been a placeholder, or its end.
Where the commas of values touch their neighbours, **the fault of a text is at its first offence
unless the tokens before end in a later key**: a key behind a value without quotes, and its equals
sign. There the fault is at that sign, and nothing is listed as expected (`exists_firstOffence`).
-/

namespace PromptTemplate.Placeholder

open Text

/-! ## The first offence -/

/-- The first of the tokens cannot come behind those before, or the end cannot if none are left. -/
def Offends (before : List Lexeme) : List Lexeme → Prop
  | [] => ¬ Sentence (tokens before)
  | l :: _ => ¬ Viable (tokens (before ++ [l]))

/-- The tokens before the first that fits no placeholder, and those from it on; where none are left,
the end is what fits none. -/
structure FirstOffence (s : Text) (before rest : List Lexeme) : Prop where
  append_eq : before ++ rest = lex s
  viable : Viable (tokens before)
  offends : Offends before rest

/-- What is listed as expected can come behind the tokens, in some placeholder. -/
def Expected.CanFollow (ts : List Token) : Expected → Prop
  | .opening => Viable (ts ++ [.opening])
  | .closing => Viable (ts ++ [.closing])
  | .atSign => Viable (ts ++ [.atSign])
  | .comma => Viable (ts ++ [.comma])
  | .equals => Viable (ts ++ [.equals])
  | .ending => Sentence ts

/-- The fault is at the first of the tokens, or at the end if there is none. -/
def Fault.IsAt (f : Fault) (ending : Ending) : List Lexeme → Prop
  | [] => f.cause = .unexpected none ∧ f.start = ending.start ∧ f.stop = ending.stop
  | l :: _ => f.cause ≠ .unexpected none ∧ f.start = l.start ∧ f.stop = l.stop

/-- The fault is at the first offence, and lists nothing as expected that could not come there. -/
def Fault.ReportsFirst (f : Fault) (s : Text) : Prop :=
  ∃ before rest, FirstOffence s before rest ∧ f.IsAt (.of s (lex s)) rest ∧
    ∀ e ∈ f.expected, e.CanFollow (tokens before)

/-- A comma of a value touches both of its neighbours: one behind an equals sign and between two
words, the second of which has no equals sign behind it. -/
def Tidy (ls : List Lexeme) : Prop :=
  ∀ p a c b q, ls = p ++ a :: c :: b :: q → (∃ e ∈ p, e.token = .equals) →
    a.token.bare?.isSome → c.token = .comma → b.token.bare?.isSome →
    q.head?.map (·.token) ≠ some .equals → Touches a c ∧ Touches c b

/-- The tokens end in a key and its equals sign behind a value without quotes. -/
def EndsInLaterKey (ls : List Lexeme) : Prop :=
  ∃ p w c k e, ls = p ++ [w, c, k, e] ∧ (∃ l ∈ p, l.token = .equals) ∧
    w.token.bare?.isSome ∧ c.token = .comma ∧ (∃ t, k.token = .ident t) ∧ e.token = .equals

variable {s : Text} {f : Fault} {q q' : Stage} {t : Token} {ts : List Token}
  {l e : Lexeme} {ls before rest : List Lexeme}

/-! ## Tidy commas -/

theorem tidy_of_isChain (h : ls.IsChain Touches) : Tidy ls := by
  rintro p a c b q rfl - - - - -
  obtain ⟨hac, hchain⟩ := List.isChain_cons_cons.mp h.right_of_append
  exact ⟨hac, (List.isChain_cons_cons.mp hchain).1⟩

/-- In a value whose pieces do not touch there is a comma that does not touch its neighbours. -/
theorem exists_comma_of_touching {w : Lexeme} (hw : w.token.bare?.isSome = true)
    (h : touching (w :: (pieces ls).1) = false) :
    ∃ p a c b q, w :: ls = p ++ a :: c :: b :: q ∧ a.token.bare?.isSome ∧ c.token = .comma ∧
      b.token.bare?.isSome ∧ q.head?.map (·.token) ≠ some .equals ∧
      ¬ (Touches a c ∧ Touches c b) := by
  fun_induction pieces ls generalizing w with
  | case1 c x ls hpiece ps rest hp ih =>
    rw [hp] at ih
    obtain ⟨hc, hx, hnext⟩ := hpiece
    by_cases htouch : Touches w c ∧ Touches c x
    · have hrest : touching (x :: ps) = false := by
        simpa [touching, show w.stop = c.start from htouch.1,
          show c.stop = x.start from htouch.2] using h
      obtain ⟨p, a, c', b, q, heq, hcomma⟩ := ih hx hrest
      exact ⟨w :: c :: p, a, c', b, q, by rw [heq]; rfl, hcomma⟩
    · exact ⟨[], w, c, x, ls, rfl, hw, hc, hx, hnext, htouch⟩
  | case2 => exact absurd h (by simp [touching])
  | case3 => exact absurd h (by simp [touching])

/-! ## Stages read backwards -/

theorem Stage.after?_concat (h : q.after? (ts ++ [t]) = some q') :
    ∃ q₁, q.after? ts = some q₁ ∧ Step q₁ t q' := by
  rw [after?_append, Option.bind_eq_some_iff] at h
  obtain ⟨q₁, hq₁, hnext⟩ := h
  refine ⟨q₁, hq₁, step_of_next? ?_⟩
  cases ht : q₁.next? t <;> simp_all

/-- The last token of a stage that is not the first one. -/
theorem exists_concat_of_after? (h : q.after? (tokens ls) = some q') (hne : q' ≠ q) :
    ∃ ls' l q₁, ls = ls' ++ [l] ∧ q.after? (tokens ls') = some q₁ ∧ q₁.Step l.token q' := by
  obtain rfl | ⟨ls', l, rfl⟩ := List.eq_nil_or_concat ls
  · exact absurd (Option.some.inj h).symm hne
  · rw [List.concat_eq_append, tokens_append] at h
    obtain ⟨q₁, hq₁, hstep⟩ := Stage.after?_concat h
    exact ⟨ls', l, q₁, List.concat_eq_append, hq₁, hstep⟩

/-- No equals sign is read before the name. -/
theorem equals_not_mem_of_after? (h : Stage.start.after? ts = some q)
    (hq : q = .start ∨ q = .opened ∨ q = .signed) : .equals ∉ ts := by
  induction ts using List.reverseRecOn generalizing q with
  | nil => exact List.not_mem_nil
  | append_singleton ts t ih =>
    obtain ⟨q₁, hq₁, hstep⟩ := Stage.after?_concat h
    have hbefore : (q₁ = .start ∨ q₁ = .opened ∨ q₁ = .signed) ∧ t ≠ .equals := by
      obtain rfl | rfl | rfl := hq <;> cases hstep <;> simp
    intro hmem
    obtain hmem | hmem := List.mem_append.mp hmem
    · exact ih hq₁ hbefore.1 hmem
    · exact hbefore.2 (List.mem_singleton.mp hmem).symm

/-- An unquoted value has an equals sign before it. -/
theorem equals_mem_of_after? (h : Stage.start.after? ts = some q)
    (hq : q = .equals ∨ q = .laterEquals ∨ q = .bare ∨ q = .bareComma ∨ q = .bareIdent) :
    .equals ∈ ts := by
  induction ts using List.reverseRecOn generalizing q with
  | nil =>
    obtain rfl : Stage.start = q := Option.some.inj h
    simp at hq
  | append_singleton ts t ih =>
    obtain ⟨q₁, hq₁, hstep⟩ := Stage.after?_concat h
    have hbefore : t = .equals ∨ q₁ = .equals ∨ q₁ = .laterEquals ∨ q₁ = .bare ∨
        q₁ = .bareComma ∨ q₁ = .bareIdent := by
      obtain rfl | rfl | rfl | rfl | rfl := hq <;> cases hstep <;> simp
    obtain rfl | hq₁' := hbefore
    · exact List.mem_append_right ts List.mem_cons_self
    · exact List.mem_append_left _ (ih hq₁ hq₁')

theorem exists_equals_of_after? (h : Stage.start.after? (tokens ls) = some q)
    (hq : q = .equals ∨ q = .laterEquals ∨ q = .bare ∨ q = .bareComma ∨ q = .bareIdent) :
    ∃ l ∈ ls, l.token = .equals :=
  List.mem_map.mp (equals_mem_of_after? h hq)

namespace Stage.Step

theorem of_laterEquals (h : Step q t .laterEquals) : q = .bareIdent ∧ t = .equals := by
  cases h
  exact ⟨rfl, rfl⟩

theorem of_bareIdent (h : Step q t .bareIdent) : q = .bareComma ∧ ∃ u, t = .ident u := by
  cases h
  exact ⟨rfl, _, rfl⟩

theorem of_bareComma (h : Step q t .bareComma) : (q = .bare ∨ q = .bareIdent) ∧ t = .comma := by
  cases h
  · exact ⟨.inl rfl, rfl⟩
  · exact ⟨.inr rfl, rfl⟩

/-- A word of a value is behind an equals sign or a comma. -/
theorem of_bare (h : Step q t q') (hq' : q' = .bare ∨ q' = .bareIdent) :
    (q = .equals ∨ q = .laterEquals ∨ q = .bareComma) ∧ t.bare?.isSome = true := by
  obtain rfl | rfl := hq'
  all_goals cases h <;> simp [Token.bare?]

/-- Behind the name no word leads anywhere but into a value or to a key. -/
theorem of_word (h : Step q t q') (ht : t.bare?.isSome = true) :
    q = .opened ∨ q = .signed ∨ q' = .key ∨ q' = .bare ∨ q' = .bareIdent := by
  cases h <;> simp_all [Token.bare?]

end Stage.Step

theorem endsInLaterKey_of_after? (h : Stage.start.after? (tokens ls) = some .laterEquals) :
    EndsInLaterKey ls := by
  obtain ⟨ls, e, q₁, rfl, h₁, hstep₁⟩ := exists_concat_of_after? h (by simp)
  obtain ⟨rfl, he⟩ := hstep₁.of_laterEquals
  obtain ⟨ls, k, q₂, rfl, h₂, hstep₂⟩ := exists_concat_of_after? h₁ (by simp)
  obtain ⟨rfl, hk⟩ := hstep₂.of_bareIdent
  obtain ⟨ls, c, q₃, rfl, h₃, hstep₃⟩ := exists_concat_of_after? h₂ (by simp)
  obtain ⟨hq₃, hc⟩ := hstep₃.of_bareComma
  have hne : q₃ ≠ .start := by obtain rfl | rfl := hq₃ <;> simp
  obtain ⟨p, w, q₄, rfl, h₄, hstep₄⟩ := exists_concat_of_after? h₃ hne
  obtain ⟨hq₄, hw⟩ := hstep₄.of_bare hq₃
  have hequals := exists_equals_of_after? h₄ (by obtain rfl | rfl | rfl := hq₄ <;> simp)
  exact ⟨p, w, c, k, e, by simp, hequals, hw, hc, hk, he⟩

/-- A key behind a word that is no name leads to the stage of later keys, if it leads anywhere. -/
theorem after?_of_endsInLaterKey (hkey : EndsInLaterKey ls)
    (h : Stage.start.after? (tokens ls) = some q) : q = .laterEquals := by
  obtain ⟨p, w, c, k, e, rfl, ⟨l, hl, hequals⟩, hw, hc, ⟨t, hk⟩, he⟩ := hkey
  have hmem : .equals ∈ tokens p := List.mem_map.mpr ⟨l, hl, hequals⟩
  have happend : tokens (p ++ [w, c, k, e]) =
      tokens p ++ [w.token] ++ [c.token] ++ [k.token] ++ [e.token] := by simp
  rw [happend, hc, hk, he] at h
  obtain ⟨q₁, h, hequals⟩ := Stage.after?_concat h
  obtain ⟨q₂, h, hident⟩ := Stage.after?_concat h
  obtain ⟨q₃, h, hcomma⟩ := Stage.after?_concat h
  obtain ⟨q₄, h, hword⟩ := Stage.after?_concat h
  obtain rfl | rfl | rfl | rfl | rfl := hword.of_word hw
  · exact absurd hmem (equals_not_mem_of_after? h (.inr (.inl rfl)))
  · exact absurd hmem (equals_not_mem_of_after? h (.inr (.inr rfl)))
  · cases hcomma
  all_goals
    cases hcomma
    cases hident
    cases hequals
    rfl

/-! ## What a stage says of offences -/

@[simp] theorem Stage.after?_singleton : q.after? [t] = q.next? t := by
  rw [after?_cons]
  exact Option.bind_fun_some _

theorem viable_concat (hts : ∀ t ∈ ts, t.Readable) (h : Stage.start.after? ts = some q)
    (ht : t.Readable) (hnext : (q.next? t).isSome) : Viable (ts ++ [t]) := by
  have hreadable : ∀ u ∈ ts ++ [t], u.Readable :=
    List.forall_mem_append.mpr ⟨hts, List.forall_mem_singleton.mpr ht⟩
  rw [viable_iff hreadable, Stage.after?_append_of_eq_some h, Stage.after?_singleton]
  exact hnext

theorem not_viable_concat (h : Stage.start.after? ts = some q) (hnext : q.next? t = none) :
    ¬ Viable (ts ++ [t]) := by
  intro hviable
  have hsome := isSome_of_viable hviable
  rw [Stage.after?_append_of_eq_some h, Stage.after?_singleton, hnext] at hsome
  exact absurd hsome (by simp)

/-- **What a stage admits can follow the tokens that lead to it.** -/
theorem canFollow_of_admits (hts : ∀ t ∈ ts, t.Readable) (h : Stage.start.after? ts = some q)
    {e : Expected} (he : q.Admits e) : e.CanFollow ts := by
  cases e with
  | opening => exact viable_concat hts h ⟨_, .opening⟩ he
  | closing => exact viable_concat hts h ⟨_, .closing⟩ he
  | atSign => exact viable_concat hts h ⟨_, .atSign⟩ he
  | comma => exact viable_concat hts h ⟨_, .comma⟩ he
  | equals => exact viable_concat hts h ⟨_, .equals⟩ he
  | ending => exact sentence_of_after? hts (he ▸ h)

/-- Nothing that is left can come next. -/
def Stage.Blocked (q : Stage) : List Lexeme → Prop
  | [] => q ≠ closed
  | l :: _ => q.next? l.token = none

theorem Leads.exists_before (h : Leads .start (lex s) q rest) :
    ∃ before, before ++ rest = lex s ∧ Stage.start.after? (tokens before) = some q ∧
      ∀ t ∈ tokens before, t.Readable := by
  obtain ⟨before, heq, hq⟩ := h
  have hsubset : before ⊆ lex s := heq ▸ List.subset_append_left before rest
  exact ⟨before, heq.symm, hq, readable_of_after? hsubset (by rw [hq]; rfl)⟩

/-- **The first offence is where nothing that is left can come next.** -/
theorem firstOffence_of_blocked (heq : before ++ rest = lex s)
    (hq : Stage.start.after? (tokens before) = some q) (hts : ∀ t ∈ tokens before, t.Readable)
    (hrest : q.Blocked rest) : FirstOffence s before rest := by
  refine ⟨heq, (viable_iff hts).mpr (by rw [hq]; rfl), ?_⟩
  cases rest with
  | nil =>
    intro hsentence
    rw [after?_of_sentence hsentence] at hq
    exact hrest (Option.some.inj hq).symm
  | cons l rest =>
    rw [Offends, tokens_append]
    exact not_viable_concat hq hrest

/-- A fault that is where nothing can come next, and lists what the stage admits. -/
theorem reportsFirst_of_blocked (heq : before ++ rest = lex s)
    (hq : Stage.start.after? (tokens before) = some q) (hts : ∀ t ∈ tokens before, t.Readable)
    (hrest : q.Blocked rest) (hat : f.IsAt (.of s (lex s)) rest)
    (hexpected : ∀ e ∈ f.expected, q.Admits e) : f.ReportsFirst s :=
  ⟨before, rest, firstOffence_of_blocked heq hq hts hrest, hat,
    fun e he => canFollow_of_admits hts hq (hexpected e he)⟩

theorem blocked_of_beginsValue (h : beginsValue rest = false) : Stage.laterEquals.Blocked rest := by
  cases rest with
  | nil => simp [Stage.Blocked]
  | cons l rest =>
    rw [beginsValue_cons] at h
    rw [Stage.Blocked, Stage.next?_laterEquals]
    simpa using h

/-! ## What is at a place -/

/-- A token is told by where it starts. -/
theorem eq_of_start_eq {a b c d : List Lexeme} (hl : lex s = a ++ l :: b)
    (he : lex s = c ++ e :: d) (hstart : l.start = e.start) : a = c ∧ l = e := by
  have hbefore : ∀ {x y : Lexeme} {p r : List Lexeme}, lex s = p ++ x :: r → y ∈ r →
      x.start ≠ y.start := by
    intro x y p r hx hy
    have hpairwise := pairwise_lexFrom 0 s
    have hmem : x ∈ lex s := hx ▸ List.mem_append_right p List.mem_cons_self
    have hlt := (le_start_lt_stop_of_mem_lexFrom hmem).2
    rw [← lex, hx] at hpairwise
    have hle := (List.pairwise_cons.mp (List.pairwise_append.mp hpairwise).2.1).1 y hy
    omega
  obtain ⟨x, hc, hx⟩ | ⟨x, ha, hx⟩ := List.append_eq_append_iff.mp (hl.symm.trans he)
  · cases x with
    | nil => exact ⟨by simp [hc], (List.cons.inj hx).1⟩
    | cons y x =>
      obtain ⟨rfl, rfl⟩ := List.cons.inj hx
      exact absurd hstart (hbefore hl (List.mem_append_right x List.mem_cons_self))
  · cases x with
    | nil => exact ⟨by simp [ha], (List.cons.inj hx).1.symm⟩
    | cons y x =>
      obtain ⟨rfl, rfl⟩ := List.cons.inj hx
      exact absurd hstart.symm (hbefore he (List.mem_append_right x List.mem_cons_self))

/-- A fault at a token that is viable is not at the first offence. -/
theorem not_reportsFirst {expected : List Expected} (heq : lex s = before ++ e :: rest)
    (hviable : Viable (tokens (before ++ [e]))) : ¬ (e.fault expected).ReportsFirst s := by
  rintro ⟨before', rest', hoffence, hat, -⟩
  cases rest' with
  | nil => exact absurd hat.1 (by simp [Lexeme.fault])
  | cons l rest' =>
    obtain ⟨rfl, rfl⟩ := eq_of_start_eq hoffence.append_eq.symm heq hat.2.1.symm
    exact hoffence.offends hviable

/-- **Where the commas of values touch their neighbours, the fault of a text is at the first token
that fits no placeholder, or at the end, and lists nothing that could not come there; unless the
tokens before end in a later key.** Then it is at the equals sign of that key, and lists nothing. -/
theorem exists_firstOffence (h : parse s = .error f) (htidy : Tidy (lex s)) :
    ∃ before rest, FirstOffence s before rest ∧
      (f.ReportsFirst s ↔ ¬ EndsInLaterKey before) ∧
      (EndsInLaterKey before → ∃ e, before.getLast? = some e ∧ f = e.fault []) := by
  cases parse_misplaced h with
  | @token l rest q hleads hlater hnext hstart hstop hcause hexpected =>
    obtain ⟨before, heq, hq, hts⟩ := hleads.exists_before
    have hkey : ¬ EndsInLaterKey before := fun hkey => hlater (after?_of_endsInLaterKey hkey hq)
    have hreports :=
      reportsFirst_of_blocked heq hq hts hnext ⟨hcause, hstart, hstop⟩ hexpected
    exact ⟨before, l :: rest, firstOffence_of_blocked heq hq hts hnext,
      iff_of_true hreports hkey, fun h => absurd h hkey⟩
  | @ending q hleads hlater hclosed hstart hstop hcause hexpected =>
    obtain ⟨before, heq, hq, hts⟩ := hleads.exists_before
    have hkey : ¬ EndsInLaterKey before := fun hkey => hlater (after?_of_endsInLaterKey hkey hq)
    have hreports :=
      reportsFirst_of_blocked heq hq hts hclosed ⟨hcause, hstart, hstop⟩ hexpected
    exact ⟨before, [], firstOffence_of_blocked heq hq hts hclosed,
      iff_of_true hreports hkey, fun h => absurd h hkey⟩
  | @loose w rest q hleads hq hw htouch =>
    exfalso
    obtain ⟨before, heq, hafter, -⟩ := hleads.exists_before
    obtain ⟨p, a, c, b, r, hrest, ha, hc, hb, hr, hloose⟩ := exists_comma_of_touching hw htouch
    obtain ⟨l, hl, hequals⟩ :=
      exists_equals_of_after? hafter (hq.elim .inl fun hq => .inr (.inl hq))
    refine hloose
      (htidy (before ++ p) a c b r ?_ ⟨l, List.mem_append_left p hl, hequals⟩ ha hc hb hr)
    rw [← heq, hrest, List.append_assoc]
  | @stray e rest hleads he hvalue hf =>
    have hstep : Stage.bareIdent.next? e.token = some .laterEquals := he ▸ rfl
    have hsign : e.token.Readable := he ▸ ⟨_, Token.Spelled.equals⟩
    obtain ⟨before, heq, hq, hts⟩ := hleads.exists_before
    have hq' : Stage.start.after? (tokens (before ++ [e])) = some .laterEquals := by
      rw [tokens_append, Stage.after?_append_of_eq_some hq]
      exact Stage.after?_singleton.trans hstep
    have hts' : ∀ t ∈ tokens (before ++ [e]), t.Readable := by
      rw [tokens_append]
      exact List.forall_mem_append.mpr ⟨hts, List.forall_mem_singleton.mpr hsign⟩
    have heq' : (before ++ [e]) ++ rest = lex s := by simpa using heq
    have hoffence := firstOffence_of_blocked heq' hq' hts' (blocked_of_beginsValue hvalue)
    have hkey := endsInLaterKey_of_after? hq'
    refine ⟨before ++ [e], rest, hoffence, iff_of_false ?_ (not_not_intro hkey), fun _ => ?_⟩
    · exact hf ▸ not_reportsFirst heq.symm hoffence.viable
    · exact ⟨e, List.getLast?_concat, hf⟩

/-- A value of two words and then a dash, at which the fault is: a comma or closing braces could
have come there. -/
theorem exists_firstOffence_dash :
    parse "\x7b\x7ba,b=c,d-\x7d\x7d".toList =
        .error ⟨9, 10, .unexpected (some .invalid), [.comma, .closing]⟩ ∧
      Tidy (lex "\x7b\x7ba,b=c,d-\x7d\x7d".toList) ∧
      ∃ before rest, FirstOffence "\x7b\x7ba,b=c,d-\x7d\x7d".toList before rest ∧
        (Fault.ReportsFirst ⟨9, 10, .unexpected (some .invalid), [.comma, .closing]⟩
          "\x7b\x7ba,b=c,d-\x7d\x7d".toList ↔ ¬ EndsInLaterKey before) ∧
        (EndsInLaterKey before → ∃ e, before.getLast? = some e ∧
          ⟨9, 10, .unexpected (some .invalid), [.comma, .closing]⟩ = e.fault []) := by
  have hparse : parse "\x7b\x7ba,b=c,d-\x7d\x7d".toList =
      .error ⟨9, 10, .unexpected (some .invalid), [.comma, .closing]⟩ := by decide +kernel
  have htidy : Tidy (lex "\x7b\x7ba,b=c,d-\x7d\x7d".toList) := tidy_of_isChain (by decide +kernel)
  exact ⟨hparse, htidy, exists_firstOffence hparse htidy⟩

/-- **The fault can be at a token that could come there**: the text with `e` for the closing braces
goes on behind the equals sign. -/
theorem exists_not_reportsFirst :
    ∃ s f, parse s = .error f ∧ Tidy (lex s) ∧ ¬ f.ReportsFirst s := by
  have hparse : parse "\x7b\x7ba,b=c,d=\x7d\x7d".toList =
      .error (Lexeme.fault ⟨.equals, 9, 10⟩ []) := by decide +kernel
  have hlex : lex "\x7b\x7ba,b=c,d=\x7d\x7d".toList =
      [⟨.opening, 0, 2⟩, ⟨.ident ['a'], 2, 3⟩, ⟨.comma, 3, 4⟩, ⟨.ident ['b'], 4, 5⟩,
        ⟨.equals, 5, 6⟩, ⟨.ident ['c'], 6, 7⟩, ⟨.comma, 7, 8⟩, ⟨.ident ['d'], 8, 9⟩] ++
      ⟨.equals, 9, 10⟩ :: [⟨.closing, 10, 12⟩] := by decide +kernel
  refine ⟨_, _, hparse, tidy_of_isChain (by decide +kernel), not_reportsFirst hlex ?_⟩
  exact ⟨"\x7b\x7ba,b=c,d=e\x7d\x7d".toList,
    ⟨.reference, ['a'], [⟨['b'], ['c']⟩, ⟨['d'], ['e']⟩]⟩, by decide +kernel, by decide +kernel⟩

end PromptTemplate.Placeholder
