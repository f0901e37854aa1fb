import PromptTemplate.Proofs.Placeholder.Soundness
import PromptTemplate.Proofs.Placeholder.Unambiguity

/-!
# Proofs/Placeholder/Completeness — every derivation is read, and read as what it says

    a,b , c=d     the comma before `c` is left to the next argument

The parser meets the tokens of a derivation one part after the other. At the end of a value it must
stop: what follows is either the closing braces or an argument as far as its value (`EndsValue`),
and neither is a further word. Each part is read whatever follows it, so that the text behind it
decides what comes of the whole: words with gaps at their commas, too, are read to their end before
they are found faulty (`value_spaced`). With soundness, **a text is a placeholder just when it has a
derivation, and it has one but for the blanks behind a remark** (`parse_iff_derivation`).
-/

namespace PromptTemplate.Placeholder

open Text Grammar

/-! ## Leaves -/

theorem Name.spelled (n : Name) : (Token.ident n.val).Spelled n.val := .ident n.2.1 n.2.2

/-- A word is one token, an identifier or not. -/
theorem Word.exists_token (w : Word) : ∃ t : Token, t.Spelled w.val ∧ t.bare? = some w.val ∧
    ∀ r, Ends Token.isWordChar r → t.Stops r := by
  by_cases h : ∀ c ∈ w.val, Token.isIdentChar c = true
  · exact ⟨.ident w.val, .ident w.2.1 h, rfl, fun r hr => hr⟩
  · exact ⟨.word w.val, .word w.2.1 w.2.2 h, rfl, fun r hr => hr⟩

/-- A slice without a gap in front of it. -/
theorem lexFrom_slice {w r : Text} {t : Token} (hw : t.Spelled w) (hr : t.Stops r) (i : Nat) :
    lexFrom i (w ++ r) = ⟨t, i, i + bytes w⟩ :: lexFrom (i + bytes w) r :=
  lexFrom_append (List.forall_mem_nil _) hw hr i

theorem value_of_bare {ending : Ending} {l : Lexeme} {ls : List Lexeme} {t : Text}
    (h : l.token.bare? = some t) : value ending (l :: ls) = bareValue l ls := by
  rw [value]
  split <;> simp_all [Token.bare?]

theorem parameterKey_of_tokens {ending : Ending} {k e : Lexeme} {ls : List Lexeme} {key : Text}
    (hk : k.token = .ident key) (he : e.token = .equals) :
    parameterKey ending (k :: e :: ls) = .ok (key, ls) := by
  rw [parameterKey]
  simp only [hk, he, if_true]

/-! ## What follows a value -/

/-- The tokens that can follow a value: the closing braces, or an argument as far as its value. -/
inductive AfterValue : List Lexeme → Prop
  | closing {l : Lexeme} {ls : List Lexeme} : l.token = .closing → AfterValue (l :: ls)
  | argument {c k e : Lexeme} {ls : List Lexeme} {key : Text} : c.token = .comma →
      k.token = .ident key → e.token = .equals → beginsValue ls = true →
      AfterValue (c :: k :: e :: ls)

theorem AfterValue.pieces {ls : List Lexeme} (h : AfterValue ls) : pieces ls = ([], ls) := by
  cases h with
  | @closing l ls hl =>
    cases ls with
    | nil => rfl
    | cons a ls => simp [Placeholder.pieces, hl]
  | argument hc hk he _ => simp [Placeholder.pieces, he]

theorem AfterValue.strayEquals {ls : List Lexeme} (h : AfterValue ls) : strayEquals ls = none := by
  cases h with
  | @closing l ls hl =>
    match ls with
    | [] => rfl
    | [_] => rfl
    | w :: e :: ls => simp [Placeholder.strayEquals, hl]
  | argument hc hk he hv => simp [Placeholder.strayEquals, hc, hk, he, hv]

/-- A value in front of the text is at its end there. -/
structure EndsValue (r : Text) : Prop where
  follows : Follows r
  afterValue (i : Nat) : AfterValue (lexFrom i r)

theorem beginsValue_word (w : Word) {r : Text} (hr : Ends Token.isWordChar r) (i : Nat) :
    beginsValue (lexFrom i (w.val ++ r)) = true := by
  obtain ⟨t, hspelled, hbare, hstops⟩ := Word.exists_token w
  rw [lexFrom_slice hspelled (hstops r hr), beginsValue]
  cases t <;> simp_all [Token.bare?]

theorem beginsValue_value (V : Value) {r : Text} (hr : Follows r) (i : Nat) :
    beginsValue (lexFrom i (V.text ++ r)) = true := by
  cases V with
  | quoted t =>
    rw [Value.text, lexFrom_slice (.quoted t.2) trivial]
    rfl
  | bare w ws =>
    rw [Value.text, List.append_assoc]
    exact beginsValue_word w (hr.words ws).ends i

/-- An argument as far as its value is three tokens. -/
theorem exists_lexFrom_opening (a : Argument) (r : Text) (i : Nat) :
    ∃ c k e, c.token = .comma ∧ k.token = .ident a.key.val ∧ e.token = .equals ∧
      lexFrom i (a.opening ++ r) = c :: k :: e :: lexFrom (i + bytes a.opening) r := by
  have htext : a.opening ++ r = a.beforeComma.val ++ ([','] ++ (a.afterComma.val ++ (a.key.val ++
      (a.beforeEquals.val ++ (['='] ++ (a.afterEquals.val ++ r)))))) := by
    simp [Argument.opening]
  have hkey : Ends Token.isWordChar (a.beforeEquals.val ++ (['='] ++ (a.afterEquals.val ++ r))) :=
    ends_word_append _ (ends_cons.mpr rfl)
  have hstop : i + bytes a.beforeComma.val + bytes [','] + bytes a.afterComma.val +
      bytes a.key.val + bytes a.beforeEquals.val + bytes ['='] + bytes a.afterEquals.val =
        i + bytes a.opening := by
    simp only [Argument.opening, bytes_append, bytes_cons, bytes_nil]
    omega
  rw [htext, lexFrom_append a.beforeComma.2 .comma trivial,
    lexFrom_append a.afterComma.2 (Name.spelled a.key) hkey,
    lexFrom_append a.beforeEquals.2 .equals trivial, lexFrom_gap a.afterEquals.2, hstop]
  exact ⟨_, _, _, rfl, rfl, rfl, rfl⟩

/-- The closing braces are the last token. -/
theorem exists_lexFrom_closing (behind after : Gap) (i : Nat) :
    ∃ l, l.token = .closing ∧ lexFrom i (closingText behind after) = [l] := by
  have htext : closingText behind after = behind.val ++ (['\x7d', '\x7d'] ++ after.val) := rfl
  rw [htext, lexFrom_append behind.2 .closing trivial, lexFrom_of_gap after.2]
  exact ⟨_, rfl, rfl⟩

theorem endsValue_closing (behind after : Gap) : EndsValue (closingText behind after) where
  follows := follows_tailText [] behind after
  afterValue i := by
    obtain ⟨l, hl, hlex⟩ := exists_lexFrom_closing behind after i
    rw [hlex]
    exact .closing hl

theorem endsValue_opening (a : Argument) {r : Text} (hr : ∀ i, beginsValue (lexFrom i r) = true) :
    EndsValue (a.opening ++ r) where
  follows := ⟨a.beforeComma, ',', _, List.append_assoc _ _ _, .inl rfl⟩
  afterValue i := by
    obtain ⟨c, k, e, hc, hk, he, hlex⟩ := exists_lexFrom_opening a r i
    rw [hlex]
    exact .argument hc hk he (hr _)

theorem flatMap_text_cons (a : Argument) (as : List Argument) (r : Text) :
    (a :: as).flatMap Argument.text ++ r =
      a.opening ++ (a.value.text ++ (as.flatMap Argument.text ++ r)) := by
  rw [List.flatMap_cons, ← a.opening_append, List.append_assoc, List.append_assoc]

theorem endsValue_arguments (as : List Argument) {r : Text} (hr : EndsValue r) :
    EndsValue (as.flatMap Argument.text ++ r) := by
  induction as with
  | nil => exact hr
  | cons a as ih =>
    rw [flatMap_text_cons]
    exact endsValue_opening a (beginsValue_value a.value ih.follows)

theorem endsValue_tailText (as : List Argument) (behind after : Gap) :
    EndsValue (tailText as behind after) :=
  endsValue_arguments as (endsValue_closing behind after)

/-! ## Values -/

/-- The first token is an equals sign only where the text begins with one. -/
theorem head_ne_equals {s : Text} (h : ¬ BeginsEquals s) (i : Nat) :
    (lexFrom i s).head?.map (·.token) ≠ some .equals := by
  intro heq
  cases hl : lexFrom i s with
  | nil => simp [hl] at heq
  | cons l ls =>
    have htoken : l.token = .equals := by simpa [hl] using heq
    obtain ⟨g, w, r, hg, rfl, -, -, hw⟩ := exists_of_lexFrom_eq_cons hl
    rw [htoken] at hw
    cases hw (by simp) with
    | equals => exact h ⟨⟨g, hg⟩, r, rfl⟩

/-- A comma and a word, with the gaps at the two sides of the comma. -/
structure Spaced where
  before : Gap
  after : Gap
  word : Word

namespace Spaced

def text (x : Spaced) : Text := x.before.val ++ ',' :: (x.after.val ++ x.word.val)

/-- There are no gaps. -/
def isTight (x : Spaced) : Bool := x.before.val.isEmpty && x.after.val.isEmpty

def ofWord (w : Word) : Spaced := ⟨noGap, noGap, w⟩

end Spaced

theorem flatMap_text_ofWord (ws : List Word) :
    (ws.map Spaced.ofWord).flatMap Spaced.text = wordsText ws :=
  List.flatMap_map _ _ ws

theorem Grammar.Follows.spaced {r : Text} (hr : Follows r) (xs : List Spaced) :
    Follows (xs.flatMap Spaced.text ++ r) := by
  cases xs with
  | nil => exact hr
  | cons x xs =>
    refine ⟨x.before, ',', x.after.val ++ (x.word.val ++ (xs.flatMap Spaced.text ++ r)), ?_,
      .inl rfl⟩
    simp [Spaced.text]

theorem touches_iff (i : Nat) (g : Gap) : decide (i = i + bytes g.val) = g.val.isEmpty := by
  rw [Bool.eq_iff_iff, decide_eq_true_eq, List.isEmpty_iff, ← bytes_eq_zero]
  omega

/-- The words behind the first one are read to their end and no further, gaps or not. -/
theorem pieces_spaced (xs : List Spaced) {r : Text} (hr : EndsValue r) (w : Lexeme) :
    ∃ ps, pieces (lexFrom w.stop (xs.flatMap Spaced.text ++ r)) =
        (ps, lexFrom (w.stop + bytes (xs.flatMap Spaced.text)) r) ∧
      touching (w :: ps) = xs.all Spaced.isTight ∧
      ((w :: ps).getLast (List.cons_ne_nil w ps)).stop =
        w.stop + bytes (xs.flatMap Spaced.text) ∧
      ps.flatMap pieceText = wordsText (xs.map Spaced.word) := by
  induction xs generalizing w with
  | nil => exact ⟨[], (hr.afterValue _).pieces, rfl, rfl, rfl⟩
  | cons x xs ih =>
    obtain ⟨t, hspelled, hbare, hstops⟩ := Word.exists_token x.word
    have hfollows := hr.follows.spaced xs
    have htext : (x :: xs).flatMap Spaced.text ++ r = x.before.val ++ ([','] ++
        (x.after.val ++ (x.word.val ++ (xs.flatMap Spaced.text ++ r)))) := by
      simp [Spaced.text]
    -- the comma and the word are two tokens, and the induction goes on behind the word
    let c : Lexeme :=
      ⟨.comma, w.stop + bytes x.before.val, w.stop + bytes x.before.val + bytes [',']⟩
    let l : Lexeme := ⟨t, c.stop + bytes x.after.val, c.stop + bytes x.after.val + bytes x.word.val⟩
    have hstop : l.stop + bytes (xs.flatMap Spaced.text) =
        w.stop + bytes ((x :: xs).flatMap Spaced.text) := by
      simp only [l, c, List.flatMap_cons, Spaced.text, bytes_append, bytes_cons, bytes_nil]
      omega
    obtain ⟨ps, hpieces, htouch, hlast, hps⟩ := ih l
    refine ⟨c :: l :: ps, ?_, ?_, ?_, ?_⟩
    · rw [htext, lexFrom_append x.before.2 .comma trivial,
        lexFrom_append x.after.2 hspelled (hstops _ hfollows.ends), pieces, if_pos, hpieces, hstop]
      exact ⟨rfl, by rw [hbare]; rfl, head_ne_equals hfollows.not_beginsEquals _⟩
    · rw [touching, touching, htouch, List.all_cons, Spaced.isTight, touches_iff, touches_iff,
        Bool.and_assoc]
    · rw [List.getLast_cons (List.cons_ne_nil c _), List.getLast_cons (List.cons_ne_nil l ps),
        hlast, hstop]
    · rw [List.flatMap_cons, List.flatMap_cons, hps, pieceText_comma rfl, pieceText_of_bare hbare]
      simp [wordsText]

/-- **Words and commas are one value if there are no gaps, and otherwise faulty as a whole.** -/
theorem value_spaced (ending : Ending) (w : Word) (xs : List Spaced) {r : Text} (hr : EndsValue r)
    (i : Nat) :
    value ending (lexFrom i (w.val ++ (xs.flatMap Spaced.text ++ r))) =
      if xs.all Spaced.isTight then
        .ok (w.val ++ wordsText (xs.map Spaced.word),
          lexFrom (i + bytes (w.val ++ xs.flatMap Spaced.text)) r)
      else .error ⟨i, i + bytes (w.val ++ xs.flatMap Spaced.text), .looseValue, []⟩ := by
  obtain ⟨t, hspelled, hbare, hstops⟩ := Word.exists_token w
  obtain ⟨ps, hpieces, htouch, hlast, hps⟩ := pieces_spaced xs hr ⟨t, i, i + bytes w.val⟩
  have hfirst : pieceText ⟨t, i, i + bytes w.val⟩ = w.val := pieceText_of_bare hbare
  rw [lexFrom_slice hspelled (hstops _ (hr.follows.spaced xs).ends), value_of_bare hbare, bareValue]
  simp only [hpieces, htouch, hlast, (hr.afterValue _).strayEquals, List.flatMap_cons, hps, hfirst,
    bytes_append, Nat.add_assoc]

theorem value_complete (ending : Ending) (V : Value) {r : Text} (hr : EndsValue r) (i : Nat) :
    value ending (lexFrom i (V.text ++ r)) = .ok (V.content, lexFrom (i + bytes V.text) r) := by
  cases V with
  | quoted t =>
    rw [Value.text, lexFrom_slice (.quoted t.2) trivial]
    rfl
  | bare w ws =>
    have htight : (ws.map Spaced.ofWord).all Spaced.isTight = true := by
      rw [List.all_map]
      exact List.all_eq_true.mpr fun _ _ => rfl
    have hwords : (ws.map Spaced.ofWord).map Spaced.word = ws := by
      rw [List.map_map]
      exact List.map_id ws
    have h := value_spaced ending w (ws.map Spaced.ofWord) hr i
    rwa [if_pos htight, hwords, flatMap_text_ofWord, ← List.append_assoc] at h

/-! ## Arguments -/

/-- An argument as far as its value is read, and so it is the value that decides. -/
theorem parameters_opening (ending : Ending) (a : Argument) (r : Text) (i : Nat) :
    parameters ending (lexFrom i (a.opening ++ r)) =
      (value ending (lexFrom (i + bytes a.opening) r)).bind fun v =>
        (parameters ending v.2).map fun ps => (⟨a.key.val, v.1⟩ :: ps.1, ps.2) := by
  obtain ⟨c, k, e, hc, hk, he, hlex⟩ := exists_lexFrom_opening a r i
  have hkey :
      parameterKey ending (k :: e :: lexFrom (i + bytes a.opening) r) = .ok (a.key.val, _) :=
    parameterKey_of_tokens hk he
  rw [hlex, parameters, if_pos hc]
  split
  · simp_all
  · rename_i key afterKey hkey'
    obtain ⟨rfl, rfl⟩ := Prod.mk.inj (Except.ok.inj (hkey'.symm.trans hkey))
    split
    · rename_i f hv
      rw [hv]
      rfl
    · rename_i v rest hv
      rw [hv, Except.bind]
      cases parameters ending rest <;> rfl

theorem parameters_closing {ending : Ending} {l : Lexeme} {ls : List Lexeme}
    (h : l.token = .closing) : parameters ending (l :: ls) = .ok ([], l :: ls) := by
  rw [parameters, if_neg (by simp [h])]

/-- **Arguments are read one after the other**, whatever comes of the text behind them. -/
theorem parameters_arguments (ending : Ending) (as : List Argument) {r : Text} (hr : EndsValue r)
    (i : Nat) :
    parameters ending (lexFrom i (as.flatMap Argument.text ++ r)) =
      (parameters ending (lexFrom (i + bytes (as.flatMap Argument.text)) r)).map
        fun ps => (as.map Argument.parameter ++ ps.1, ps.2) := by
  induction as generalizing i with
  | nil =>
    rw [List.flatMap_nil, List.nil_append, bytes_nil, Nat.add_zero]
    cases parameters ending (lexFrom i r) <;> rfl
  | cons a as ih =>
    have hstop : i + bytes a.opening + bytes a.value.text + bytes (as.flatMap Argument.text) =
        i + bytes ((a :: as).flatMap Argument.text) := by
      rw [List.flatMap_cons, ← a.opening_append, bytes_append, bytes_append]
      omega
    rw [flatMap_text_cons, parameters_opening,
      value_complete ending a.value (endsValue_arguments as hr), Except.bind, ih, hstop]
    cases parameters ending (lexFrom (i + bytes ((a :: as).flatMap Argument.text)) r) <;> rfl

/-! ## Whole placeholders -/

theorem close_complete (ending : Ending) (expected : List Expected) (n : Node) (behind after : Gap)
    (i : Nat) : close ending expected n (lexFrom i (closingText behind after)) = .ok n := by
  obtain ⟨l, hl, hlex⟩ := exists_lexFrom_closing behind after i
  rw [hlex, close, if_pos hl]
  rfl

/-- What the sign says. -/
def signModifier : Option Gap → Modifier
  | some _ => .definition
  | none => .reference

/-- A name is read, and so it is the parameters that decide. -/
theorem named_name (ending : Ending) (m : Modifier) (expected : List Expected) (g : Gap)
    (name : Name) {r : Text} (hr : Ends Token.isWordChar r) (i : Nat) :
    named ending m expected (lexFrom i (g.val ++ (name.val ++ r))) =
      (parameters ending (lexFrom (i + bytes g.val + bytes name.val) r)).bind fun ps =>
        close ending [.comma, .closing] ⟨m, name.val, ps.1⟩ ps.2 := by
  rw [lexFrom_append g.2 (Name.spelled name) hr, named]
  cases parameters ending (lexFrom (i + bytes g.val + bytes name.val) r) <;> rfl

theorem body_ident {ending : Ending} {l : Lexeme} {ls : List Lexeme} {t : Text}
    (h : l.token = .ident t) :
    body ending (l :: ls) = named ending .reference [.atSign] (l :: ls) := by
  rw [body]
  simp only [h]

theorem body_named (ending : Ending) (inside : Gap) (sign : Option Gap) (name : Name) {r : Text}
    (hr : Ends Token.isWordChar r) (i : Nat) :
    body ending (lexFrom i (inside.val ++ (signText sign ++ (name.val ++ r)))) =
      (parameters ending (lexFrom (i + bytes (inside.val ++ (signText sign ++ name.val))) r)).bind
        fun ps => close ending [.comma, .closing] ⟨signModifier sign, name.val, ps.1⟩ ps.2 := by
  cases sign with
  | some g =>
    have htext : signText (some g) ++ (name.val ++ r) = ['@'] ++ (g.val ++ (name.val ++ r)) := rfl
    have hstop : i + bytes inside.val + bytes ['@'] + bytes g.val + bytes name.val =
        i + bytes (inside.val ++ (signText (some g) ++ name.val)) := by
      simp only [signText, bytes_append, bytes_cons, bytes_nil]
      omega
    rw [htext, lexFrom_append inside.2 .atSign trivial, body, named_name _ _ _ g name hr, hstop]
    rfl
  | none =>
    have hstop : i + bytes inside.val + bytes name.val =
        i + bytes (inside.val ++ (signText none ++ name.val)) := by
      simp only [signText, bytes_append, List.nil_append]
      omega
    have hlex := lexFrom_append inside.2 (Name.spelled name) hr i
    rw [signText, List.nil_append, hlex, body_ident rfl, ← hlex, named_name _ _ _ inside name hr,
      hstop]
    rfl

/-- The blanks behind a remark are read as part of it, and trimmed off. -/
theorem comment_complete (ending : Ending) (inside : Gap) (t : Remark) (behind after : Gap)
    (i : Nat) :
    body ending (lexFrom i (inside.val ++ ('#' :: t.val ++ closingText behind after))) =
      .ok ⟨.comment, trim t.val, []⟩ := by
  have htrim : trim (t.val ++ behind.val) = trim t.val :=
    trim_append_blanks _ fun c hc => Token.isBlank_of_isGap (behind.2 c hc)
  have hslice : (Token.comment (trim t.val)).Spelled ('#' :: (t.val ++ behind.val)) := by
    rw [← htrim]
    refine .comment fun c hc => ?_
    obtain hc | hc := List.mem_append.mp hc
    · exact t.2.1 c hc
    · exact Token.isBrace_of_isGap (behind.2 c hc)
  have htext : '#' :: t.val ++ closingText behind after =
      '#' :: (t.val ++ behind.val) ++ closingText noGap after := by
    simp [closingText, noGap]
  have hstop : Ends (!Token.isBrace ·) (closingText noGap after) :=
    ends_cons.mpr rfl
  have hne : trim t.val ≠ [] := mt trim_eq_nil.mp (by simp [t.2.2])
  rw [htext, lexFrom_append inside.2 hslice hstop, body]
  simp only [List.isEmpty_iff, hne, if_false, close_complete]

theorem body_complete (ending : Ending) (inside : Gap) (b : Body) (behind after : Gap) (i : Nat) :
    body ending (lexFrom i (inside.val ++ (b.text ++ closingText behind after))) = .ok b.node := by
  cases b with
  | comment t => exact comment_complete ending inside t behind after i
  | named sign name as =>
    have hends := endsValue_closing behind after
    have htext : (Body.named sign name as).text ++ closingText behind after =
        signText sign ++ (name.val ++ (as.flatMap Argument.text ++ closingText behind after)) := by
      simp only [Body.text, List.append_assoc]
    obtain ⟨l, hl, hlex⟩ := exists_lexFrom_closing behind after
      (i + bytes (inside.val ++ (signText sign ++ name.val)) + bytes (as.flatMap Argument.text))
    rw [htext, body_named ending inside sign name (endsValue_arguments as hends).follows.ends,
      parameters_arguments ending as hends, hlex, parameters_closing hl, Except.map, Except.bind,
      ← hlex, close_complete, List.append_nil]
    cases sign <;> rfl

/-- The opening braces are read, and so it is the body that decides. -/
theorem parse_opening (g : Gap) (r : Text) :
    parse (g.val ++ (['\x7b', '\x7b'] ++ r)) =
      body (.of (g.val ++ (['\x7b', '\x7b'] ++ r)) (lex (g.val ++ (['\x7b', '\x7b'] ++ r))))
        (lexFrom (bytes (g.val ++ ['\x7b', '\x7b'])) r) := by
  have hlex := lexFrom_append (r := r) g.2 .opening trivial 0
  rw [Nat.zero_add, ← bytes_append] at hlex
  generalize hending : Ending.of _ _ = ending
  rw [parse, hending, lex, hlex]
  rfl

/-- **Every derivation is read as the node that it says.** -/
theorem parse_complete (d : Derivation) : parse d.text = .ok d.node := by
  have htext : d.text = d.before.val ++ (['\x7b', '\x7b'] ++
    (d.inside.val ++ (d.body.text ++ closingText d.behind d.after))) := rfl
  rw [htext, parse_opening, body_complete]
  rfl

/-- **The placeholders are the texts of the grammar**: a text is read as a node just when it has a
derivation that says the node, and the texts of two derivations are the same only if they differ in
nothing but the blanks behind a remark, which do not matter to what they say. -/
theorem parse_iff_derivation (s : Text) (n : Node) :
    (parse s = .ok n ↔ ∃ d : Derivation, d.Lookahead ∧ d.text = s ∧ d.node = n) ∧
      (∀ d e : Derivation, d.text = e.text ↔ d.absorbed = e.absorbed) ∧
      ∀ d : Derivation, d.absorbed.text = d.text ∧ d.absorbed.node = d.node := by
  refine ⟨⟨fun h => ?_, ?_⟩, fun d e => Derivation.text_eq_iff,
    fun d => ⟨d.text_absorbed, d.node_absorbed⟩⟩
  · obtain ⟨d, htext, hnode⟩ := parse_sound h
    exact ⟨d, d.lookahead, htext, hnode⟩
  · rintro ⟨d, -, rfl, rfl⟩
    exact parse_complete d

/-- A comment and the gap behind it. -/
def remarked (t : Remark) (behind : Gap) : Derivation :=
  ⟨noGap, noGap, .comment t, behind, noGap⟩

/-- The blank behind a remark can be counted as part of it or not. -/
theorem not_existsUnique_derivation :
    parse "\x7b\x7b#a \x7d\x7d".toList = .ok ⟨.comment, ['a'], []⟩ ∧
      ¬ ∃! d : Derivation, d.Lookahead ∧ d.text = "\x7b\x7b#a \x7d\x7d".toList ∧
        d.node = ⟨.comment, ['a'], []⟩ := by
  let inside := remarked ⟨['a', ' '], by simp [Token.isBrace], rfl⟩ noGap
  let outside := remarked ⟨['a'], by simp [Token.isBrace], rfl⟩ ⟨[' '], by simp [Token.isGap]⟩
  refine ⟨by decide +kernel, ?_⟩
  rintro ⟨d, -, hunique⟩
  have hinside : inside = d := hunique inside ⟨inside.lookahead, by decide +kernel, rfl⟩
  have houtside : outside = d := hunique outside ⟨outside.lookahead, by decide +kernel, rfl⟩
  have hbehind : inside.behind = outside.behind := by rw [hinside, houtside]
  exact absurd (congrArg Subtype.val hbehind) (by decide)

end PromptTemplate.Placeholder
