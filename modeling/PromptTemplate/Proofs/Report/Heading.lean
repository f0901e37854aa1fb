import PromptTemplate.Proofs.Template.Diagnosis
import PromptTemplate.Proofs.Text.Run
import PromptTemplate.Report
import PromptTemplate.Text.Place

/-!
# Proofs/Report/Heading — the line and column at the head of a report

    {{a b}}   ╭─[t.prompt:1:5]      the fifth character of the first line
    é {{a b}}   ╭─[t.prompt:1:8]    one too far, as `é` takes two bytes

A report takes the offset of an issue for the index of a character, and looks up the line that has
it. Found in this way, line and column are those of that character (`locate_of_lt`). But offsets
count bytes. So **the heading names the character that an issue starts at just where index and
offset are the same**, and where the end of the issue, too, can be read as an index
(`heads_report_iff`).
-/

namespace PromptTemplate

open Text

namespace Report

/-! ## Places -/

/-- Whether a character with the text `r` behind it is the last one of its line. A carriage return
and the line feed behind it end one line. -/
def isLast (c : Char) (r : Text) : Bool := endsLine c && !(c == '\r' && r.head? == some '\n')

/-- The place of the character with an index, `p` being that of the first one. -/
def placeFrom (p : Place) : Text → (index : Nat) → Place
  | c :: r, k + 1 => placeFrom (if isLast c r then ⟨p.line + 1, 1⟩ else ⟨p.line, p.column + 1⟩) r k
  | _, _ => p

/-- The line and the column of the character with an index, both from one. -/
def place (s : Text) (index : Nat) : Place := placeFrom ⟨1, 1⟩ s index

/-- Within the first line the index goes on in its columns. -/
theorem placeFrom_of_lt {s : Text} {k : Nat} {p : Place} (h : k < (cutLine s).1.length) :
    placeFrom p s k = ⟨p.line, p.column + k⟩ := by
  fun_induction cutLine s generalizing p k with
  | case1 => exact absurd h (by simp)
  | case2 r =>
    obtain rfl | rfl : k = 0 ∨ k = 1 := by
      rw [List.length_cons, List.length_singleton] at h
      omega
    · rfl
    · rfl
  | case3 c r hcrlf hc =>
    obtain rfl : k = 0 := by simpa using h
    rfl
  | case4 c r hcrlf hc ih =>
    cases k with
    | zero => rfl
    | succ k =>
      have hlast : isLast c r = false := by simp [isLast, hc]
      rw [placeFrom, hlast, if_neg Bool.false_ne_true, ih (by simpa using h), Nat.add_assoc,
        Nat.add_comm 1 k]

/-- Behind the first line a new one begins. -/
theorem placeFrom_length_add {s : Text} {k : Nat} {p : Place} (h : k < (cutLine s).2.length) :
    placeFrom p s ((cutLine s).1.length + k) = placeFrom ⟨p.line + 1, 1⟩ (cutLine s).2 k := by
  fun_induction cutLine s generalizing p with
  | case1 => exact absurd h (by simp)
  | case2 r =>
    rw [List.length_cons, List.length_singleton, Nat.add_comm]
    rfl
  | case3 c r hcrlf hc =>
    -- a carriage return with a line feed behind it is the case before
    have hlast : isLast c r = true := by
      rw [isLast, hc, Bool.true_and, Bool.not_eq_true', Bool.and_eq_false_imp]
      intro hreturn
      cases r with
      | nil => rfl
      | cons d r =>
        have hd : d ≠ '\n' := fun heq => hcrlf r (eq_of_beq hreturn) (by rw [heq])
        simpa using hd
    rw [List.length_singleton, Nat.add_comm, placeFrom, hlast, if_pos rfl]
  | case4 c r hcrlf hc ih =>
    have hlast : isLast c r = false := by simp [isLast, hc]
    rw [List.length_cons, Nat.add_right_comm, placeFrom, hlast, if_neg Bool.false_ne_true, ih h]

/-! ## Lines -/

theorem linesFrom_cons (o : Nat) (c : Char) (r : Text) :
    linesFrom o (c :: r) = ⟨o, (cutLine (c :: r)).1⟩ ::
      linesFrom (o + (cutLine (c :: r)).1.length) (cutLine (c :: r)).2 := by rw [linesFrom]

theorem takeWhile_linesFrom_of_lt {o j : Nat} (h : j < o) (s : Text) :
    (linesFrom o s).takeWhile (·.offset ≤ j) = [] := by
  cases s with
  | nil => simp [linesFrom]
  | cons c r =>
    rw [linesFrom_cons, List.takeWhile_cons_of_neg]
    simpa using h

theorem takeWhile_cons_of_le {o j : Nat} (h : o ≤ j) (t : Text) (ls : List Line) :
    ((⟨o, t⟩ : Line) :: ls).takeWhile (·.offset ≤ j) = ⟨o, t⟩ :: ls.takeWhile (·.offset ≤ j) :=
  List.takeWhile_cons_of_pos (by simpa using h)

/-- The last line that does not begin behind a character has it, and says its place. -/
theorem exists_line_of_lt {o k : Nat} {s : Text} (m : Nat) (h : k < s.length) :
    ∃ n l, ((linesFrom o s).takeWhile (·.offset ≤ o + k)).length = n + 1 ∧
      (linesFrom o s)[n]? = some l ∧ placeFrom ⟨m, 1⟩ s k = ⟨m + n, o + k - l.offset + 1⟩ := by
  fun_induction linesFrom o s generalizing k m with
  | case1 => exact absurd h (by simp)
  | case2 o c r ih =>
    have hlength := congrArg List.length (cutLine_append (c :: r))
    rw [List.length_append] at hlength
    generalize hcut : cutLine (c :: r) = cut at ih hlength ⊢
    -- the character is in the first line, or the others have it
    by_cases hk : k < cut.1.length
    · refine ⟨0, ⟨o, cut.1⟩, ?_, rfl, ?_⟩
      · rw [takeWhile_cons_of_le (Nat.le_add_right o k), takeWhile_linesFrom_of_lt (by omega)]
        rfl
      · rw [placeFrom_of_lt (by rwa [hcut]), Nat.add_sub_cancel_left, Nat.add_comm 1 k]
        rfl
    · obtain ⟨j, rfl⟩ := Nat.exists_eq_add_of_le (Nat.le_of_not_lt hk)
      have hj : j < cut.2.length := by omega
      obtain ⟨n, l, htake, hget, hplace⟩ := ih (m + 1) hj
      rw [Nat.add_assoc] at htake hplace
      refine ⟨n + 1, l, ?_, hget, ?_⟩
      · rw [takeWhile_cons_of_le (Nat.le_add_right o _), List.length_cons, htake]
      · rw [← hcut, placeFrom_length_add (by rwa [hcut]), hcut, hplace, Nat.add_assoc,
          Nat.add_comm 1 n]

/-- **The line of a character that is looked up says its place.** -/
theorem locate_of_lt {s : Text} {k : Nat} (h : k < s.length) :
    ∃ n l, locate s k = some (n, l) ∧ place s k = ⟨n + 1, k - l.offset + 1⟩ := by
  obtain ⟨n, l, htake, hget, hplace⟩ := exists_line_of_lt (o := 0) 1 h
  rw [Nat.zero_add] at htake hplace
  refine ⟨n, l, ?_, ?_⟩
  · rw [locate, if_neg (by omega)]
    simp only [lines, htake, Nat.add_sub_cancel, hget, Option.map_some]
  · rw [place, hplace, Nat.add_comm]

theorem locate_eq_some {s : Text} {k n : Nat} {l : Line} (h : locate s k = some (n, l)) :
    k ≤ s.length ∧ (lines s)[n]? = some l ∧ l.offset ≤ k := by
  rw [locate] at h
  split at h
  · exact absurd h (by simp)
  · rename_i hle
    obtain ⟨l', hget, heq⟩ := Option.map_eq_some_iff.mp h
    obtain ⟨rfl, rfl⟩ := Prod.mk.inj heq
    refine ⟨Nat.le_of_not_lt hle, hget, ?_⟩
    cases s with
    | nil => exact absurd hget (by simp [lines, linesFrom])
    | cons c r =>
      rw [lines, linesFrom_cons, takeWhile_cons_of_le (Nat.zero_le k)] at hget
      generalize linesFrom _ _ = ls at hget
      have hbegun : ∀ l ∈ ls.takeWhile (·.offset ≤ k), l.offset ≤ k :=
        fun l hl => by simpa using List.mem_takeWhile_imp hl
      obtain ⟨later, hlater⟩ : ls.takeWhile (·.offset ≤ k) <+: ls := List.takeWhile_prefix _
      generalize ls.takeWhile (·.offset ≤ k) = begun at hget hbegun hlater
      rw [← hlater, ← List.cons_append, List.getElem?_append_left (by simp)] at hget
      obtain rfl | hmem := List.mem_cons.mp (List.mem_of_getElem? hget)
      · exact Nat.zero_le k
      · exact hbegun l' hmem

theorem locate_isSome {s : Text} {k : Nat} (hne : s ≠ []) :
    (locate s k).isSome ↔ k ≤ s.length := by
  refine ⟨fun h => ?_, fun h => ?_⟩
  · obtain ⟨⟨n, l⟩, hlocate⟩ := Option.isSome_iff_exists.mp h
    exact (locate_eq_some hlocate).1
  · obtain ⟨c, r, rfl⟩ := List.exists_cons_of_ne_nil hne
    have hle := (List.takeWhile_prefix (p := (·.offset ≤ k)) (l := lines (c :: r))).length_le
    have hpos : 0 < (lines (c :: r)).length := by
      rw [lines, linesFrom_cons]
      exact Nat.zero_lt_succ _
    rw [locate, if_neg (Nat.not_lt.mpr h), Option.isSome_map, isSome_getElem?]
    omega

/-- No character in front of an index has the place that is looked up for the index. -/
theorem place_ne {s : Text} {j k n : Nat} {l : Line} (hlt : j < k) (h : locate s k = some (n, l)) :
    place s j ≠ ⟨n + 1, k - l.offset + 1⟩ := by
  obtain ⟨hle, hget, hoffset⟩ := locate_eq_some h
  obtain ⟨n', l', hlocate, hplace⟩ := locate_of_lt (Nat.lt_of_lt_of_le hlt hle)
  obtain ⟨-, hget', hoffset'⟩ := locate_eq_some hlocate
  rw [hplace]
  intro heq
  obtain ⟨hline, hcolumn⟩ := Place.mk.inj heq
  obtain rfl : n' = n := Nat.succ.inj hline
  obtain rfl : l' = l := Option.some.inj (hget'.symm.trans hget)
  omega

/-! ## Headings -/

/-- The report begins with the message, and below it stands a heading with the file and a place. -/
def Heads (file : Text) (i : Issue) (report : Text) (p : Place) : Prop :=
  ∃ m rest, report = "Error: ".toList ++ (i.message ++ '\n' :: (spaces m ++ '╭' :: '─' :: '[' ::
    (file ++ ':' :: (Decimal.digits p.line ++ ':' :: (Decimal.digits p.column ++ ']' :: rest)))))

theorem digits_append_inj {m n : Nat} {c d : Char} {r s : Text} (hc : Decimal.isDigit c = false)
    (hd : Decimal.isDigit d = false)
    (h : Decimal.digits m ++ c :: r = Decimal.digits n ++ d :: s) : m = n ∧ r = s := by
  obtain ⟨hdigits, hrest⟩ := append_inj_of_ends (fun _ => Decimal.isDigit_of_mem_digits)
    (fun _ => Decimal.isDigit_of_mem_digits) (ends_cons.mpr hc) (ends_cons.mpr hd) h
  refine ⟨?_, (List.cons.inj hrest).2⟩
  rw [← Decimal.value_digits m, hdigits, Decimal.value_digits]

/-- A report has one heading. -/
theorem Heads.unique {file report : Text} {i : Issue} {p p' : Place} (h : Heads file i report p)
    (h' : Heads file i report p') : p = p' := by
  obtain ⟨m, rest, rfl⟩ := h
  obtain ⟨m', rest', heq⟩ := h'
  have hspaces : ∀ n, ∀ c ∈ spaces n, (c == ' ') = true :=
    fun n c hc => beq_iff_eq.mpr (List.eq_of_mem_replicate hc)
  have hbox := (List.cons.inj (List.append_cancel_left (List.append_cancel_left heq))).2
  obtain ⟨-, hbox⟩ := append_inj_of_ends (hspaces m) (hspaces m') (ends_cons.mpr rfl)
    (ends_cons.mpr rfl) hbox
  have hfile := (List.cons.inj (List.cons.inj (List.cons.inj hbox).2).2).2
  have hplace := (List.cons.inj (List.append_cancel_left hfile)).2
  obtain ⟨hline, hplace⟩ := digits_append_inj rfl rfl hplace
  obtain ⟨hcolumn, -⟩ := digits_append_inj rfl rfl hplace
  exact congrArg₂ Place.mk hline hcolumn

theorem exists_box_eq (file s : Text) (i : Issue) (first last : Nat × Line) :
    ∃ m rest, box file s i first last = spaces m ++ '╭' :: '─' :: '[' ::
      (file ++ ':' :: (Decimal.digits (first.1 + 1) ++
        ':' :: (Decimal.digits (i.start - first.2.offset + 1) ++ ']' :: rest))) := by
  have hcorner : "╭─[".toList = ['╭', '─', '['] := by simp
  refine ⟨(Decimal.digits (last.1 + 1)).length + 2, '\n' ::
    (spaces ((Decimal.digits (last.1 + 1)).length + 2) ++ '│' :: '\n' ::
      (rows (Decimal.digits (last.1 + 1)).length s i first last ++
        (List.replicate ((Decimal.digits (last.1 + 1)).length + 2) '─' ++ ['╯', '\n']))), ?_⟩
  simp only [box, hcorner, List.append_assoc, List.cons_append, List.nil_append]

theorem heads_ofIssue {file s : Text} {i : Issue} {n : Nat} {l : Line}
    (hfirst : locate s i.start = some (n, l)) (hlast : (locate s (lastOffset i)).isSome) :
    Heads file i (ofIssue file s i) ⟨n + 1, i.start - l.offset + 1⟩ := by
  obtain ⟨last, hlast⟩ := Option.isSome_iff_exists.mp hlast
  obtain ⟨m, rest, hbox⟩ := exists_box_eq file s i (n, l) last
  refine ⟨m, rest, ?_⟩
  unfold ofIssue
  simp only [hfirst, hlast, hbox, List.append_assoc]

/-- A report without a box has no heading. -/
theorem locate_of_heads {file s : Text} {i : Issue} {p : Place}
    (h : Heads file i (ofIssue file s i) p) :
    (locate s i.start).isSome ∧ (locate s (lastOffset i)).isSome := by
  obtain ⟨m, rest, heq⟩ := h
  unfold ofIssue at heq
  rw [List.append_assoc] at heq
  have hbox := (List.cons.inj (List.append_cancel_left (List.append_cancel_left heq))).2
  have hne : ∀ c r, spaces m ++ c :: r ≠ [] := by simp
  cases hfirst : locate s i.start with
  | none =>
    rw [hfirst] at hbox
    exact absurd hbox.symm (hne _ _)
  | some first =>
    cases hlast : locate s (lastOffset i) with
    | none =>
      rw [hfirst, hlast] at hbox
      exact absurd hbox.symm (hne _ _)
    | some last => exact ⟨rfl, rfl⟩

/-- A heading is that of the place that is looked up. -/
theorem heads_ofIssue_iff {file s : Text} {i : Issue} {p : Place} {n : Nat} {l : Line}
    (h : locate s i.start = some (n, l)) :
    Heads file i (ofIssue file s i) p ↔
      (locate s (lastOffset i)).isSome ∧ p = ⟨n + 1, i.start - l.offset + 1⟩ := by
  refine ⟨fun hheads => ?_, ?_⟩
  · have hlast := (locate_of_heads hheads).2
    exact ⟨hlast, hheads.unique (heads_ofIssue h hlast)⟩
  · rintro ⟨hlast, rfl⟩
    exact heads_ofIssue h hlast

/-! ## Offsets and indices -/

/-- The diagnostics of a template have one issue each, and it is reported. -/
theorem report_eq {s file : Text} {d : Diagnostic} {i : Issue} (hd : d ∈ Registry.diagnostics s)
    (hi : i ∈ d.issues) : d.report file s = ofIssue file s i := by
  obtain ⟨o, -, f, -, rfl⟩ := Registry.exists_of_mem_survey hd
  obtain rfl := List.mem_singleton.mp hi
  simp [Diagnostic.report, Registry.diagnose]

/-- An issue starts at a character of the template. -/
theorem exists_cut {s : Text} {d : Diagnostic} {i : Issue} (h : Registry.Inside s d i) :
    ∃ a c b, s = a ++ c :: b ∧ bytes a = i.start := by
  obtain ⟨a, r, rfl, ha⟩ := exists_append_of_isValid h.isValid_start
  obtain ⟨e, r', he, hstop⟩ := exists_append_of_isValid h.isValid_stop
  cases r with
  | nil =>
    have hbytes := congrArg bytes he
    rw [List.append_nil, bytes_append] at hbytes
    have hlt := h.start_lt_stop
    omega
  | cons c b => exact ⟨a, c, b, rfl, ha⟩

/-- **The heading of a report names the character that its issue starts at, just where the
characters in front of it take one byte each**, and where the end of the issue is an index, too. Of
other characters it names the one that has the offset as its index. -/
theorem heads_report_iff {s file : Text} {d : Diagnostic} {i : Issue}
    (hd : d ∈ Registry.diagnostics s) (hi : i ∈ d.issues) :
    (∃ a c b, s = a ++ c :: b ∧ bytes a = i.start ∧
      (Heads file i (d.report file s) (place s a.length) ↔
        (∀ c ∈ a, c.utf8Size = 1) ∧ i.stop ≤ s.length + 1)) ∧
      ∀ p, Heads file i (d.report file s) p → i.start < s.length → p = place s i.start := by
  have hinside := (Registry.surveyed s).inside d hd i hi
  rw [report_eq hd hi]
  refine ⟨?_, fun p hheads hlt => ?_⟩
  · obtain ⟨a, c, b, hs, ha⟩ := exists_cut hinside
    have hlength := congrArg List.length hs
    rw [List.length_append, List.length_cons] at hlength
    have hne : s ≠ [] := by simp [hs]
    have hle := length_le_bytes a
    have hlast : (locate s (lastOffset i)).isSome ↔ i.stop ≤ s.length + 1 := by
      have hoffset : lastOffset i = i.stop - 1 :=
        Nat.max_eq_left (Nat.le_sub_one_of_lt hinside.start_lt_stop)
      rw [locate_isSome hne, hoffset, Nat.sub_le_iff_le_add]
    refine ⟨a, c, b, hs, ha, ?_⟩
    rw [← hlast, ← bytes_eq_length_iff]
    constructor
    · intro hheads
      obtain ⟨hfirst, hsome⟩ := locate_of_heads hheads
      obtain ⟨⟨n, l⟩, hlocate⟩ := Option.isSome_iff_exists.mp hfirst
      have hplace := ((heads_ofIssue_iff hlocate).mp hheads).2
      refine ⟨?_, hsome⟩
      -- a longer character in front makes the offset larger than the index
      by_contra hbytes
      exact place_ne (by omega) hlocate hplace
    · rintro ⟨hbytes, hsome⟩
      have hindex : i.start = a.length := by omega
      obtain ⟨n, l, hlocate, hplace⟩ := locate_of_lt (s := s) (k := i.start) (by omega)
      rw [← hindex]
      exact (heads_ofIssue_iff hlocate).mpr ⟨hsome, hplace⟩
  · obtain ⟨n, l, hlocate, hplace⟩ := locate_of_lt hlt
    rw [((heads_ofIssue_iff hlocate).mp hheads).2, hplace]

/-- The issue is at the fifth character of the second line, and so says the heading. -/
theorem heads_report_second_line :
    ∃ d ∈ Registry.diagnostics "x\n\x7b\x7ba b\x7d\x7d".toList, ∃ i ∈ d.issues,
      Heads ['t'] i (d.report ['t'] "x\n\x7b\x7ba b\x7d\x7d".toList) ⟨2, 5⟩ := by
  generalize hs : "x\n\x7b\x7ba b\x7d\x7d".toList = s
  let i : Issue := ⟨6, 7, "Unexpected identifier 'b'".toList, ["','".toList, "'\x7d\x7d'".toList]⟩
  have hd : ⟨2, 9, [i]⟩ ∈ Registry.diagnostics s := by
    rw [← hs]
    decide +kernel
  have hi : i ∈ [i] := List.mem_singleton.mpr rfl
  refine ⟨_, hd, i, hi, ?_⟩
  obtain ⟨⟨a, c, b, hcut, ha, hheads⟩, -⟩ := @heads_report_iff s ['t'] _ i hd hi
  have hbytes : bytes s = s.length := by
    rw [← hs]
    decide +kernel
  have hfront : ∀ c ∈ a, c.utf8Size = 1 :=
    fun c hc => bytes_eq_length_iff.mp hbytes c (hcut ▸ List.mem_append_left _ hc)
  have hstop : i.stop ≤ s.length + 1 := by
    rw [← hs]
    decide +kernel
  have hplace : place s a.length = ⟨2, 5⟩ := by
    rw [← bytes_eq_length_iff.mpr hfront, ha, ← hs]
    decide +kernel
  exact hplace ▸ hheads.mpr ⟨hfront, hstop⟩

/-- Behind a letter of two bytes the heading is one character too far. -/
theorem exists_not_heads_report :
    ∃ (s file : Text) (d : Diagnostic) (i : Issue) (a : Text) (c : Char) (b : Text),
      d ∈ Registry.diagnostics s ∧ i ∈ d.issues ∧ s = a ++ c :: b ∧ bytes a = i.start ∧
        ¬ Heads file i (d.report file s) (place s a.length) := by
  let i : Issue := ⟨7, 8, "Unexpected identifier 'b'".toList, ["','".toList, "'\x7d\x7d'".toList]⟩
  have hd : ⟨3, 10, [i]⟩ ∈ Registry.diagnostics "é \x7b\x7ba b\x7d\x7d".toList := by
    decide +kernel
  have hi : i ∈ [i] := List.mem_singleton.mpr rfl
  refine ⟨_, ['t'], _, i, "é \x7b\x7ba ".toList, 'b', "\x7d\x7d".toList, hd, hi, rfl, rfl, ?_⟩
  have hlt : i.start < "é \x7b\x7ba b\x7d\x7d".toList.length := by decide
  obtain ⟨n, l, hlocate, -⟩ := locate_of_lt hlt
  rw [report_eq hd hi, heads_ofIssue_iff hlocate]
  rintro ⟨-, hplace⟩
  exact place_ne (by decide) hlocate hplace

end Report

end PromptTemplate
