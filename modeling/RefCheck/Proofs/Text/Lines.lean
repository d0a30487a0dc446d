import RefCheck.Proofs.Text.Joined
import RefCheck.Text.Line
import RefCheck.Text.Word

/-!
# Lines of a text that is put together

Joined lines come back when the text is split into lines, unless the last of them is empty. For a text whose
only line breaks are line feeds, splitting into lines is cutting at the line feeds, but for an empty piece at
the end.
-/

namespace RefCheck.Text

/-! ## Classes of characters -/

/-- The code points of the blanks. -/
def blankPoints : List Nat :=
  [0x09, 0x0A, 0x0B, 0x0C, 0x0D, 0x1C, 0x1D, 0x1E, 0x1F, 0x20, 0x85, 0xA0, 0x1680, 0x2000, 0x2001,
    0x2002, 0x2003, 0x2004, 0x2005, 0x2006, 0x2007, 0x2008, 0x2009, 0x200A, 0x2028, 0x2029, 0x202F,
    0x205F, 0x3000]

theorem isBlank_iff_mem_blankPoints {c : Char} : isBlank c = true ↔ c.toNat ∈ blankPoints := by
  simp only [isBlank, blankPoints, Bool.or_eq_true, Bool.and_eq_true, decide_eq_true_eq, beq_iff_eq,
    List.mem_cons, List.not_mem_nil, or_false]
  omega

theorem inRanges_eq_any (ranges : Array (Nat × Nat)) (n : Nat) :
    inRanges ranges n = ranges.toList.any fun range ↦ Nat.ble range.1 n && Nat.ble n range.2 := by
  have hle : ∀ a b : Nat, decide (a ≤ b) = Nat.ble a b := fun a b ↦ by
    rw [Bool.eq_iff_iff, decide_eq_true_iff, Nat.ble_eq]
  rw [inRanges, ← Array.any_toList]
  simp only [hle]

/-- A blank is no word character. -/
theorem isWord_eq_false_of_isBlank {c : Char} (h : isBlank c = true) : isWord c = false := by
  have hall : ∀ n ∈ blankPoints, isWord (Char.ofNat n) = false := by
    -- the ranges as a list of numbers to compare, since an array and its decisions are slow to compute with
    simp only [isWord, inRanges_eq_any]
    decide +kernel
  rw [← Char.ofNat_toNat c]
  exact hall c.toNat (isBlank_iff_mem_blankPoints.mp h)

/-- Every character that ends a line is a blank. -/
theorem isBlank_of_isLineBreak {c : Char} (h : isLineBreak c = true) : isBlank c = true := by
  simp only [isLineBreak, isBlank, Bool.or_eq_true, Bool.and_eq_true, decide_eq_true_eq, beq_iff_eq] at h ⊢
  omega

/-- That a text is one line can be decided by going through it. -/
theorem not_lineBreak_of_all {cs : List Char} (h : (cs.all fun c ↦ !isLineBreak c) = true) {c : Char}
    (hc : c ∈ cs) : isLineBreak c = false := by
  simpa using List.all_eq_true.mp h c hc

/-! ## Places between lines -/

/-- The text is empty or ends with a line feed, so a line starts after it. -/
def StartsLine (before : List Char) : Prop := ∀ c ∈ before.getLast?, c = '\n'

/-- The text is at its end or goes on with the next line, so a line ends before it. -/
def EndsLine (after : List Char) : Prop := ∀ c ∈ after.head?, c = '\n'

instance decidableStartsLine (before : List Char) : Decidable (StartsLine before) :=
  Option.decidableForallMem _

instance decidableEndsLine (after : List Char) : Decidable (EndsLine after) :=
  Option.decidableForallMem _

theorem StartsLine.eq_nil_or {before : List Char} (h : StartsLine before) :
    before = [] ∨ ∃ lines, before = lines ++ ['\n'] := by
  rcases List.eq_nil_or_concat before with rfl | ⟨lines, c, rfl⟩
  · exact .inl rfl
  · exact .inr ⟨lines, by rw [h c (by simp), List.concat_eq_append]⟩

theorem EndsLine.eq_nil_or {after : List Char} (h : EndsLine after) :
    after = [] ∨ ∃ lines, after = '\n' :: lines := by
  cases after with
  | nil => exact .inl rfl
  | cons c lines => exact .inr ⟨lines, by rw [h c rfl]⟩

/-- Where a line starts after a text, it starts after what is left of the text, too. -/
theorem StartsLine.of_append {a b : List Char} (h : StartsLine (a ++ b)) : StartsLine b := by
  intro c hc
  refine h c ?_
  rw [Option.mem_def] at hc
  rw [List.getLast?_append, hc]
  rfl

/-! ## Splitting joined lines -/

theorem splitLines_cons {c : Char} (hc : isLineBreak c = false) (cs : List Char) :
    splitLines (c :: cs) =
      match splitLines cs with
      | [] => [[c]]
      | line :: lines => (c :: line) :: lines := by
  rw [splitLines]
  · exact if_neg (by rw [hc]; exact Bool.false_ne_true)
  · rintro rest rfl -
    exact absurd hc (by decide)

theorem splitLines_lineFeed (cs : List Char) : splitLines ('\n' :: cs) = [] :: splitLines cs := by
  rw [splitLines]
  · exact if_pos rfl
  · intro rest h
    exact absurd h (by decide)

theorem splitLines_append {line : List Char} (h : ∀ c ∈ line, isLineBreak c = false)
    (cs : List Char) : splitLines (line ++ '\n' :: cs) = line :: splitLines cs := by
  induction line with
  | nil => exact splitLines_lineFeed cs
  | cons c line ih =>
    rw [List.cons_append, splitLines_cons (h c List.mem_cons_self),
      ih fun d hd ↦ h d (List.mem_cons_of_mem c hd)]

theorem splitLines_singleton {line : List Char} (h : ∀ c ∈ line, isLineBreak c = false)
    (hne : line ≠ []) : splitLines line = [line] := by
  induction line with
  | nil => exact absurd rfl hne
  | cons c line ih =>
    rw [splitLines_cons (h c List.mem_cons_self)]
    cases line with
    | nil => rfl
    | cons d line => rw [ih (fun e he ↦ h e (List.mem_cons_of_mem c he)) (List.cons_ne_nil d line)]

/-- **Lines that are joined come back**, unless the last one is empty. -/
theorem splitLines_joinLines {lines : List (List Char)}
    (h : ∀ line ∈ lines, ∀ c ∈ line, isLineBreak c = false) (hlast : lines.getLast? ≠ some []) :
    splitLines (joinLines lines) = lines := by
  induction lines with
  | nil => rfl
  | cons line lines ih =>
    have hline := h line List.mem_cons_self
    cases lines with
    | nil =>
      rw [joinLines_singleton]
      exact splitLines_singleton hline fun hnil ↦ hlast (by rw [hnil]; rfl)
    | cons next lines =>
      rw [joinLines_cons_cons, splitLines_append hline,
        ih (fun l hl ↦ h l (List.mem_cons_of_mem line hl)) (by rwa [List.getLast?_cons_cons] at hlast)]

/-- The characters that end lines are not in them. -/
theorem isLineBreak_eq_false_of_mem_splitLines {cs line : List Char} (hline : line ∈ splitLines cs) :
    ∀ c ∈ line, isLineBreak c = false := by
  fun_induction splitLines cs generalizing line with
  | case1 => exact absurd hline List.not_mem_nil
  | case2 cs ih =>
    rcases List.mem_cons.mp hline with rfl | hline
    · exact fun c hc ↦ absurd hc List.not_mem_nil
    · exact ih hline
  | case3 c cs _ hbreak ih =>
    rcases List.mem_cons.mp hline with rfl | hline
    · exact fun c hc ↦ absurd hc List.not_mem_nil
    · exact ih hline
  | case4 c cs _ hc hnil ih =>
    rw [List.mem_singleton.mp hline]
    exact List.forall_mem_singleton.mpr (by simpa using hc)
  | case5 c cs _ hc first lines hlines ih =>
    rw [hlines] at ih
    rcases List.mem_cons.mp hline with rfl | hline
    · exact List.forall_mem_cons.mpr ⟨by simpa using hc, ih List.mem_cons_self⟩
    · exact ih (List.mem_cons_of_mem first hline)

theorem joinLines_append {a b : List (List Char)} (ha : a ≠ []) (hb : b ≠ []) :
    joinLines (a ++ b) = joinLines a ++ '\n' :: joinLines b := by
  induction a with
  | nil => exact absurd rfl ha
  | cons line a ih =>
    cases a with
    | nil =>
      cases b with
      | nil => exact absurd rfl hb
      | cons next b => rfl
    | cons next a =>
      rw [List.cons_append, List.cons_append, joinLines_cons_cons, ← List.cons_append,
        ih (List.cons_ne_nil next a), joinLines_cons_cons, List.append_assoc, List.cons_append]

/-- What stands after the first of some lines is the same for every first line. -/
theorem exists_joinLines_cons (lines : List (List Char)) :
    ∃ after, ∀ line, joinLines (line :: lines) = line ++ after := by
  cases lines with
  | nil => exact ⟨[], fun line ↦ (List.append_nil line).symm⟩
  | cons next lines =>
    exact ⟨'\n' :: joinLines (next :: lines), fun line ↦ joinLines_cons_cons line next lines⟩

/-- What stands before the last of some lines is the same for every last line. -/
theorem exists_joinLines_concat (lines : List (List Char)) :
    ∃ before, ∀ line, joinLines (lines ++ [line]) = before ++ line := by
  by_cases hnil : lines = []
  · exact ⟨[], fun line ↦ by rw [hnil]; rfl⟩
  · refine ⟨joinLines lines ++ ['\n'], fun line ↦ ?_⟩
    rw [joinLines_append hnil (List.cons_ne_nil line []), List.append_assoc]
    rfl

/-! ## Lines and pieces -/

/-- The only line breaks are line feeds. -/
def OnlyFeeds (cs : List Char) : Prop := ∀ c ∈ cs, isLineBreak c = true → c = '\n'

instance decidableOnlyFeeds (cs : List Char) : Decidable (OnlyFeeds cs) :=
  List.decidableBAll _ cs

theorem joinLines_eq_joinWith (lines : List (List Char)) : joinLines lines = joinWith '\n' lines := by
  induction lines with
  | nil => rfl
  | cons line lines ih =>
    cases lines with
    | nil => rfl
    | cons next lines =>
      rw [joinLines_cons_cons, ih]
      rfl

theorem pieces_append_cons (sep : Char) (a b : List Char) :
    pieces sep (a ++ sep :: b) = pieces sep a ++ pieces sep b := by
  induction a with
  | nil => exact if_pos rfl
  | cons c a ih =>
    rw [List.cons_append, pieces, pieces]
    split
    · rw [ih, List.cons_append]
    · rw [ih]
      cases hpieces : pieces sep a with
      | nil => exact absurd hpieces (pieces_ne_nil sep a)
      | cons p ps => rfl

theorem splitLines_ne_nil {cs : List Char} (h : OnlyFeeds cs) (hne : cs ≠ []) :
    splitLines cs ≠ [] := by
  cases cs with
  | nil => exact absurd rfl hne
  | cons c cs =>
    cases hc : isLineBreak c with
    | true =>
      rw [h c List.mem_cons_self hc, splitLines_lineFeed]
      exact List.cons_ne_nil [] _
    | false =>
      rw [splitLines_cons hc]
      split
      · exact List.cons_ne_nil [c] []
      · exact List.cons_ne_nil _ _

/-- Where only line feeds break lines, the pieces between them are the lines, and an empty piece more if the
text is empty or ends with a line feed. -/
theorem pieces_eq_splitLines {cs : List Char} (h : OnlyFeeds cs) :
    pieces '\n' cs = splitLines cs ++ if StartsLine cs then [[]] else [] := by
  induction cs with
  | nil => rfl
  | cons c cs ih =>
    have hcs : OnlyFeeds cs := fun d hd ↦ h d (List.mem_cons_of_mem c hd)
    cases hc : isLineBreak c with
    | true =>
      obtain rfl := h c List.mem_cons_self hc
      have hstarts : StartsLine ('\n' :: cs) ↔ StartsLine cs := by
        cases cs with
        | nil => decide
        | cons d cs => rw [StartsLine, List.getLast?_cons_cons, StartsLine]
      rw [pieces, if_pos rfl, ih hcs, splitLines_lineFeed, List.cons_append]
      simp only [hstarts]
    | false =>
      have hfeed : c ≠ '\n' := by
        rintro rfl
        exact absurd hc (by decide)
      rw [pieces, if_neg hfeed, splitLines_cons hc]
      cases cs with
      | nil =>
        have hnot : ¬StartsLine [c] := fun hstart ↦ hfeed (hstart c rfl)
        rw [if_neg hnot]
        rfl
      | cons d cs =>
        have hstarts : StartsLine (c :: d :: cs) ↔ StartsLine (d :: cs) := by
          rw [StartsLine, List.getLast?_cons_cons, StartsLine]
        simp only [ih hcs, hstarts]
        cases hlines : splitLines (d :: cs) with
        | nil => exact absurd hlines (splitLines_ne_nil hcs (List.cons_ne_nil d cs))
        | cons line lines => rfl

theorem mem_splitLines_of_mem_pieces {cs line : List Char} (h : OnlyFeeds cs)
    (hline : line ∈ pieces '\n' cs) : line ∈ splitLines cs ∨ line = [] := by
  rw [pieces_eq_splitLines h, List.mem_append] at hline
  refine hline.imp_right fun hempty ↦ ?_
  split at hempty
  · exact List.mem_singleton.mp hempty
  · exact absurd hempty List.not_mem_nil

/-! ## Trimmed texts -/

/-- Lines with nothing to trim make up a text with nothing to trim, if none of them is empty. -/
theorem trim_joinLines {lines : List (List Char)} (h : ∀ line ∈ lines, line ≠ [] ∧ trim line = line) :
    trim (joinLines lines) = joinLines lines := by
  have hend : trimEnd (joinLines lines) = joinLines lines := by
    rcases List.eq_nil_or_concat lines with rfl | ⟨before, last, rfl⟩
    · rfl
    · obtain ⟨hne, htrim⟩ := h last (by simp)
      have hlast : trimEnd last = last := by rw [← htrim, trimEnd_trim]
      obtain ⟨text, htext⟩ := exists_joinLines_concat before
      rw [List.concat_eq_append, htext, trimEnd_append text (by rwa [hlast]), hlast]
  have hstart : trimStart (joinLines lines) = joinLines lines := by
    cases lines with
    | nil => rfl
    | cons first lines =>
      obtain ⟨hne, htrim⟩ := h first List.mem_cons_self
      obtain ⟨c, cs, rfl⟩ := List.exists_cons_of_ne_nil hne
      obtain ⟨after, hafter⟩ := exists_joinLines_cons lines
      rw [hafter]
      exact trimStart_cons_of_not_blank (isBlank_eq_false_of_trim htrim)
  rw [trim, hstart, hend]

/-- After a trimmed text that is not empty no line starts. -/
theorem not_startsLine_of_trim {cs : List Char} (h : trim cs = cs) (hne : cs ≠ []) :
    ¬StartsLine cs := by
  intro hstart
  rcases hstart.eq_nil_or with rfl | ⟨lines, rfl⟩
  · exact hne rfl
  · have hend : trimEnd (lines ++ ['\n']) = trimEnd lines :=
      trimEnd_append_blanks lines fun c hc ↦ by rw [List.mem_singleton.mp hc]; rfl
    have hshort : (lines ++ ['\n']).length ≤ lines.length := by
      calc (lines ++ ['\n']).length = (trimEnd (trim (lines ++ ['\n']))).length := by
            rw [trimEnd_trim, h]
        _ = (trimEnd lines).length := by rw [h, hend]
        _ ≤ lines.length := (trimEnd_prefix_self lines).length_le
    rw [List.length_append, List.length_singleton] at hshort
    exact absurd hshort (Nat.not_succ_le_self lines.length)

end RefCheck.Text
