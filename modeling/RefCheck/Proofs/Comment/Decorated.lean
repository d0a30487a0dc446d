import RefCheck.Proofs.Comment.Sections
import RefCheck.Proofs.Text.Lines

/-!
# Decoration makes no difference

`parse_wrap`: a comment reads the same with its decoration as without it. With the decoration there are one
more line before the others and one after them, and these hold blanks only once the decoration is off.
Without it the text is trimmed before it is split into lines, so the first and the last lines may be missing or
shorter.

Both differences are blanks at the ends of the lines. At the start they stand before the text of the summary,
which is trimmed (`ofLines_cons_blanks`, `ofLines_trimStart`). At the end they stand after the text of whichever
section is open there, which is trimmed too. Since that section is only known once all lines are read,
`ofLines_append_congr` carries the difference over the lines before.
-/

namespace RefCheck.Comment

open RefCheck.Text

/-! ## The comment of some lines -/

/-- The comment that lines without decoration make up. -/
def ofLines (lines : List (List Char)) : Comment :=
  ⟨partsOf (sectionText (sections false lines).1), (sections false lines).2.map toBlockTag⟩

theorem ofChars_eq_ofLines (cs : List Char) : ofChars cs = ofLines (contentLines cs) := rfl

/-- A line of blanks joins the section that is open. -/
theorem sections_cons_blanks {line : List Char} (h : ∀ c ∈ line, isBlank c = true) (fenced : Bool)
    (lines : List (List Char)) : sections fenced (line :: lines)
      = (line :: (sections fenced lines).1, (sections fenced lines).2) := by
  have htrim : trim line = [] := by
    rw [← List.append_nil line, trim_blanks_left h, trim_nil]
  have hopens : opensFence line = false := by
    rw [opensFence, htrim]
    rfl
  have htag : (if fenced then none else openingTag? (trim line)) = none := by
    rw [htrim]
    exact ite_self none
  rw [sections_cons_of_eq_none htag, hopens, Bool.bne_false]

/-! ### Blanks at the start -/

theorem sectionText_cons_blanks {line : List Char} (h : ∀ c ∈ line, isBlank c = true)
    (lines : List (List Char)) : sectionText (line :: lines) = sectionText lines := by
  cases lines with
  | nil =>
    rw [sectionText, joinLines_singleton, ← List.append_nil line, trim_blanks_left h]
    rfl
  | cons next lines =>
    have hfeed : ∀ c ∈ line ++ ['\n'], isBlank c = true :=
      List.forall_mem_append.mpr ⟨h, List.forall_mem_singleton.mpr rfl⟩
    rw [sectionText, joinLines_cons_cons, List.append_cons, trim_blanks_left hfeed, sectionText]

/-- A line of blanks before the others changes nothing. -/
theorem ofLines_cons_blanks {line : List Char} (h : ∀ c ∈ line, isBlank c = true)
    (lines : List (List Char)) : ofLines (line :: lines) = ofLines lines := by
  rw [ofLines, sections_cons_blanks h, sectionText_cons_blanks h, ofLines]

/-- Blanks at the start of the first line change nothing. -/
theorem ofLines_trimStart (line : List Char) (lines : List (List Char)) :
    ofLines (trimStart line :: lines) = ofLines (line :: lines) := by
  have htrim : trim (trimStart line) = trim line := by
    rw [trim, trimStart_trimStart, trim]
  have hopens : opensFence (trimStart line) = opensFence line := by
    rw [opensFence, htrim, opensFence]
  cases htag : if false then none else openingTag? (trim line) with
  | some tag =>
    have hstart : (if false then none else openingTag? (trim (trimStart line))) = some tag := by
      rwa [htrim]
    rw [ofLines, sections_cons_of_eq_some hstart, ofLines, sections_cons_of_eq_some htag, hopens]
  | none =>
    have hstart : (if false then none else openingTag? (trim (trimStart line))) = none := by
      rwa [htrim]
    have htext : ∀ body, sectionText (trimStart line :: body) = sectionText (line :: body) := by
      intro body
      obtain ⟨after, hafter⟩ := exists_joinLines_cons body
      rw [sectionText, hafter, trim_trimStart_append, sectionText, hafter]
    rw [ofLines, sections_cons_of_eq_none hstart, htext, ofLines, sections_cons_of_eq_none htag, hopens]

/-! ### Blanks at the end -/

/-- Lines that give a section the same text after any other lines. -/
def SameEnd (a b : List (List Char)) : Prop :=
  ∀ before, sectionText (before ++ a) = sectionText (before ++ b)

/-- Sections of the same block tags, where the section that is open at the start ends in the same way. -/
def SameSections (a b : List (List Char) × List (List Char × List (List Char))) : Prop :=
  SameEnd a.1 b.1 ∧ a.2.map toBlockTag = b.2.map toBlockTag

/-- One more line in front keeps the sections the same. -/
theorem SameSections.cons {a b : List (List Char)}
    (h : ∀ fenced, SameSections (sections fenced a) (sections fenced b)) (line : List Char)
    (fenced : Bool) : SameSections (sections fenced (line :: a)) (sections fenced (line :: b)) := by
  obtain ⟨hend, htags⟩ := h (fenced != opensFence line)
  cases htag : if fenced then none else openingTag? (trim line) with
  | some tag =>
    obtain ⟨name, rest⟩ := tag
    rw [sections_cons_of_eq_some htag, sections_cons_of_eq_some htag]
    refine ⟨fun before ↦ rfl, ?_⟩
    rw [List.map_cons, List.map_cons, htags, toBlockTag, toBlockTag]
    have hrest := hend [rest]
    rw [List.singleton_append, List.singleton_append] at hrest
    rw [hrest]
  | none =>
    rw [sections_cons_of_eq_none htag, sections_cons_of_eq_none htag]
    refine ⟨fun before ↦ ?_, htags⟩
    rw [List.append_cons, hend, ← List.append_cons]

/-- Lines whose sections are the same may stand for each other after any lines. -/
theorem ofLines_append_congr {a b : List (List Char)}
    (h : ∀ fenced, SameSections (sections fenced a) (sections fenced b)) (lines : List (List Char)) :
    ofLines (lines ++ a) = ofLines (lines ++ b) := by
  have hall : ∀ fenced, SameSections (sections fenced (lines ++ a)) (sections fenced (lines ++ b)) := by
    induction lines with
    | nil => exact h
    | cons line lines ih => exact SameSections.cons ih line
  obtain ⟨hend, htags⟩ := hall false
  have htext := hend []
  rw [List.nil_append, List.nil_append] at htext
  rw [ofLines, htext, htags, ofLines]

/-- A line of blanks after the others changes nothing. -/
theorem ofLines_concat_blanks {line : List Char} (h : ∀ c ∈ line, isBlank c = true)
    (lines : List (List Char)) : ofLines (lines ++ [line]) = ofLines lines := by
  have hend : SameEnd [line] [] := by
    intro before
    by_cases hnil : before = []
    · rw [hnil]
      exact sectionText_cons_blanks h []
    · have hfeed : ∀ c ∈ '\n' :: line, isBlank c = true := List.forall_mem_cons.mpr ⟨rfl, h⟩
      rw [sectionText, joinLines_append hnil (List.cons_ne_nil line []), joinLines_singleton,
        trim_blanks_right _ hfeed, List.append_nil, sectionText]
  have hsame := ofLines_append_congr (a := [line]) (b := []) (fun fenced ↦ ?_) lines
  · rwa [List.append_nil] at hsame
  · rw [sections_cons_blanks h]
    exact ⟨hend, rfl⟩

/-- Blanks at the end of the last line change nothing. -/
theorem ofLines_trimEnd (lines : List (List Char)) (line : List Char) :
    ofLines (lines ++ [trimEnd line]) = ofLines (lines ++ [line]) := by
  have htrim : trim (trimEnd line) = trim line := trim_append_trimEnd [] line
  refine ofLines_append_congr (fun fenced ↦ ?_) lines
  cases htag : if fenced then none else openingTag? (trim line) with
  | some tag =>
    have hend : (if fenced then none else openingTag? (trim (trimEnd line))) = some tag := by
      rwa [htrim]
    rw [sections_cons_of_eq_some hend, sections_cons_of_eq_some htag]
    exact ⟨fun before ↦ rfl, rfl⟩
  | none =>
    have hend : (if fenced then none else openingTag? (trim (trimEnd line))) = none := by
      rwa [htrim]
    rw [sections_cons_of_eq_none hend, sections_cons_of_eq_none htag]
    refine ⟨fun before ↦ ?_, rfl⟩
    obtain ⟨text, htext⟩ := exists_joinLines_concat before
    show sectionText (before ++ [trimEnd line]) = sectionText (before ++ [line])
    rw [sectionText, htext, trim_append_trimEnd, sectionText, htext]

/-! ## Taking off the decoration -/

theorem onFirst_eq_self {f : List Char → List Char} {lines : List (List Char)}
    (h : ∀ line ∈ lines, f line = line) : onFirst f lines = lines := by
  cases lines with
  | nil => rfl
  | cons line lines => rw [onFirst, h line List.mem_cons_self]

theorem onLast_concat (f : List Char → List Char) (lines : List (List Char)) (line : List Char) :
    onLast f (lines ++ [line]) = lines ++ [f line] := by
  induction lines with
  | nil => rfl
  | cons first lines ih =>
    cases lines with
    | nil => rfl
    | cons next lines =>
      rw [List.cons_append, onLast, ih]
      · rfl
      · exact List.cons_ne_nil next (lines ++ [line])

theorem onLast_eq_self {f : List Char → List Char} {lines : List (List Char)}
    (h : ∀ line ∈ lines, f line = line) : onLast f lines = lines := by
  rcases List.eq_nil_or_concat lines with rfl | ⟨before, line, rfl⟩
  · rfl
  · rw [List.concat_eq_append] at h ⊢
    rw [onLast_concat, h line List.mem_concat_self]

/-- Between the line that opens a comment and the one that closes it, only the margins come off. -/
theorem contentLines_framed {inner : List (List Char)} {closing : List Char}
    (hinner : ∀ line ∈ inner, ∀ c ∈ line, isLineBreak c = false)
    (hbreak : ∀ c ∈ closing, isLineBreak c = false) (hblank : ∀ c ∈ closing, isBlank c = true) :
    contentLines (joinLines ("/**".toList :: inner ++ [closing ++ "*/".toList]))
      = [] :: (inner.map dropMargin ++ [closing]) := by
  -- the text starts and ends with a slash, so there is nothing to trim
  have htrim : trim (joinLines ("/**".toList :: inner ++ [closing ++ "*/".toList]))
      = joinLines ("/**".toList :: inner ++ [closing ++ "*/".toList]) := by
    obtain ⟨after, hafter⟩ := exists_joinLines_cons (inner ++ [closing ++ "*/".toList])
    obtain ⟨before, hbefore⟩ := exists_joinLines_concat ("/**".toList :: inner)
    have hslash : trimEnd "*/".toList = "*/".toList := rfl
    have hend := trimEnd_append (before ++ closing) (x := "*/".toList) (List.cons_ne_nil '*' ['/'])
    have hstart : trimStart ("/**".toList ++ after) = "/**".toList ++ after :=
      trimStart_cons_of_not_blank rfl
    rw [hslash, List.append_assoc, ← hbefore] at hend
    rw [trim, List.cons_append, hafter, hstart, ← hafter, ← List.cons_append, hend]
  have hsplit : splitLines (joinLines ("/**".toList :: inner ++ [closing ++ "*/".toList]))
      = "/**".toList :: inner ++ [closing ++ "*/".toList] := by
    refine splitLines_joinLines (fun line hline ↦ ?_) ?_
    · rcases List.mem_append.mp hline with hline | hline
      · rcases List.mem_cons.mp hline with rfl | hline
        · simp [isLineBreak]
        · exact hinner line hline
      · rw [List.mem_singleton.mp hline]
        exact List.forall_mem_append.mpr ⟨hbreak, by simp [isLineBreak]⟩
    · rw [List.getLast?_concat]
      exact fun hnil ↦ absurd (List.append_eq_nil_iff.mp (Option.some.inj hnil)).2 (List.cons_ne_nil _ _)
  have hclosing : dropClosing (closing ++ "*/".toList) = closing := by
    have hslash : trimEnd "*/".toList = "*/".toList := rfl
    have hend := trimEnd_append closing (x := "*/".toList) (List.cons_ne_nil '*' ['/'])
    rw [dropClosing, hend, hslash, List.reverse_append]
    exact List.reverse_reverse closing
  have hmargin : dropMargin closing = closing := by
    have hnil : trimStart closing = [] := by
      rw [trimStart, List.dropWhile_eq_nil_iff]
      exact hblank
    rw [dropMargin, hnil]
  rw [contentLines, htrim, hsplit, List.cons_append, onFirst, ← List.cons_append, onLast_concat,
    hclosing, List.map_append, List.map_cons, List.map_singleton, hmargin]
  rfl

/-- A line that does not start with an asterisk has no margin. -/
theorem dropMargin_eq_self {line : List Char} (h : ¬['*'] <+: trimStart line) :
    dropMargin line = line := by
  unfold dropMargin
  split
  · next rest hstart => exact absurd ⟨' ' :: rest, hstart.symm⟩ h
  · next rest _ hstart => exact absurd ⟨rest, hstart.symm⟩ h
  · rfl

/-- A line that does not start like a comment is kept. -/
theorem dropOpening_eq_self {line : List Char} (h : ¬['/', '*'] <+: trimStart line) :
    dropOpening line = line := by
  unfold dropOpening
  split
  · next rest hstart => exact absurd ⟨'*' :: rest, hstart.symm⟩ h
  · next rest _ hstart => exact absurd ⟨rest, hstart.symm⟩ h
  · rfl

/-- A line that does not end like a comment is kept. -/
theorem dropClosing_eq_self {line : List Char} (h : ¬['*', '/'] <:+ trimEnd line) :
    dropClosing line = line := by
  unfold dropClosing
  split
  · next rest hend =>
    refine absurd ⟨rest.reverse, ?_⟩ h
    rw [← List.reverse_reverse (trimEnd line), hend, List.reverse_cons, List.reverse_cons,
      List.append_assoc]
    rfl
  · rfl

/-! ## Lines without decoration -/

/-- A line from which no decoration would be taken. -/
structure IsBare (line : List Char) : Prop where
  /-- It is one line. -/
  one_line : ∀ c ∈ line, isLineBreak c = false
  /-- It does not start with an asterisk. -/
  no_margin : ¬['*'] <+: trimStart line
  /-- It does not start like a comment. -/
  no_opening : ¬['/', '*'] <+: trimStart line
  /-- It does not end like a comment. -/
  no_closing : ¬['*', '/'] <:+ trimEnd line

theorem isBare_iff {line : List Char} : IsBare line ↔ (∀ c ∈ line, isLineBreak c = false) ∧
    ¬['*'] <+: trimStart line ∧ ¬['/', '*'] <+: trimStart line ∧ ¬['*', '/'] <:+ trimEnd line :=
  ⟨fun h ↦ ⟨h.1, h.2, h.3, h.4⟩, fun h ↦ ⟨h.1, h.2.1, h.2.2.1, h.2.2.2⟩⟩

instance decidableIsBare (line : List Char) : Decidable (IsBare line) :=
  have : Decidable (∀ c ∈ line, isLineBreak c = false) := List.decidableBAll _ line
  decidable_of_iff _ isBare_iff.symm

/-- What is left of a bare line when blanks are taken off its start. -/
theorem IsBare.trimStart {line : List Char} (h : IsBare line) : IsBare (trimStart line) := by
  have hsuffix : Text.trimStart line <:+ line := List.dropWhile_suffix isBlank
  refine ⟨fun c hc ↦ h.one_line c (hsuffix.subset hc), ?_, ?_, fun hclosing ↦ h.no_closing ?_⟩
  · rw [trimStart_trimStart]
    exact h.no_margin
  · rw [trimStart_trimStart]
    exact h.no_opening
  · obtain ⟨before, hbefore⟩ := hsuffix
    have hne : trimEnd (Text.trimStart line) ≠ [] := fun hnil ↦ by
      rw [hnil] at hclosing
      exact absurd (List.suffix_nil.mp hclosing) (List.cons_ne_nil '*' ['/'])
    have hend := trimEnd_append before hne
    rw [hbefore] at hend
    rw [hend]
    exact hclosing.trans (List.suffix_append before _)

/-- What is left of a bare line when blanks are taken off its end. -/
theorem IsBare.trimEnd {line : List Char} (h : IsBare line) : IsBare (trimEnd line) := by
  have hprefix : Text.trimStart (Text.trimEnd line) <+: Text.trimStart line := by
    obtain ⟨blanks, -, hline⟩ := exists_blanks_trimEnd line
    have hstart : Text.trimStart line = if (Text.trimStart (Text.trimEnd line)).isEmpty then
        Text.trimStart blanks else Text.trimStart (Text.trimEnd line) ++ blanks := by
      have happend : Text.trimStart (Text.trimEnd line ++ blanks) = _ := List.dropWhile_append
      rwa [← hline] at happend
    rw [hstart]
    split
    · next hempty =>
      rw [List.isEmpty_iff.mp hempty]
      exact List.nil_prefix
    · exact List.prefix_append _ blanks
  refine ⟨fun c hc ↦ h.one_line c ((trimEnd_prefix_self line).subset hc), ?_, ?_, ?_⟩
  · exact fun hmargin ↦ h.no_margin (hmargin.trans hprefix)
  · exact fun hopening ↦ h.no_opening (hopening.trans hprefix)
  · rw [trimEnd_trimEnd]
    exact h.no_closing

theorem contentLines_joinLines_of_trim {cs : List Char} {lines : List (List Char)}
    (h : ∀ line ∈ lines, IsBare line) (hlast : lines.getLast? ≠ some []) (hcs : trim cs = joinLines lines) :
    contentLines cs = lines := by
  have hsplit := splitLines_joinLines (fun line hline ↦ (h line hline).one_line) hlast
  have hmargin : lines.map dropMargin = lines.map id :=
    List.map_congr_left fun line hline ↦ dropMargin_eq_self (h line hline).no_margin
  rw [contentLines, hcs, hsplit, onFirst_eq_self fun line hline ↦ dropOpening_eq_self (h line hline).no_opening,
    onLast_eq_self fun line hline ↦ dropClosing_eq_self (h line hline).no_closing, hmargin, List.map_id]

/-- The lines that are left when the blanks before them are trimmed. -/
theorem exists_lines_trimStart {lines : List (List Char)} (h : ∀ line ∈ lines, IsBare line) :
    ∃ kept, trimStart (joinLines lines) = joinLines kept ∧ (∀ line ∈ kept, IsBare line) ∧
      ofLines kept = ofLines lines := by
  induction lines with
  | nil => exact ⟨[], rfl, h, rfl⟩
  | cons line lines ih =>
    obtain ⟨hline, hlines⟩ := List.forall_mem_cons.mp h
    by_cases hblank : ∀ c ∈ line, isBlank c = true
    · obtain ⟨kept, hkept, hbare, hsame⟩ := ih hlines
      refine ⟨kept, ?_, hbare, hsame.trans (ofLines_cons_blanks hblank lines).symm⟩
      rw [← hkept]
      cases lines with
      | nil => exact List.dropWhile_eq_nil_iff.mpr hblank
      | cons next lines =>
        have hfeed : ∀ c ∈ line ++ ['\n'], isBlank c = true :=
          List.forall_mem_append.mpr ⟨hblank, List.forall_mem_singleton.mpr rfl⟩
        rw [joinLines_cons_cons, List.append_cons]
        exact List.dropWhile_append_of_pos hfeed
    · refine ⟨Text.trimStart line :: lines, ?_, List.forall_mem_cons.mpr ⟨hline.trimStart, hlines⟩,
        ofLines_trimStart line lines⟩
      obtain ⟨after, hafter⟩ := exists_joinLines_cons lines
      have hne : ¬(line.dropWhile isBlank).isEmpty = true := by
        rwa [List.isEmpty_iff, List.dropWhile_eq_nil_iff]
      rw [hafter, hafter, Text.trimStart, List.dropWhile_append, if_neg hne, Text.trimStart]

/-- The lines that are left when the blanks after them are trimmed. -/
theorem exists_lines_trimEnd {lines : List (List Char)} (h : ∀ line ∈ lines, IsBare line) :
    ∃ kept, trimEnd (joinLines lines) = joinLines kept ∧ (∀ line ∈ kept, IsBare line) ∧
      kept.getLast? ≠ some [] ∧ ofLines kept = ofLines lines := by
  induction lines using List.reverseRecOn with
  | nil => exact ⟨[], rfl, h, (Option.some_ne_none []).symm, rfl⟩
  | append_singleton lines line ih =>
    obtain ⟨hlines, hline⟩ := List.forall_mem_append.mp h
    have hline := hline line (List.mem_singleton_self line)
    by_cases hnil : trimEnd line = []
    · have hblank := trimEnd_eq_nil_iff.mp hnil
      obtain ⟨kept, hkept, hbare, hlast, hsame⟩ := ih hlines
      refine ⟨kept, ?_, hbare, hlast, hsame.trans (ofLines_concat_blanks hblank lines).symm⟩
      rw [← hkept]
      by_cases hempty : lines = []
      · rw [hempty]
        exact hnil
      · have hfeed : ∀ c ∈ '\n' :: line, isBlank c = true := List.forall_mem_cons.mpr ⟨rfl, hblank⟩
        rw [joinLines_append hempty (List.cons_ne_nil line []), joinLines_singleton,
          trimEnd_append_blanks _ hfeed]
    · refine ⟨lines ++ [Text.trimEnd line], ?_, ?_, ?_, ofLines_trimEnd lines line⟩
      · obtain ⟨before, hbefore⟩ := exists_joinLines_concat lines
        rw [hbefore, hbefore, trimEnd_append before hnil]
      · exact List.forall_mem_append.mpr ⟨hlines, List.forall_mem_singleton.mpr hline.trimEnd⟩
      · rw [List.getLast?_concat]
        exact fun hlast ↦ hnil (Option.some.inj hlast)

/-- **Bare lines are read as they stand**, although the text that they make up is trimmed first. -/
theorem ofChars_joinLines {lines : List (List Char)} (h : ∀ line ∈ lines, IsBare line) :
    ofChars (joinLines lines) = ofLines lines := by
  obtain ⟨started, hstart, hstarted, hsame⟩ := exists_lines_trimStart h
  obtain ⟨kept, hend, hkept, hlast, hsame'⟩ := exists_lines_trimEnd hstarted
  have htrim : trim (joinLines lines) = joinLines kept := by rw [trim, hstart, hend]
  rw [ofChars_eq_ofLines, contentLines_joinLines_of_trim hkept hlast htrim, hsame', hsame]

/-! ## Lines with decoration -/

/-- Spaces and tabs. -/
def IsIndent (cs : List Char) : Prop := ∀ c ∈ cs, c = ' ' ∨ c = '\t'

/-- A line of a decorated comment: its indentation, an asterisk, and after a space the line, unless that is
empty. -/
def rowChars (row : List Char × List Char) : List Char :=
  row.1 ++ '*' :: if row.2 = [] then [] else ' ' :: row.2

/-- Lines with their decoration, each with the indentation that stands before it. -/
def wrap (rows : List (List Char × List Char)) (closing : List Char) : List (List Char) :=
  "/**".toList :: rows.map rowChars ++ [closing ++ "*/".toList]

theorem IsIndent.isBlank {cs : List Char} (h : IsIndent cs) : ∀ c ∈ cs, isBlank c = true := by
  intro c hc
  rcases h c hc with rfl | rfl <;> rfl

theorem IsIndent.isLineBreak {cs : List Char} (h : IsIndent cs) : ∀ c ∈ cs, isLineBreak c = false := by
  intro c hc
  rcases h c hc with rfl | rfl <;> rfl

theorem isLineBreak_rowChars {row : List Char × List Char} (hindent : IsIndent row.1)
    (hline : ∀ c ∈ row.2, isLineBreak c = false) : ∀ c ∈ rowChars row, isLineBreak c = false := by
  refine List.forall_mem_append.mpr ⟨hindent.isLineBreak, List.forall_mem_cons.mpr ⟨rfl, ?_⟩⟩
  split
  · exact fun c hc ↦ absurd hc List.not_mem_nil
  · exact List.forall_mem_cons.mpr ⟨rfl, hline⟩

theorem dropMargin_rowChars {row : List Char × List Char} (hindent : IsIndent row.1) :
    dropMargin (rowChars row) = row.2 := by
  have hstart : ∀ rest, trimStart (row.1 ++ '*' :: rest) = '*' :: rest := by
    intro rest
    rw [trimStart, List.dropWhile_append_of_pos hindent.isBlank]
    rfl
  rw [dropMargin, rowChars, hstart]
  cases row.2 with
  | nil => rfl
  | cons c line =>
    rw [if_neg (List.cons_ne_nil c line)]
    rfl

/-- **Decoration makes no difference.** Bare lines are the same comment as the lines with their decoration,
for any indentation of each line and of the last one. -/
theorem parse_wrap {rows : List (List Char × List Char)} {closing : List Char}
    (hindent : ∀ row ∈ rows, IsIndent row.1) (hbare : ∀ row ∈ rows, IsBare row.2)
    (hclosing : IsIndent closing) :
    parse (String.ofList (joinLines (rows.map Prod.snd)))
      = parse (String.ofList (joinLines (wrap rows closing))) := by
  have hlines : ∀ line ∈ rows.map Prod.snd, IsBare line := List.forall_mem_map.mpr hbare
  have hrows : ∀ line ∈ rows.map rowChars, ∀ c ∈ line, isLineBreak c = false :=
    List.forall_mem_map.mpr fun row hrow ↦
      isLineBreak_rowChars (hindent row hrow) (hbare row hrow).one_line
  have hmargins : (rows.map rowChars).map dropMargin = rows.map Prod.snd := by
    rw [List.map_map]
    exact List.map_congr_left fun row hrow ↦ dropMargin_rowChars (hindent row hrow)
  have hcontent := contentLines_framed hrows hclosing.isLineBreak hclosing.isBlank
  rw [hmargins] at hcontent
  rw [parse, parse, String.toList_ofList, String.toList_ofList, ofChars_joinLines hlines]
  calc ofLines (rows.map Prod.snd)
      = ofLines (rows.map Prod.snd ++ [closing]) := (ofLines_concat_blanks hclosing.isBlank _).symm
    _ = ofLines ([] :: (rows.map Prod.snd ++ [closing])) :=
        (ofLines_cons_blanks (fun c hc ↦ absurd hc List.not_mem_nil) _).symm
    _ = ofChars (joinLines (wrap rows closing)) := by rw [ofChars_eq_ofLines, wrap, hcontent]

/-- A comment with an empty line, fenced code and a block tag, on lines that are not indented alike. -/
def unevenRows : List (List Char × List Char) :=
  [(" ".toList, "Adds.".toList), ("\t".toList, []), ("   ".toList, "```ts".toList),
    (" ".toList, "  @see nothing".toList), ([], "```".toList), (" \t".toList, "@see #size ".toList)]

theorem parse_wrap_unevenRows : parse (String.ofList (joinLines (unevenRows.map Prod.snd)))
      = parse (String.ofList (joinLines (wrap unevenRows " ".toList))) ∧
    (parse (String.ofList (joinLines (wrap unevenRows " ".toList)))).blockTags.length = 1 := by
  have hindent : ∀ row ∈ unevenRows, IsIndent row.1 := by
    simp [unevenRows, IsIndent]
  have hbare : ∀ row ∈ unevenRows, IsBare row.2 := by decide +kernel
  exact ⟨parse_wrap hindent hbare (by simp [IsIndent]), by decide +kernel⟩

end RefCheck.Comment
