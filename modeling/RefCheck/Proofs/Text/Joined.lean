import Mathlib.Data.List.DropRight
import RefCheck.Text.Blank
import RefCheck.Text.Split

/-!
# Texts that are put together

Laws of trimming and cutting for a text that is known by its parts. Trimming the end of `p ++ x` only
touches `x`, unless nothing of `x` is left; cutting at a character that the first part does not have cuts
behind that part, and a first word ends where a blank follows it. `segments_joinWith` is the law for paths:
segments that are joined come back, if each of them could have come out of a path at all, and by
`mem_segments` those that came out of one could.
-/

namespace RefCheck.Text

/-! ## Trimming -/

/-- That a text holds no blank can be decided by going through it. -/
theorem not_blank_of_all {cs : List Char} (h : (cs.all fun c ↦ !isBlank c) = true) {c : Char}
    (hc : c ∈ cs) : isBlank c = false := by
  simpa using List.all_eq_true.mp h c hc

theorem trimStart_cons_of_not_blank {c : Char} {cs : List Char} (hc : isBlank c = false) :
    trimStart (c :: cs) = c :: cs := by
  rw [trimStart, List.dropWhile_cons_of_neg (by simp [hc])]

theorem trimEnd_ne_nil {c : Char} {cs : List Char} (hmem : c ∈ cs) (hc : isBlank c = false) :
    trimEnd cs ≠ [] := by
  intro hnil
  have hblank := trimEnd_eq_nil_iff.mp hnil c hmem
  rw [hc] at hblank
  cases hblank

/-- Where something is left of the end of a text, the parts before it are left whole. -/
theorem trimEnd_append (p : List Char) {x : List Char} (hx : trimEnd x ≠ []) :
    trimEnd (p ++ x) = p ++ trimEnd x := by
  induction p with
  | nil => rfl
  | cons c p ih =>
    have hne : trimEnd (p ++ x) ≠ [] := by
      rw [ih]
      exact List.append_ne_nil_of_right_ne_nil p hx
    rw [List.cons_append, trimEnd_cons_of_ne_nil hne, ih, List.cons_append]

theorem trimEnd_of_forall_not_blank {cs : List Char} (h : ∀ c ∈ cs, isBlank c = false) :
    trimEnd cs = cs := by
  induction cs with
  | nil => rfl
  | cons c cs ih =>
    have htail := ih fun d hd ↦ h d (List.mem_cons_of_mem c hd)
    cases cs with
    | nil => rw [trimEnd_cons_of_eq_nil htail, h c List.mem_cons_self, if_neg Bool.false_ne_true]
    | cons d cs =>
      rw [trimEnd_cons_of_ne_nil (by rw [htail]; exact List.cons_ne_nil d cs), htail]

theorem trimEnd_trimEnd (cs : List Char) : trimEnd (trimEnd cs) = trimEnd cs := by
  induction cs with
  | nil => rfl
  | cons c cs ih =>
    by_cases hnil : trimEnd cs = []
    · rw [trimEnd_cons_of_eq_nil hnil]
      by_cases hc : isBlank c = true
      · rw [if_pos hc]
        rfl
      · rw [if_neg hc]
        exact trimEnd_of_forall_not_blank (by simpa using hc)
    · rw [trimEnd_cons_of_ne_nil hnil, trimEnd_cons_of_ne_nil (by rwa [ih]), ih]

/-- What is trimmed from the end are blanks. -/
theorem exists_blanks_trimEnd (cs : List Char) :
    ∃ blanks, (∀ c ∈ blanks, isBlank c = true) ∧ cs = trimEnd cs ++ blanks := by
  induction cs with
  | nil => exact ⟨[], fun c hc ↦ absurd hc List.not_mem_nil, rfl⟩
  | cons c cs ih =>
    by_cases hnil : trimEnd (c :: cs) = []
    · exact ⟨c :: cs, trimEnd_eq_nil_iff.mp hnil, by rw [hnil, List.nil_append]⟩
    · obtain ⟨blanks, hblanks, hcs⟩ := ih
      refine ⟨blanks, hblanks, ?_⟩
      by_cases htail : trimEnd cs = []
      · rw [htail, List.nil_append] at hcs
        rw [trimEnd_cons_of_eq_nil htail] at hnil ⊢
        split at hnil
        · exact absurd rfl hnil
        · next hc => rw [if_neg hc, hcs, List.singleton_append]
      · rw [trimEnd_cons_of_ne_nil htail, List.cons_append, ← hcs]

theorem trimEnd_prefix_self (cs : List Char) : trimEnd cs <+: cs :=
  let ⟨blanks, _, hcs⟩ := exists_blanks_trimEnd cs
  ⟨blanks, hcs.symm⟩

/-- What holds no blank is not trimmed from the end. -/
theorem prefix_trimEnd_append {cs : List Char} (h : ∀ c ∈ cs, isBlank c = false) (x : List Char) :
    cs <+: trimEnd (cs ++ x) := by
  induction cs with
  | nil => exact List.nil_prefix
  | cons c cs ih =>
    have htail := ih fun d hd ↦ h d (List.mem_cons_of_mem c hd)
    rw [List.cons_append]
    by_cases hnil : trimEnd (cs ++ x) = []
    · rw [hnil, List.prefix_nil] at htail
      subst htail
      refine ⟨[], ?_⟩
      rw [List.append_nil, trimEnd_cons_of_eq_nil hnil, h c List.mem_cons_self,
        if_neg Bool.false_ne_true]
    · rw [trimEnd_cons_of_ne_nil hnil]
      exact (List.prefix_cons_inj c).mpr htail

/-- Nothing is left to trim at the end of what was trimmed. -/
theorem trimEnd_trim (cs : List Char) : trimEnd (trim cs) = trim cs := trimEnd_trimEnd _

/-- Of a text that starts with a character that is no blank, only the end is trimmed. -/
theorem trim_append {c : Char} (hc : isBlank c = false) (p : List Char) {x : List Char}
    (hx : trimEnd x ≠ []) : trim (c :: p ++ x) = c :: p ++ trimEnd x := by
  rw [trim, List.cons_append, trimStart_cons_of_not_blank hc, ← List.cons_append,
    trimEnd_append _ hx]

theorem trimEnd_append_blanks (cs : List Char) {blanks : List Char}
    (h : ∀ c ∈ blanks, isBlank c = true) : trimEnd (cs ++ blanks) = trimEnd cs := by
  induction cs with
  | nil => exact trimEnd_eq_nil_iff.mpr h
  | cons c cs ih =>
    by_cases hnil : trimEnd cs = []
    · rw [List.cons_append, trimEnd_cons_of_eq_nil (by rw [ih, hnil]), trimEnd_cons_of_eq_nil hnil]
    · rw [List.cons_append, trimEnd_cons_of_ne_nil (by rwa [ih]), ih, trimEnd_cons_of_ne_nil hnil]

/-- A trimmed text does not start with a blank. -/
theorem isBlank_eq_false_of_trim {c : Char} {cs : List Char} (h : trim (c :: cs) = c :: cs) :
    isBlank c = false := by
  cases hc : isBlank c with
  | false => rfl
  | true =>
    have hstart : trimStart (c :: cs) = trimStart cs := List.dropWhile_cons_of_pos hc
    have hshort : (trim (c :: cs)).length ≤ cs.length := by
      rw [trim, hstart]
      exact Nat.le_trans (trimEnd_prefix_self _).length_le (List.dropWhile_suffix isBlank).length_le
    rw [h] at hshort
    exact absurd hshort (Nat.not_succ_le_self cs.length)

theorem trim_of_forall_not_blank {cs : List Char} (h : ∀ c ∈ cs, isBlank c = false) :
    trim cs = cs := by
  cases cs with
  | nil => rfl
  | cons c cs =>
    rw [trim, trimStart_cons_of_not_blank (h c List.mem_cons_self), trimEnd_of_forall_not_blank h]

theorem trimString_of_forall_not_blank {s : String} (h : ∀ c ∈ s.toList, isBlank c = false) :
    trimString s = s := by
  rw [trimString, trim_of_forall_not_blank h, String.ofList_toList]

theorem trimStart_trimStart (cs : List Char) : trimStart (trimStart cs) = trimStart cs :=
  List.dropWhile_idempotent isBlank cs

theorem trim_trim (cs : List Char) : trim (trim cs) = trim cs := by
  cases htrim : trim cs with
  | nil => rfl
  | cons c rest =>
    obtain ⟨blanks, hstart⟩ := trimEnd_prefix_self (trimStart cs)
    have hhead : (trimStart cs).head? = some c := by
      rw [← hstart, ← trim, htrim]
      rfl
    have hc : isBlank c = false := by
      have hnot := List.head?_dropWhile_not isBlank cs
      rw [← trimStart, hhead] at hnot
      simpa using hnot
    rw [trim, trimStart_cons_of_not_blank hc, ← htrim, trimEnd_trim]

/-- What a text ends with has no blanks at its end if the text has none there. -/
theorem trimEnd_of_suffix {cs s : List Char} (h : trimEnd cs = cs) (hs : s <:+ cs) :
    trimEnd s = s := by
  obtain ⟨p, rfl⟩ := hs
  by_cases hnil : trimEnd s = []
  · rw [trimEnd_append_blanks p (trimEnd_eq_nil_iff.mp hnil)] at h
    have hshort := (trimEnd_prefix_self p).length_le
    rw [h, List.length_append] at hshort
    have hs : s = [] := List.length_eq_zero_iff.mp (by omega)
    rw [hs, trimEnd_nil]
  · rw [trimEnd_append p hnil] at h
    exact List.append_cancel_left h

/-- Blanks before a text are trimmed. -/
theorem trim_blanks_left {blanks : List Char} (h : ∀ c ∈ blanks, isBlank c = true) (cs : List Char) :
    trim (blanks ++ cs) = trim cs :=
  congrArg trimEnd (List.dropWhile_append_of_pos h)

/-- Blanks after a text are trimmed. -/
theorem trim_blanks_right (cs : List Char) {blanks : List Char} (h : ∀ c ∈ blanks, isBlank c = true) :
    trim (cs ++ blanks) = trim cs := by
  rw [trim, trim, trimStart, List.dropWhile_append, ← trimStart]
  split
  · next hempty =>
    have hnil : trimStart cs = [] := List.isEmpty_iff.mp hempty
    rw [hnil, trimEnd_nil, trimEnd_eq_nil_iff]
    exact fun c hc ↦ h c ((List.dropWhile_suffix isBlank).subset hc)
  · exact trimEnd_append_blanks (trimStart cs) h

/-- What is trimmed from the start of a text need not stand there. -/
theorem trim_trimStart_append (cs x : List Char) : trim (trimStart cs ++ x) = trim (cs ++ x) := by
  have hblanks : ∀ c ∈ cs.takeWhile isBlank, isBlank c = true := List.all_eq_true.mp List.all_takeWhile
  have hcs : cs.takeWhile isBlank ++ trimStart cs = cs := List.takeWhile_append_dropWhile
  rw [← trim_blanks_left hblanks, ← List.append_assoc, hcs]

/-- What is trimmed from the end of a text need not stand there. -/
theorem trim_append_trimEnd (x cs : List Char) : trim (x ++ trimEnd cs) = trim (x ++ cs) := by
  obtain ⟨blanks, hblanks, hcs⟩ := exists_blanks_trimEnd cs
  rw [← trim_blanks_right (x ++ trimEnd cs) hblanks, List.append_assoc, ← hcs]

/-- A trimmed text comes back when it is trimmed out of blanks. -/
theorem trim_blanks_append {cs before after : List Char} (h : trim cs = cs)
    (hbefore : ∀ c ∈ before, isBlank c = true) (hafter : ∀ c ∈ after, isBlank c = true) :
    trim (before ++ (cs ++ after)) = cs := by
  rw [trim_blanks_left hbefore, trim_blanks_right cs hafter, h]

/-- Something before a trimmed text keeps it trimmed, unless it starts with a blank. -/
theorem trim_append_of_trim {lead cs : List Char} (hlead : ∀ c ∈ lead.head?, isBlank c = false)
    (h : trim cs = cs) (hne : cs ≠ []) : trim (lead ++ cs) = lead ++ cs := by
  have hend : trimEnd cs = cs := by rw [← h, trimEnd_trim]
  cases lead with
  | nil => exact h
  | cons c lead => rw [trim_append (hlead c rfl) lead (by rwa [hend]), hend]

/-! ## First words -/

theorem firstWord_ne_nil {cs : List Char} (h : ∃ c ∈ cs, isBlank c = false) : firstWord cs ≠ [] := by
  induction cs with
  | nil =>
    obtain ⟨c, hc, -⟩ := h
    cases hc
  | cons a cs ih =>
    rw [firstWord, trimStart]
    cases ha : isBlank a with
    | true =>
      rw [List.dropWhile_cons_of_pos ha]
      obtain ⟨c, hc, hblank⟩ := h
      rcases List.mem_cons.mp hc with rfl | hc
      · rw [ha] at hblank
        cases hblank
      · exact ih ⟨c, hc, hblank⟩
    | false =>
      rw [List.dropWhile_cons_of_neg (Bool.eq_false_iff.mp ha), List.takeWhile_cons_of_pos (by rw [ha]; rfl)]
      exact List.cons_ne_nil _ _

/-- A word ends where a blank follows it. -/
theorem firstWord_append {word rest : List Char} (hne : word ≠ []) (hword : ∀ c ∈ word, isBlank c = false)
    (hrest : ∀ c ∈ rest.head?, isBlank c = true) : firstWord (word ++ rest) = word := by
  have hstop : rest.takeWhile (!isBlank ·) = [] := by
    cases rest with
    | nil => rfl
    | cons c rest => exact List.takeWhile_cons_of_neg (by rw [hrest c rfl]; exact Bool.false_ne_true)
  have hstart : trimStart (word ++ rest) = word ++ rest := by
    obtain ⟨c, cs, rfl⟩ := List.exists_cons_of_ne_nil hne
    exact trimStart_cons_of_not_blank (hword c List.mem_cons_self)
  rw [firstWord, hstart, List.takeWhile_append_of_pos, hstop, List.append_nil]
  intro c hc
  rw [hword c hc]
  rfl

/-! ## Segments -/

theorem startsWith_eq_true_iff {lead cs : List Char} : startsWith lead cs = true ↔ lead <+: cs := by
  rw [startsWith, Option.isSome_iff_exists]
  exact exists_congr fun rest ↦ dropLead?_eq_some_iff.trans eq_comm

theorem pieces_of_not_mem {sep : Char} {cs : List Char} (h : sep ∉ cs) : pieces sep cs = [cs] := by
  induction cs with
  | nil => rfl
  | cons c cs ih =>
    obtain ⟨hc, hcs⟩ := List.ne_and_not_mem_of_not_mem_cons h
    rw [pieces, if_neg (Ne.symm hc), ih hcs]

theorem pieces_append {sep : Char} {p : List Char} (hp : sep ∉ p) (rest : List Char) :
    pieces sep (p ++ sep :: rest) = p :: pieces sep rest := by
  induction p with
  | nil => rw [List.nil_append, pieces, if_pos rfl]
  | cons c p ih =>
    obtain ⟨hc, hp⟩ := List.ne_and_not_mem_of_not_mem_cons hp
    rw [List.cons_append, pieces, if_neg (Ne.symm hc), ih hp]

private theorem pieces_joinWith {sep : Char} {p : List Char} {segs : List (List Char)}
    (h : ∀ s ∈ p :: segs, sep ∉ s) : pieces sep (joinWith sep (p :: segs)) = p :: segs := by
  induction segs generalizing p with
  | nil => exact pieces_of_not_mem (h p List.mem_cons_self)
  | cons q segs ih =>
    rw [joinWith, pieces_append (h p List.mem_cons_self),
      ih fun s hs ↦ h s (List.mem_cons_of_mem p hs)]
    exact List.cons_ne_nil q segs

/-- **Segments that are joined come back.** -/
theorem segments_joinWith {sep : Char} {segs : List (List Char)}
    (h : ∀ s ∈ segs, s ≠ [] ∧ sep ∉ s) : segments sep (joinWith sep segs) = segs := by
  cases segs with
  | nil => rfl
  | cons p segs =>
    rw [segments, pieces_joinWith fun s hs ↦ (h s hs).2, List.filter_eq_self]
    intro s hs
    simpa using (h s hs).1

private theorem not_mem_of_mem_pieces {sep : Char} {cs s : List Char} (hs : s ∈ pieces sep cs) :
    sep ∉ s := by
  induction cs generalizing s with
  | nil =>
    rw [List.mem_singleton.mp hs]
    exact List.not_mem_nil
  | cons c cs ih =>
    rw [pieces] at hs
    split at hs
    · rcases List.mem_cons.mp hs with rfl | hs
      · exact List.not_mem_nil
      · exact ih hs
    · next hc =>
      split at hs
      · next hnil => exact absurd hnil (pieces_ne_nil sep cs)
      · next piece rest hpieces =>
        have hpiece : sep ∉ piece := ih (by rw [hpieces]; exact List.mem_cons_self)
        rcases List.mem_cons.mp hs with rfl | hs
        · rintro hmem
          rcases List.mem_cons.mp hmem with rfl | hmem
          · exact hc rfl
          · exact hpiece hmem
        · exact ih (by rw [hpieces]; exact List.mem_cons_of_mem piece hs)

/-- A piece holds nothing that the text does not hold. -/
theorem mem_of_mem_pieces {sep c : Char} {cs s : List Char} (hs : s ∈ pieces sep cs) (hc : c ∈ s) :
    c ∈ cs := by
  induction cs generalizing s with
  | nil =>
    rw [List.mem_singleton.mp hs] at hc
    exact hc
  | cons d cs ih =>
    rw [pieces] at hs
    split at hs
    · rcases List.mem_cons.mp hs with rfl | hs
      · exact absurd hc List.not_mem_nil
      · exact List.mem_cons_of_mem d (ih hs hc)
    · split at hs
      · next hnil => exact absurd hnil (pieces_ne_nil sep cs)
      · next piece rest hpieces =>
        rw [hpieces] at ih
        rcases List.mem_cons.mp hs with rfl | hs
        · rcases List.mem_cons.mp hc with rfl | hc
          · exact List.mem_cons_self
          · exact List.mem_cons_of_mem d (ih List.mem_cons_self hc)
        · exact List.mem_cons_of_mem d (ih (List.mem_cons_of_mem piece hs) hc)

/-- What stands before the first separator joins the first piece. -/
theorem pieces_append_of_eq_cons {sep : Char} {p cs first : List Char} {rest : List (List Char)}
    (hp : sep ∉ p) (h : pieces sep cs = first :: rest) :
    pieces sep (p ++ cs) = (p ++ first) :: rest := by
  induction p with
  | nil => exact h
  | cons c p ih =>
    obtain ⟨hc, hp⟩ := List.ne_and_not_mem_of_not_mem_cons hp
    rw [List.cons_append, pieces, if_neg (Ne.symm hc), ih hp, List.cons_append]

theorem mem_segments {sep : Char} {cs s : List Char} (hs : s ∈ segments sep cs) :
    s ≠ [] ∧ sep ∉ s := by
  obtain ⟨hpiece, hne⟩ := List.mem_filter.mp hs
  exact ⟨by simpa using hne, not_mem_of_mem_pieces hpiece⟩

theorem intercalate_eq_joinWith (sep : Char) (segs : List (List Char)) :
    List.intercalate [sep] segs = joinWith sep segs := by
  induction segs with
  | nil => rfl
  | cons p segs ih =>
    cases segs with
    | nil => simp [joinWith]
    | cons q segs =>
      rw [joinWith, ← ih]
      · simp
      · exact List.cons_ne_nil q segs

theorem mem_joinWith {sep c : Char} {segs : List (List Char)} (hc : c ∈ joinWith sep segs) :
    c = sep ∨ ∃ s ∈ segs, c ∈ s := by
  induction segs with
  | nil => cases hc
  | cons p segs ih =>
    cases segs with
    | nil => exact .inr ⟨p, List.mem_cons_self, hc⟩
    | cons q segs =>
      rw [joinWith, List.mem_append, List.mem_cons] at hc
      · rcases hc with hc | rfl | hc
        · exact .inr ⟨p, List.mem_cons_self, hc⟩
        · exact .inl rfl
        · rcases ih hc with rfl | ⟨s, hs, hcs⟩
          · exact .inl rfl
          · exact .inr ⟨s, List.mem_cons_of_mem p hs, hcs⟩
      · exact List.cons_ne_nil q segs

/-! ## Cutting once -/

private theorem bne_of_mem {sep : Char} {cs : List Char} (h : sep ∉ cs) :
    ∀ c ∈ cs, (c != sep) = true := by
  intro c hc
  rw [bne_iff_ne]
  rintro rfl
  exact h hc

theorem cutAt_of_not_mem {sep : Char} {cs : List Char} (h : sep ∉ cs) :
    cutAt sep cs = (cs, none) := by
  have hdrop : cs.dropWhile (· != sep) = [] := by
    rw [← List.append_nil cs, List.dropWhile_append_of_pos (bne_of_mem h), List.dropWhile_nil]
  rw [cutAt, hdrop]

theorem cutAt_append {sep : Char} {cs : List Char} (h : sep ∉ cs) (rest : List Char) :
    cutAt sep (cs ++ sep :: rest) = (cs, some rest) := by
  have hdrop : (cs ++ sep :: rest).dropWhile (· != sep) = sep :: rest := by
    rw [List.dropWhile_append_of_pos (bne_of_mem h), List.dropWhile_cons_of_neg (by simp)]
  have htake : (cs ++ sep :: rest).takeWhile (· != sep) = cs := by
    rw [List.takeWhile_append_of_pos (bne_of_mem h), List.takeWhile_cons_of_neg (by simp),
      List.append_nil]
  rw [cutAt, hdrop, htake]

end RefCheck.Text
