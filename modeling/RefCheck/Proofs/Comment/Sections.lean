import RefCheck.Comment.Layout
import RefCheck.Proofs.Text.Joined

/-!
# Sections line by line

The layout of a comment as equations for its first line and for its last line. What the lines before a line
leave behind is whether it counts as fenced (`fencedAfter`) and how many block tags there are so far.
-/

namespace RefCheck.Comment

open RefCheck.Text

/-! ## The first line -/

theorem sections_cons_of_eq_some {fenced : Bool} {line name rest : List Char}
    (h : (if fenced then none else openingTag? (trim line)) = some (name, rest))
    (lines : List (List Char)) : sections fenced (line :: lines)
      = ([], (name, rest :: (sections (fenced != opensFence line) lines).1)
          :: (sections (fenced != opensFence line) lines).2) := by
  simp only [sections, h]

theorem sections_cons_of_eq_none {fenced : Bool} {line : List Char}
    (h : (if fenced then none else openingTag? (trim line)) = none) (lines : List (List Char)) :
    sections fenced (line :: lines) = (line :: (sections (fenced != opensFence line) lines).1,
      (sections (fenced != opensFence line) lines).2) := by
  simp only [sections, h]

/-! ## Lines that open a block tag -/

/-- A line that opens a block tag is an at sign, the name, blanks and the rest. -/
theorem exists_blanks_of_openingTag? {cs name rest : List Char}
    (h : openingTag? cs = some (name, rest)) : ∃ blanks, cs = '@' :: name ++ blanks ++ rest := by
  unfold openingTag? at h
  split at h
  · next a c cs =>
    split at h
    · next hlead =>
      rw [Bool.and_eq_true, decide_eq_true_eq] at hlead
      have hcs := List.takeWhile_append_dropWhile (p := isTagChar) (l := cs)
      dsimp only at h
      split at h
      · next hdrop =>
        cases h
        rw [hdrop, List.append_nil] at hcs
        exact ⟨[], by rw [hlead.1, List.append_nil, List.append_nil, hcs]⟩
      · next d tail hdrop =>
        split at h
        · cases h
          refine ⟨(cs.dropWhile isTagChar).takeWhile isBlank, ?_⟩
          rw [List.append_assoc, trimStart, List.takeWhile_append_dropWhile, hlead.1, List.cons_append,
            List.cons_append, hcs]
        · cases h
    · cases h
  · cases h

/-! ## Lines that start with three back-ticks -/

theorem opensFence_eq_true_iff {line : List Char} :
    opensFence line = true ↔ fence <+: trimStart line := by
  rw [opensFence, startsWith, Option.isSome_iff_exists]
  constructor
  · rintro ⟨rest, hrest⟩
    have htrim : fence <+: trim line := ⟨rest, (dropLead?_eq_some_iff.mp hrest).symm⟩
    exact htrim.trans (trimEnd_prefix_self (trimStart line))
  · rintro ⟨inner, hinner⟩
    have hback : ∀ c ∈ fence, isBlank c = false := by simp [fence, backtick, isBlank]
    obtain ⟨rest, hrest⟩ := prefix_trimEnd_append hback inner
    exact ⟨rest, dropLead?_eq_some_iff.mpr (by rw [hrest, hinner, trim])⟩

theorem opensFence_eq_false_iff {line : List Char} :
    opensFence line = false ↔ dropLead? fence (trimStart line) = none := by
  rw [← Bool.not_eq_true, opensFence_eq_true_iff, ← Option.not_isSome_iff_eq_none,
    Option.isSome_iff_exists]
  refine not_congr (exists_congr fun inner ↦ ?_)
  rw [dropLead?_eq_some_iff, eq_comm]

theorem opensFence_eq_false_of_openingTag? {line name rest : List Char}
    (h : openingTag? (trim line) = some (name, rest)) : opensFence line = false := by
  obtain ⟨blanks, hline⟩ := exists_blanks_of_openingTag? h
  rw [opensFence, hline]
  rfl

/-! ## Lines without a block tag -/

/-- The lines open no block tag when the layout counts the first of them as fenced as `fenced` says, and it
counts what follows them as `after` says. -/
def Quiet (fenced : Bool) (lines : List (List Char)) (after : Bool) : Prop :=
  ∀ more, sections fenced (lines ++ more)
    = (lines ++ (sections after more).1, (sections after more).2)

theorem Quiet.nil (fenced : Bool) : Quiet fenced [] fenced := fun _ ↦ rfl

theorem Quiet.append {a b c : Bool} {lines next : List (List Char)} (h : Quiet a lines b)
    (hnext : Quiet b next c) : Quiet a (lines ++ next) c := fun more ↦ by
  rw [List.append_assoc, h, hnext, List.append_assoc]

theorem quiet_singleton {fenced : Bool} {line : List Char}
    (h : (if fenced then none else openingTag? (trim line)) = none) :
    Quiet fenced [line] (fenced != opensFence line) :=
  fun more ↦ sections_cons_of_eq_none h more

/-- Nothing but the lines themselves is needed for what follows an empty line to be quiet. -/
theorem Quiet.of_nil_cons {after : Bool} {lines : List (List Char)} (h : Quiet false ([] :: lines) after) :
    Quiet false lines after := fun more ↦ by
  have hmore := h more
  have hfirst : sections false ([] :: (lines ++ more))
      = ([] :: (sections false (lines ++ more)).1, (sections false (lines ++ more)).2) :=
    sections_cons_of_eq_none rfl _
  rw [List.cons_append, hfirst, List.cons_append, Prod.mk.injEq, List.cons.injEq] at hmore
  exact Prod.ext hmore.1.2 hmore.2

/-- A line that neither opens a block tag nor starts with three back-ticks. -/
def IsPlain (line : List Char) : Prop := openingTag? (trim line) = none ∧ opensFence line = false

instance decidableIsPlain (line : List Char) : Decidable (IsPlain line) :=
  inferInstanceAs (Decidable (openingTag? (trim line) = none ∧ opensFence line = false))

theorem quiet_of_isPlain {lines : List (List Char)} (h : ∀ line ∈ lines, IsPlain line) :
    Quiet false lines false := by
  induction lines with
  | nil => exact Quiet.nil false
  | cons line lines ih =>
    obtain ⟨htag, hopens⟩ := h line List.mem_cons_self
    have hline : Quiet false [line] (false != opensFence line) := quiet_singleton htag
    rw [hopens] at hline
    exact hline.append (ih fun l hl ↦ h l (List.mem_cons_of_mem line hl))

/-- Lines inside fenced code go on inside it if no line starts with three back-ticks. -/
theorem quiet_of_fenced {lines : List (List Char)} (h : ∀ line ∈ lines, opensFence line = false) :
    Quiet true lines true := by
  induction lines with
  | nil => exact Quiet.nil true
  | cons line lines ih =>
    have hline : Quiet true [line] (true != opensFence line) := quiet_singleton rfl
    rw [h line List.mem_cons_self] at hline
    exact hline.append (ih fun l hl ↦ h l (List.mem_cons_of_mem line hl))

/-! ## The last line -/

/-- The layout counts what follows the lines as fenced. -/
def fencedAfter (fenced : Bool) (lines : List (List Char)) : Bool :=
  lines.foldl (fun fenced line ↦ fenced != opensFence line) fenced

theorem fencedAfter_cons (fenced : Bool) (line : List Char) (lines : List (List Char)) :
    fencedAfter fenced (line :: lines) = fencedAfter (fenced != opensFence line) lines := rfl

theorem fencedAfter_concat (fenced : Bool) (lines : List (List Char)) (line : List Char) :
    fencedAfter fenced (lines ++ [line]) = (fencedAfter fenced lines != opensFence line) := by
  rw [fencedAfter, List.foldl_append, List.foldl_cons, List.foldl_nil, fencedAfter]

/-- One more line opens one more block tag, if it could and the layout does not count it as fenced. -/
theorem length_sections_concat (fenced : Bool) (lines : List (List Char)) (line : List Char) :
    (sections fenced (lines ++ [line])).2.length = (sections fenced lines).2.length +
      if fencedAfter fenced lines = false ∧ (openingTag? (trim line)).isSome then 1 else 0 := by
  induction lines generalizing fenced with
  | nil =>
    simp only [List.nil_append, sections, fencedAfter, List.foldl_nil]
    cases fenced <;> cases openingTag? (trim line) <;> rfl
  | cons l lines ih =>
    have htail := ih (fenced != opensFence l)
    rw [List.cons_append, fencedAfter_cons]
    cases htag : if fenced then none else openingTag? (trim l) with
    | none =>
      rw [sections_cons_of_eq_none htag, sections_cons_of_eq_none htag]
      exact htail
    | some tag =>
      rw [sections_cons_of_eq_some htag, sections_cons_of_eq_some htag, List.length_cons, htail,
        List.length_cons, Nat.add_right_comm]

end RefCheck.Comment
