import RefCheck.Proofs.Comment.Sections
import RefCheck.Proofs.Comment.Tokens

/-!
# Two readings of fenced code

A comment is read twice. The layout goes from line to line, and between two lines that start with three
back-ticks no line opens a block tag. The cutting into tokens finds three back-ticks anywhere in the text of
a section. The two need not agree: a line that opens fenced code and closes it again is one line for the
layout, so the lines after it count as fenced although no fenced code is open, and a block tag among them
is lost (`lostTag_commentWithOneLineCode`).

They agree on *orderly* lines. There three back-ticks stand at the start of a line only, and an inline tag
ends on its line. `opensTag_iff_of_orderly` says so for every line that could open a block tag: it opens
one exactly when the text of the section before it does not end inside fenced code.
-/

namespace RefCheck.Comment

open RefCheck.Text

/-! ## Texts that end inside fenced code -/

/-- Fenced code that no three back-ticks end. -/
def Token.isOpenFence : Token → Bool
  | .code cs =>
    match dropLead? fence cs with
    | some inner => !fence.isSuffixOf inner
    | none => false
  | _ => false

/-- The text ends inside fenced code. -/
def leavesOpen (cs : List Char) : Bool := (tokens cs).any Token.isOpenFence

/-- The text ends inside fenced code, if it starts inside fenced code or not as `fenced` says. -/
def leavesOpenIn (fenced : Bool) (cs : List Char) : Bool :=
  leavesOpen (if fenced then fence ++ cs else cs)

theorem leavesOpen_cons_of_eq_some {c : Char} {rest after : List Char} {t : Token}
    (h : tokenAt? (c :: rest) = some (t, after)) :
    leavesOpen (c :: rest) = (t.isOpenFence || leavesOpen after) := by
  rw [leavesOpen, tokens_cons_of_eq_some h, List.any_cons, leavesOpen]

theorem leavesOpen_cons_of_eq_none {c : Char} {rest : List Char} (h : tokenAt? (c :: rest) = none) :
    leavesOpen (c :: rest) = leavesOpen rest := by
  rw [leavesOpen, tokens_cons_of_eq_none h, leavesOpen]
  cases tokens rest with
  | nil => rfl
  | cons t ts => cases t <;> rfl

theorem leavesOpen_blanks {blanks : List Char} (h : ∀ c ∈ blanks, isBlank c = true)
    (cs : List Char) : leavesOpen (blanks ++ cs) = leavesOpen cs := by
  induction blanks with
  | nil => rfl
  | cons c blanks ih =>
    have hc := h c List.mem_cons_self
    have hnone : tokenAt? (c :: (blanks ++ cs)) = none := by
      refine tokenAt?_cons_eq_none ?_ ?_ _
      · rintro rfl
        exact absurd hc (by decide)
      · rintro rfl
        exact absurd hc (by decide)
    rw [List.cons_append, leavesOpen_cons_of_eq_none hnone]
    exact ih fun d hd ↦ h d (List.mem_cons_of_mem c hd)

theorem leavesOpenIn_true (cs : List Char) : leavesOpenIn true cs
    = (!fence.isSuffixOf (spanFence cs).1 || leavesOpen (spanFence cs).2) := by
  have hlead : dropLead? fence (fence ++ (spanFence cs).1) = some (spanFence cs).1 :=
    dropLead?_eq_some_iff.mpr rfl
  rw [leavesOpenIn, if_pos rfl, leavesOpen, tokens_fence, List.any_cons, Token.isOpenFence, hlead,
    leavesOpen]

theorem leavesOpenIn_nil (fenced : Bool) : leavesOpenIn fenced [] = fenced := by
  cases fenced with
  | false => rw [leavesOpenIn, if_neg Bool.false_ne_true, leavesOpen, tokens, List.any_nil]
  | true =>
    rw [leavesOpenIn_true]
    rfl

/-! ## One line -/

theorem head?_ne_backtick {rest : List Char} (h : EndsLine rest) : rest.head? ≠ some backtick :=
  fun hhead ↦ absurd (h backtick hhead) (by decide)

theorem leavesOpenIn_lineFeed (fenced : Bool) (cs : List Char) :
    leavesOpenIn fenced ('\n' :: cs) = leavesOpenIn fenced cs := by
  have hne : '\n' ≠ backtick := by decide
  cases fenced with
  | false => exact leavesOpen_cons_of_eq_none (tokenAt?_cons_eq_none hne (by decide) cs)
  | true =>
    rw [leavesOpenIn_true, leavesOpenIn_true, spanFence_cons_of_ne hne]
    have hsuffix : fence.isSuffixOf ('\n' :: (spanFence cs).1) = fence.isSuffixOf (spanFence cs).1 := by
      rw [Bool.eq_iff_iff, List.isSuffixOf_iff_suffix, List.isSuffixOf_iff_suffix,
        List.suffix_cons_iff, or_iff_right]
      exact fun h ↦ hne (List.cons.inj h).1.symm
    rw [hsuffix]

/-- Fenced code runs over a stretch without three back-ticks in a row. -/
theorem leavesOpenIn_true_append {cs rest : List Char} (h : ¬fence <:+: cs) (hrest : EndsLine rest) :
    leavesOpenIn true (cs ++ rest) = leavesOpenIn true rest := by
  have hsuffix : fence <:+ cs ++ (spanFence rest).1 ↔ fence <:+ (spanFence rest).1 := by
    refine ⟨fun hcs ↦ ?_, fun hcs ↦ hcs.trans (List.suffix_append cs _)⟩
    rcases List.suffix_or_suffix_of_suffix hcs (List.suffix_append cs _) with hspan | hspan
    · exact hspan
    · -- what follows does not start with a back-tick, so it is no end of three of them but the empty one
      cases hfirst : (spanFence rest).1 with
      | nil =>
        rw [hfirst, List.append_nil] at hcs
        exact absurd hcs.isInfix h
      | cons c span =>
        have hc : c ∈ fence := hspan.subset (by rw [hfirst]; exact List.mem_cons_self)
        have hhead : rest.head? = some c := by rw [← spanFence_append rest, hfirst]; rfl
        rw [hrest c hhead] at hc
        exact absurd hc (by decide)
  rw [leavesOpenIn_true, leavesOpenIn_true, spanFence_append_of_not_infix h (head?_ne_backtick hrest),
    Bool.eq_iff_iff, Bool.or_eq_true, Bool.or_eq_true, Bool.not_eq_true', Bool.not_eq_true',
    ← Bool.not_eq_true, ← Bool.not_eq_true, List.isSuffixOf_iff_suffix, List.isSuffixOf_iff_suffix,
    hsuffix]

/-- Three back-ticks at the start of a line end fenced code. -/
theorem leavesOpenIn_true_fence {blanks : List Char} (h : ∀ c ∈ blanks, isBlank c = true)
    (cs : List Char) : leavesOpenIn true (blanks ++ fence ++ cs) = leavesOpen cs := by
  have hback : backtick ∉ blanks := fun hmem ↦ absurd (h backtick hmem) (by decide)
  have hsuffix : fence.isSuffixOf (blanks ++ fence) = true :=
    List.isSuffixOf_iff_suffix.mpr (List.suffix_append blanks fence)
  rw [leavesOpenIn_true, spanFence_append_fence hback, hsuffix, Bool.not_true, Bool.false_or]

/-- Every brace with an at sign after it has a closing brace after that. -/
def BracesClosed : List Char → Prop
  | [] => True
  | c :: cs => (c = '\x7b' → cs.head? = some '@' → '\x7d' ∈ cs) ∧ BracesClosed cs

theorem BracesClosed.of_append {before cs : List Char} (h : BracesClosed (before ++ cs)) :
    BracesClosed cs := by
  induction before with
  | nil => exact h
  | cons c before ih => exact ih h.2

theorem BracesClosed.of_append_blanks {cs blanks : List Char} (h : BracesClosed (cs ++ blanks))
    (hblanks : ∀ c ∈ blanks, isBlank c = true) : BracesClosed cs := by
  induction cs with
  | nil => trivial
  | cons c cs ih =>
    refine ⟨fun hc hat ↦ ?_, ih h.2⟩
    have hmem : '\x7d' ∈ cs ++ blanks := h.1 hc (by simp [hat])
    refine (List.mem_append.mp hmem).resolve_right fun hblank ↦ ?_
    exact absurd (hblanks _ hblank) (by decide)

instance decidableBracesClosed : (cs : List Char) → Decidable (BracesClosed cs)
  | [] => inferInstanceAs (Decidable True)
  | c :: cs =>
    have := decidableBracesClosed cs
    inferInstanceAs
      (Decidable ((c = '\x7b' → cs.head? = some '@' → '\x7d' ∈ cs) ∧ BracesClosed cs))

/-! ### Outside fenced code -/

/-- Code that starts with three back-ticks in a row has them in its source. -/
theorem isOpenFence_eq_false {t : Token} (h : ¬fence <:+: t.source) : t.isOpenFence = false := by
  cases t with
  | code cs =>
    rw [Token.isOpenFence]
    split
    · next inner hlead => exact absurd ⟨[], inner, (dropLead?_eq_some_iff.mp hlead).symm⟩ h
    · rfl
  | text cs => rfl
  | inlineTag name rest => rfl

/-- A code span ends on its line. -/
theorem lineFeed_not_mem_of_spanAt? {cs after : List Char} {t : Token}
    (h : spanAt? cs = some (t, after)) : '\n' ∉ t.source := by
  obtain ⟨span, hspan, rfl, -⟩ := spanAt?_eq_some_iff.mp h
  intro hmem
  rw [Token.source, List.cons_append, List.mem_cons, List.mem_append, List.mem_singleton] at hmem
  rcases hmem with hmem | hmem | hmem
  · exact absurd hmem (by decide)
  · exact absurd (hspan '\n' hmem) (by decide)
  · exact absurd hmem (by decide)

/-- An inline tag has no closing brace before its last character. -/
theorem closing_not_mem_of_inlineTagAt? {cs after before reach : List Char} {d : Char} {t : Token}
    (h : inlineTagAt? cs = some (t, after)) (hsource : t.source = before ++ d :: reach) :
    '\x7d' ∉ before := by
  obtain ⟨c, name, body, hc, hname, hbody, rfl, -⟩ := inlineTagAt?_eq_some_iff.mp h
  have hbefore : '\x7b' :: '@' :: (c :: name ++ body) = before ++ (d :: reach).dropLast := by
    rw [← List.dropLast_append_of_ne_nil (List.cons_ne_nil d reach), ← hsource, Token.source,
      List.dropLast_concat, List.cons_append, List.cons_append, List.cons_append, List.cons_append]
  intro hmem
  have hmem' : '\x7d' ∈ '\x7b' :: '@' :: (c :: name ++ body) := by
    rw [hbefore]
    exact List.mem_append_left _ hmem
  rw [List.mem_cons, List.mem_cons, List.cons_append, List.mem_cons, List.mem_append] at hmem'
  rcases hmem' with heq | heq | rfl | hin | hin
  · exact absurd heq (by decide)
  · exact absurd heq (by decide)
  · exact absurd hc (by decide)
  · exact absurd (hname _ hin) (by decide)
  · exact hbody.2 hin

/-- A token that starts on a line without three back-ticks in a row, on which every brace is closed, ends
on that line. -/
theorem exists_tail_of_tokenAt? {cs rest after : List Char} {t : Token} (hcs : cs ≠ [])
    (hfence : ¬fence <:+: cs) (hbraces : BracesClosed cs) (hrest : EndsLine rest)
    (h : tokenAt? (cs ++ rest) = some (t, after)) :
    ∃ tail, cs = t.source ++ tail ∧ after = tail ++ rest := by
  rcases List.append_eq_append_iff.mp (tokenAt?_source h).1 with ⟨reach, hreach, hafter⟩ | htail
  · cases reach with
    | nil => exact ⟨[], by rw [hreach, List.append_nil, List.append_nil], hafter.symm⟩
    | cons d reach =>
      -- the token would take the line feed at the start of `rest`
      have hd : d = '\n' := hrest d (by rw [hafter]; rfl)
      have hlead := dropLead?_fence_append hfence (head?_ne_backtick hrest)
      rcases spanAt?_or_inlineTagAt? hlead h with hspan | htag
      · refine absurd ?_ (lineFeed_not_mem_of_spanAt? hspan)
        rw [hreach, hd]
        exact List.mem_append_right cs List.mem_cons_self
      · have hopen := closing_not_mem_of_inlineTagAt? htag hreach
        obtain ⟨c, name, body, -, -, -, rfl, -⟩ := inlineTagAt?_eq_some_iff.mp htag
        match cs with
        | [] => exact absurd rfl hcs
        | [_] =>
          simp only [Token.source, List.cons_append, List.nil_append, List.cons.injEq] at hreach
          rw [hd] at hreach
          exact absurd hreach.2.1 (by decide)
        | a :: b :: cs =>
          simp only [Token.source, List.cons_append, List.cons.injEq] at hreach
          obtain ⟨rfl, rfl, -⟩ := hreach
          refine absurd ?_ hopen
          exact List.mem_cons_of_mem _ (hbraces.1 rfl rfl)
  · exact htail

/-- Outside fenced code, a stretch of a line without three back-ticks in a row and with closed braces opens
none. -/
theorem leavesOpen_append {cs rest : List Char} (hfence : ¬fence <:+: cs) (hbraces : BracesClosed cs)
    (hrest : EndsLine rest) : leavesOpen (cs ++ rest) = leavesOpen rest := by
  -- from token to token: what is left of the stretch has the same properties
  induction hn : cs.length using Nat.strongRecOn generalizing cs with
  | ind n ih =>
    subst hn
    cases cs with
    | nil => rfl
    | cons c cs =>
      have hsuffix : ∀ before tail, c :: cs = before ++ tail → before ≠ [] →
          leavesOpen (tail ++ rest) = leavesOpen rest := by
        intro before tail hsplit hbefore
        refine ih tail.length ?_ ?_ ?_ rfl
        · rw [hsplit, List.length_append]
          have := List.length_pos_iff.mpr hbefore
          omega
        · exact fun htail ↦ hfence (htail.trans ⟨before, [], by rw [hsplit, List.append_nil]⟩)
        · rw [hsplit] at hbraces
          exact hbraces.of_append
      cases htoken : tokenAt? (c :: cs ++ rest) with
      | none =>
        rw [List.cons_append] at htoken ⊢
        rw [leavesOpen_cons_of_eq_none htoken]
        exact hsuffix [c] cs rfl (List.cons_ne_nil c [])
      | some r =>
        obtain ⟨t, after⟩ := r
        obtain ⟨tail, hcs, rfl⟩ :=
          exists_tail_of_tokenAt? (List.cons_ne_nil c cs) hfence hbraces hrest htoken
        have hclosed : t.isOpenFence = false :=
          isOpenFence_eq_false fun ht ↦ hfence (ht.trans ⟨[], tail, by rw [hcs, List.nil_append]⟩)
        have hsource := (tokenAt?_source htoken).2
        rw [List.cons_append] at htoken ⊢
        rw [leavesOpen_cons_of_eq_some htoken, hclosed, Bool.false_or]
        exact hsuffix t.source tail hcs hsource

/-! ## Orderly lines -/

/-- What stands after the three back-ticks that a line starts with, or the line if it does not. -/
def afterFence (line : List Char) : List Char := (dropLead? fence (trimStart line)).getD line

/-- A line has three back-ticks in a row at its start only, and outside fenced code an inline tag ends on
it. `fenced` says whether the line starts inside fenced code. -/
structure IsOrderly (fenced : Bool) (line : List Char) : Prop where
  /-- There are no three back-ticks in a row but at the start. -/
  fence_start : ¬fence <:+: afterFence line
  /-- Unless fenced code goes on after the line, every brace is closed on it. -/
  closed : (fenced != opensFence line) = false → BracesClosed (afterFence line)

theorem isOrderly_iff {fenced : Bool} {line : List Char} : IsOrderly fenced line ↔
    ¬fence <:+: afterFence line ∧
      ((fenced != opensFence line) = false → BracesClosed (afterFence line)) :=
  ⟨fun h ↦ ⟨h.fence_start, h.closed⟩, fun h ↦ ⟨h.1, h.2⟩⟩

instance decidableIsOrderly (fenced : Bool) (line : List Char) : Decidable (IsOrderly fenced line) :=
  have := List.instDecidableIsInfixOfDecidableEq fence (afterFence line)
  decidable_of_iff _ isOrderly_iff.symm

/-- The lines are orderly one after the other. -/
def Orderly : Bool → List (List Char) → Prop
  | _, [] => True
  | fenced, line :: lines => IsOrderly fenced line ∧ Orderly (fenced != opensFence line) lines

instance decidableOrderly : (fenced : Bool) → (lines : List (List Char)) →
    Decidable (Orderly fenced lines)
  | _, [] => inferInstanceAs (Decidable True)
  | fenced, line :: lines =>
    have := decidableOrderly (fenced != opensFence line) lines
    inferInstanceAs (Decidable (IsOrderly fenced line ∧ Orderly (fenced != opensFence line) lines))

theorem orderly_concat {fenced : Bool} {lines : List (List Char)} {line : List Char} :
    Orderly fenced (lines ++ [line]) ↔
      Orderly fenced lines ∧ IsOrderly (fencedAfter fenced lines) line := by
  induction lines generalizing fenced with
  | nil => exact and_comm
  | cons l lines ih => rw [List.cons_append, Orderly, Orderly, ih, fencedAfter_cons, and_assoc]

theorem afterFence_eq_self {line : List Char} (h : opensFence line = false) :
    afterFence line = line := by
  rw [afterFence, opensFence_eq_false_iff.mp h, Option.getD_none]

/-- A line that starts with three back-ticks has nothing but blanks before them. -/
theorem exists_blanks_of_opensFence {line : List Char} (h : opensFence line = true) :
    ∃ blanks, (∀ c ∈ blanks, isBlank c = true) ∧ line = blanks ++ fence ++ afterFence line := by
  cases hlead : dropLead? fence (trimStart line) with
  | none =>
    rw [opensFence_eq_false_iff.mpr hlead] at h
    cases h
  | some inner =>
    refine ⟨line.takeWhile isBlank, List.all_eq_true.mp List.all_takeWhile, ?_⟩
    rw [afterFence, hlead, Option.getD_some, List.append_assoc, ← dropLead?_eq_some_iff.mp hlead,
      trimStart, List.takeWhile_append_dropWhile]

/-- **One orderly line.** The text goes on inside fenced code after it exactly when the layout says so. -/
theorem leavesOpenIn_line {fenced : Bool} {line rest : List Char} (h : IsOrderly fenced line)
    (hrest : EndsLine rest) :
    leavesOpenIn fenced (line ++ rest) = leavesOpenIn (fenced != opensFence line) rest := by
  have hstart := h.fence_start
  have hclosed := h.closed
  cases hopens : opensFence line with
  | false =>
    rw [afterFence_eq_self hopens] at hstart hclosed
    rw [Bool.bne_false]
    cases fenced with
    | false => exact leavesOpen_append hstart (hclosed (by rw [hopens]; rfl)) hrest
    | true => exact leavesOpenIn_true_append hstart hrest
  | true =>
    obtain ⟨blanks, hblanks, hline⟩ := exists_blanks_of_opensFence hopens
    rw [hline, List.append_assoc]
    cases fenced with
    | false =>
      -- the fenced code that the line opens
      have hopen : leavesOpenIn false (blanks ++ fence ++ (afterFence line ++ rest))
          = leavesOpenIn true (afterFence line ++ rest) := by
        rw [leavesOpenIn, if_neg Bool.false_ne_true, List.append_assoc, leavesOpen_blanks hblanks,
          leavesOpenIn, if_pos rfl]
      rw [hopen, leavesOpenIn_true_append hstart hrest]
      rfl
    | true =>
      rw [leavesOpenIn_true_fence hblanks,
        leavesOpen_append hstart (hclosed (by rw [hopens]; rfl)) hrest]
      rfl

/-- **A run of orderly lines.** Their text ends inside fenced code exactly when the layout counts what
follows as fenced. -/
theorem leavesOpenIn_joinLines {fenced : Bool} {lines : List (List Char)} (h : Orderly fenced lines) :
    leavesOpenIn fenced (joinLines lines) = fencedAfter fenced lines := by
  have hnil : EndsLine [] := fun c hc ↦ absurd hc (Option.not_mem_none c)
  induction lines generalizing fenced with
  | nil => exact leavesOpenIn_nil fenced
  | cons line lines ih =>
    obtain ⟨hline, hlines⟩ := h
    rw [fencedAfter_cons, ← ih hlines]
    cases lines with
    | nil =>
      rw [joinLines_singleton, joinLines_nil, ← List.append_nil line, leavesOpenIn_line hline hnil]
      rw [List.append_nil]
    | cons next lines =>
      have hfeed : EndsLine ('\n' :: joinLines (next :: lines)) := fun c hc ↦ (Option.some.inj hc).symm
      rw [joinLines_cons_cons, leavesOpenIn_line hline hfeed, leavesOpenIn_lineFeed]

/-- What a block tag keeps of its line is orderly if the line is. -/
theorem IsOrderly.of_openingTag? {line name rest : List Char} (h : IsOrderly false line)
    (htag : openingTag? (trim line) = some (name, rest)) :
    IsOrderly false rest ∧ opensFence rest = false := by
  have hopens := opensFence_eq_false_of_openingTag? htag
  have hstart := h.fence_start
  have hclosed := h.closed (by rw [hopens]; rfl)
  rw [afterFence_eq_self hopens] at hstart hclosed
  obtain ⟨inner, htrim⟩ := exists_blanks_of_openingTag? htag
  obtain ⟨blanks, hblanks, hend⟩ := exists_blanks_trimEnd (trimStart line)
  have hline : line = (line.takeWhile isBlank ++ ('@' :: name ++ inner)) ++ (rest ++ blanks) := by
    rw [List.append_assoc, ← List.append_assoc _ rest, ← htrim, trim, ← hend, trimStart,
      List.takeWhile_append_dropWhile]
  have hnot : ¬fence <:+: rest := fun hrest ↦
    hstart (hrest.trans ⟨_, blanks, by rw [List.append_assoc]; exact hline.symm⟩)
  have hrest : opensFence rest = false := by
    rw [← Bool.not_eq_true, opensFence_eq_true_iff]
    exact fun hlead ↦ hnot (hlead.isInfix.trans (List.dropWhile_suffix isBlank).isInfix)
  refine ⟨⟨by rwa [afterFence_eq_self hrest], fun _ ↦ ?_⟩, hrest⟩
  rw [afterFence_eq_self hrest]
  rw [hline] at hclosed
  exact hclosed.of_append.of_append_blanks hblanks

/-! ## The open section -/

/-- The lines of the section that is open after the lines: those of the last block tag, or of the summary. -/
def openSection (lines : List (List Char)) : List (List Char) :=
  match (sections false lines).2.getLast? with
  | some tag => tag.2
  | none => (sections false lines).1

/-- The line at place `n` opens a block tag: there is one more with it than before it. -/
def OpensTag (cs : List Char) (n : Nat) : Prop :=
  (sections false ((contentLines cs).take n)).2.length
    < (sections false ((contentLines cs).take (n + 1))).2.length

instance decidableOpensTag (cs : List Char) (n : Nat) : Decidable (OpensTag cs n) := Nat.decLt _ _

/-- The text of the section that is open before the line at place `n` ends inside fenced code. -/
def leavesOpenBefore (cs : List Char) (n : Nat) : Bool :=
  leavesOpen (joinLines (openSection ((contentLines cs).take n)))

/-- The section that is open after the lines, if `current` are the lines of the section that is open before
them. -/
def extendSection (current : List (List Char)) : Bool → List (List Char) → List (List Char)
  | _, [] => current
  | fenced, line :: lines =>
    match if fenced then none else openingTag? (trim line) with
    | some (_, rest) => extendSection [rest] (fenced != opensFence line) lines
    | none => extendSection (current ++ [line]) (fenced != opensFence line) lines

theorem extendSection_eq (current : List (List Char)) (fenced : Bool) (lines : List (List Char)) :
    extendSection current fenced lines =
      match (sections fenced lines).2.getLast? with
      | some tag => tag.2
      | none => current ++ (sections fenced lines).1 := by
  induction lines generalizing current fenced with
  | nil => exact (List.append_nil current).symm
  | cons line lines ih =>
    rw [extendSection]
    split
    · next name rest htag =>
      rw [ih, sections_cons_of_eq_some htag]
      cases (sections (fenced != opensFence line) lines).2 with
      | nil => rfl
      | cons tag tags => rfl
    · next htag =>
      rw [ih, sections_cons_of_eq_none htag]
      cases (sections (fenced != opensFence line) lines).2.getLast? with
      | none => exact List.append_assoc current [line] _
      | some tag => rfl

theorem openSection_eq_extendSection (lines : List (List Char)) :
    openSection lines = extendSection [] false lines := by
  rw [extendSection_eq, openSection]
  rfl

/-- The section that is open after orderly lines has orderly lines, and the layout counts what follows them
as fenced just as it does after all the lines. -/
theorem orderly_extendSection {fenced : Bool} {current lines : List (List Char)}
    (hfenced : fencedAfter false current = fenced) (hcurrent : Orderly false current)
    (hlines : Orderly fenced lines) : Orderly false (extendSection current fenced lines) ∧
      fencedAfter false (extendSection current fenced lines) = fencedAfter fenced lines := by
  induction lines generalizing current fenced with
  | nil => exact ⟨hcurrent, hfenced⟩
  | cons line lines ih =>
    obtain ⟨hline, hlines⟩ := hlines
    rw [extendSection, fencedAfter_cons]
    split
    · next name rest htag =>
      -- a new section starts, outside fenced code
      cases fenced with
      | true => cases htag
      | false =>
        obtain ⟨hrest, hopens⟩ := hline.of_openingTag? htag
        refine ih ?_ ⟨hrest, trivial⟩ hlines
        rw [fencedAfter_cons, hopens, opensFence_eq_false_of_openingTag? htag]
        rfl
    · refine ih ?_ (orderly_concat.mpr ⟨hcurrent, by rwa [hfenced]⟩) hlines
      rw [fencedAfter_concat, hfenced]

/-- **The two readings agree on orderly lines.** A line that could open a block tag opens one exactly when
the text of the section that is open before it does not end inside fenced code. -/
theorem opensTag_iff_of_orderly {cs line : List Char} {n : Nat}
    (hline : (contentLines cs)[n]? = some line) (htag : (openingTag? (trim line)).isSome)
    (h : Orderly false ((contentLines cs).take n)) :
    OpensTag cs n ↔ leavesOpenBefore cs n = false := by
  have htake : (contentLines cs).take (n + 1) = (contentLines cs).take n ++ [line] := by
    rw [List.take_add_one, hline, Option.toList_some]
  have hempty : fencedAfter false [] = false := rfl
  obtain ⟨horderly, hflag⟩ := orderly_extendSection hempty trivial h
  have hopen := leavesOpenIn_joinLines horderly
  rw [leavesOpenIn, if_neg Bool.false_ne_true, ← openSection_eq_extendSection] at hopen
  rw [← openSection_eq_extendSection] at hflag
  rw [leavesOpenBefore, OpensTag, htake, length_sections_concat, htag, hopen, hflag]
  cases fencedAfter false ((contentLines cs).take n) <;> simp

/-- A comment with fenced code, in which a line stands that would open a block tag elsewhere. -/
def commentWithCode : List Char := "Adds.\n```ts\n@see #a\n```\n@see #b".toList

theorem opensTag_commentWithCode : ¬OpensTag commentWithCode 2 ∧ OpensTag commentWithCode 4 := by
  have hinside : (contentLines commentWithCode)[2]? = some "@see #a".toList := by decide +kernel
  have hafter : (contentLines commentWithCode)[4]? = some "@see #b".toList := by decide +kernel
  have hinside_iff := opensTag_iff_of_orderly hinside (by decide +kernel) (by decide +kernel)
  have hafter_iff := opensTag_iff_of_orderly hafter (by decide +kernel) (by decide +kernel)
  exact ⟨fun h ↦ absurd (hinside_iff.mp h) (by decide +kernel), hafter_iff.mpr (by decide +kernel)⟩

/-- A comment whose first line opens fenced code and ends it. -/
def commentWithOneLineCode : List Char := "```ts x```\n@see #a".toList

/-- **A block tag that is lost.** No fenced code is open before the second line, and the line could open a
block tag, but it opens none. -/
theorem lostTag_commentWithOneLineCode :
    (contentLines commentWithOneLineCode)[1]? = some "@see #a".toList ∧
      (openingTag? (trim "@see #a".toList)).isSome ∧
      leavesOpenBefore commentWithOneLineCode 1 = false ∧ ¬OpensTag commentWithOneLineCode 1 ∧
      (ofChars commentWithOneLineCode).blockTags.length = 0 := by
  decide +kernel

end RefCheck.Comment
