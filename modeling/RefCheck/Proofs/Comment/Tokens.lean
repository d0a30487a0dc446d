import RefCheck.Comment.Token
import RefCheck.Proofs.Text.Lines

/-!
# Cutting comment text step by step

What `tokens` does at the start of a text, as two equations: a token that starts there is cut off, and a
character at which none starts joins the plain text. With them come the laws of fenced code, which is the one
token that looks further than its own line without needing an end.
-/

namespace RefCheck.Comment

open RefCheck.Text

/-! ## One step -/

theorem tokens_cons_of_eq_some {c : Char} {rest after : List Char} {t : Token}
    (h : tokenAt? (c :: rest) = some (t, after)) : tokens (c :: rest) = t :: tokens after := by
  rw [tokens]
  split
  · next h' =>
    rw [h] at h'
    cases h'
    rfl
  · next h' =>
    rw [h] at h'
    cases h'

theorem tokens_cons_of_eq_none {c : Char} {rest : List Char} (h : tokenAt? (c :: rest) = none) :
    tokens (c :: rest) = pushText c (tokens rest) := by
  rw [tokens]
  split
  · next h' =>
    rw [h] at h'
    cases h'
  · rfl

/-! ## What starts no token -/

/-- Fenced code and code spans start with a back-tick, inline tags with a brace. -/
theorem tokenAt?_cons_eq_none {c : Char} (hback : c ≠ backtick) (hbrace : c ≠ '\x7b')
    (cs : List Char) : tokenAt? (c :: cs) = none := by
  have hfence : fenceAt? (c :: cs) = none := by
    rw [fenceAt?, fence, dropLead?, if_neg (Ne.symm hback), Option.map_none]
  have hspan : spanAt? (c :: cs) = none := by rw [spanAt?, if_neg hback]
  have htag : inlineTagAt? (c :: cs) = none := by
    unfold inlineTagAt?
    split
    · next heq =>
      cases heq
      rw [decide_eq_false hbrace, Bool.false_and, Bool.false_and, if_neg Bool.false_ne_true]
    · rfl
  rw [tokenAt?, hfence, hspan, htag]

/-- A brace can only start an inline tag. -/
theorem tokenAt?_brace (cs : List Char) : tokenAt? ('\x7b' :: cs) = inlineTagAt? ('\x7b' :: cs) := rfl

/-- A brace without an at sign after it starts no token. -/
theorem tokenAt?_brace_eq_none {cs : List Char} (hat : cs.head? ≠ some '@') :
    tokenAt? ('\x7b' :: cs) = none := by
  have htag : inlineTagAt? ('\x7b' :: cs) = none := by
    unfold inlineTagAt?
    split
    · next b a c rest heq =>
      cases heq
      have ha : ¬a = '@' := fun h ↦ hat (congrArg some h)
      rw [decide_eq_false ha, Bool.and_false, Bool.false_and, if_neg Bool.false_ne_true]
    · rfl
  rw [tokenAt?_brace, htag]

/-- What does not start with three back-ticks can only start a code span or an inline tag. -/
theorem spanAt?_or_inlineTagAt? {cs after : List Char} {t : Token} (hlead : dropLead? fence cs = none)
    (h : tokenAt? cs = some (t, after)) :
    spanAt? cs = some (t, after) ∨ inlineTagAt? cs = some (t, after) := by
  rw [tokenAt?, fenceAt?, hlead, Option.map_none] at h
  cases hspan : spanAt? cs with
  | none =>
    rw [hspan] at h
    exact .inr h
  | some r =>
    rw [hspan] at h
    exact .inl h

/-! ## Plain text -/

/-- The plain text at the start of tokens, and the tokens after it. -/
def cutText : List Token → List Char × List Token
  | .text cs :: ts => (cs, ts)
  | ts => ([], ts)

theorem pushText_eq (c : Char) (ts : List Token) :
    pushText c ts = .text (c :: (cutText ts).1) :: (cutText ts).2 := by
  cases ts with
  | nil => rfl
  | cons t ts => cases t <;> rfl

theorem foldr_pushText {cs : List Char} (hne : cs ≠ []) (ts : List Token) :
    cs.foldr pushText ts = .text (cs ++ (cutText ts).1) :: (cutText ts).2 := by
  induction cs with
  | nil => exact absurd rfl hne
  | cons c cs ih =>
    rw [List.foldr_cons]
    cases cs with
    | nil => exact pushText_eq c ts
    | cons d cs =>
      rw [ih (List.cons_ne_nil d cs)]
      rfl

/-- In a stretch without back-ticks and without a brace before an at sign, every character is plain text. -/
theorem tokens_append_of_plain {cs rest : List Char} (hback : backtick ∉ cs)
    (hopen : ¬['\x7b', '@'] <:+: cs) (hat : rest.head? ≠ some '@') :
    tokens (cs ++ rest) = cs.foldr pushText (tokens rest) := by
  induction cs with
  | nil => rfl
  | cons c cs ih =>
    obtain ⟨hc, hback⟩ := List.ne_and_not_mem_of_not_mem_cons hback
    have hnone : tokenAt? (c :: (cs ++ rest)) = none := by
      by_cases hbrace : c = '\x7b'
      · subst hbrace
        refine tokenAt?_brace_eq_none ?_
        cases cs with
        | nil => exact hat
        | cons d cs =>
          intro hd
          obtain rfl := Option.some.inj hd
          exact hopen ⟨[], cs, rfl⟩
      · exact tokenAt?_cons_eq_none (Ne.symm hc) hbrace _
    have htail := ih hback fun h ↦ hopen (h.trans (List.infix_cons_iff.mpr (.inr List.infix_rfl)))
    rw [List.cons_append, tokens_cons_of_eq_none hnone, htail, List.foldr_cons]

/-! ## Fenced code -/

theorem tokenAt?_fence (inner : List Char) : tokenAt? (fence ++ inner)
    = some (.code (fence ++ (spanFence inner).1), (spanFence inner).2) := by
  rw [tokenAt?, fenceAt?, dropLead?_eq_some_iff.mpr rfl, Option.map_some]

theorem tokens_fence (inner : List Char) : tokens (fence ++ inner)
    = .code (fence ++ (spanFence inner).1) :: tokens (spanFence inner).2 :=
  tokens_cons_of_eq_some (tokenAt?_fence inner)

theorem spanFence_fence (cs : List Char) : spanFence (fence ++ cs) = (fence, cs) := by
  have hlead : dropLead? fence (fence ++ cs) = some cs := dropLead?_eq_some_iff.mpr rfl
  have hcons : fence ++ cs = backtick :: ([backtick, backtick] ++ cs) := rfl
  rw [hcons] at hlead ⊢
  rw [spanFence, hlead]

theorem spanFence_cons_of_ne {c : Char} (hc : c ≠ backtick) (cs : List Char) :
    spanFence (c :: cs) = (c :: (spanFence cs).1, (spanFence cs).2) := by
  rw [spanFence, fence, dropLead?, if_neg (Ne.symm hc)]

/-- The first back-ticks that follow end fenced code. -/
theorem spanFence_append_fence {cs : List Char} (h : backtick ∉ cs) (rest : List Char) :
    spanFence (cs ++ fence ++ rest) = (cs ++ fence, rest) := by
  induction cs with
  | nil => exact spanFence_fence rest
  | cons c cs ih =>
    obtain ⟨hc, hcs⟩ := List.ne_and_not_mem_of_not_mem_cons h
    rw [List.cons_append, List.cons_append, spanFence_cons_of_ne (Ne.symm hc), ih hcs]

/-- Three back-ticks in a row do not reach across the end of a stretch. -/
theorem dropLead?_fence_append {cs rest : List Char} (h : ¬fence <:+: cs)
    (hrest : rest.head? ≠ some backtick) : dropLead? fence (cs ++ rest) = none := by
  rw [Option.eq_none_iff_forall_ne_some]
  intro after hafter
  have hsplit := dropLead?_eq_some_iff.mp hafter
  rcases List.append_eq_append_iff.mp hsplit with ⟨reach, hfence, hreach⟩ | ⟨tail, hcs, -⟩
  · -- the last back-tick of the three would be the first character of `rest`
    cases reach with
    | nil =>
      rw [List.append_nil] at hfence
      exact h ⟨[], [], by rw [hfence, List.nil_append, List.append_nil]⟩
    | cons c reach =>
      have hc : c ∈ fence := by
        rw [hfence]
        exact List.mem_append_right cs List.mem_cons_self
      have hback : c = backtick := by simpa [fence] using hc
      exact hrest (by rw [hreach, hback]; rfl)
  · exact h ⟨[], tail, hcs.symm⟩

/-- Fenced code goes on over a stretch without three back-ticks in a row. -/
theorem spanFence_append_of_not_infix {cs rest : List Char} (h : ¬fence <:+: cs)
    (hrest : rest.head? ≠ some backtick) :
    spanFence (cs ++ rest) = (cs ++ (spanFence rest).1, (spanFence rest).2) := by
  induction cs with
  | nil => rfl
  | cons c cs ih =>
    have htail := ih fun hcs ↦ h (hcs.trans (List.infix_cons_iff.mpr (.inr List.infix_rfl)))
    have hlead := dropLead?_fence_append h hrest
    rw [List.cons_append] at hlead ⊢
    rw [spanFence, hlead, htail]
    rfl

/-! ## Code spans and inline tags -/

/-- A code span has no back-tick and no line feed between its two back-ticks. -/
theorem spanAt?_eq_some_iff {cs after : List Char} {t : Token} : spanAt? cs = some (t, after) ↔
    ∃ span, (∀ c ∈ span, inSpan c = true) ∧ t = .code (backtick :: span ++ [backtick]) ∧
      cs = backtick :: span ++ backtick :: after := by
  constructor
  · intro h
    cases cs with
    | nil => cases h
    | cons c cs =>
      rw [spanAt?] at h
      split at h
      · next hc =>
        split at h
        · next d rest hdrop =>
          split at h
          · next hd =>
            cases h
            subst hc hd
            refine ⟨cs.takeWhile inSpan, List.all_eq_true.mp List.all_takeWhile, rfl, ?_⟩
            rw [List.cons_append, ← hdrop, List.takeWhile_append_dropWhile]
          · cases h
        · cases h
      · cases h
  · rintro ⟨span, hspan, rfl, rfl⟩
    have hend : ¬inSpan backtick = true := by decide
    have hdrop : (span ++ backtick :: after).dropWhile inSpan = backtick :: after := by
      rw [List.dropWhile_append_of_pos hspan, List.dropWhile_cons_of_neg hend]
    have htake : (span ++ backtick :: after).takeWhile inSpan = span := by
      rw [List.takeWhile_append_of_pos hspan, List.takeWhile_cons_of_neg hend, List.append_nil]
    rw [List.cons_append, spanAt?, if_pos rfl, hdrop, htake]
    exact if_pos rfl

/-- What may follow the name of an inline tag: nothing, or a blank and a text without a closing brace. -/
def IsTagBody (body : List Char) : Prop := (∀ c ∈ body.head?, isBlank c = true) ∧ '\x7d' ∉ body

theorem bodyAt?_eq_some_iff {cs body after : List Char} : bodyAt? cs = some (body, after) ↔
    IsTagBody body ∧ cs = body ++ '\x7d' :: after := by
  constructor
  · intro h
    refine ⟨?_, bodyAt?_append h⟩
    cases cs with
    | nil => cases h
    | cons c cs =>
      rw [bodyAt?] at h
      split at h
      · next hc =>
        split at h
        · cases h
          constructor
          · intro d hd
            rw [List.head?_takeWhile, List.head?_cons, Option.mem_def, Option.filter_eq_some_iff] at hd
            obtain ⟨hcd, hne⟩ := hd
            cases hcd
            rw [bne_iff_ne] at hne
            rwa [decide_eq_false hne, Bool.false_or] at hc
          · intro hmem
            exact absurd (List.all_eq_true.mp List.all_takeWhile _ hmem) (by simp)
        · cases h
      · cases h
  · rintro ⟨⟨hhead, hbrace⟩, rfl⟩
    have hall : ∀ c ∈ body, (c != '\x7d') = true := by
      intro c hc
      rw [bne_iff_ne]
      rintro rfl
      exact hbrace hc
    have hdrop : (body ++ '\x7d' :: after).dropWhile (· != '\x7d') = '\x7d' :: after := by
      rw [List.dropWhile_append_of_pos hall, List.dropWhile_cons_of_neg (by simp)]
    have htake : (body ++ '\x7d' :: after).takeWhile (· != '\x7d') = body := by
      rw [List.takeWhile_append_of_pos hall, List.takeWhile_cons_of_neg (by simp), List.append_nil]
    cases hcs : body ++ '\x7d' :: after with
    | nil => cases body <;> cases hcs
    | cons c cs =>
      have hc : (c = '\x7d' || isBlank c) = true := by
        cases body with
        | nil =>
          cases hcs
          rfl
        | cons b body =>
          cases hcs
          rw [hhead c rfl, Bool.or_true]
      rw [bodyAt?, if_pos hc, ← hcs, hdrop, htake]

theorem inlineTagAt?_eq_some_iff {cs after : List Char} {t : Token} :
    inlineTagAt? cs = some (t, after) ↔ ∃ c name body, isAsciiLetter c = true ∧
      (∀ d ∈ name, isWord d = true) ∧ IsTagBody body ∧ t = .inlineTag (c :: name) body ∧
      cs = '\x7b' :: '@' :: c :: name ++ body ++ '\x7d' :: after := by
  constructor
  · intro h
    unfold inlineTagAt? at h
    split at h
    · next b a c cs =>
      split at h
      · next hlead =>
        rw [Bool.and_eq_true, Bool.and_eq_true, decide_eq_true_eq, decide_eq_true_eq] at hlead
        obtain ⟨⟨rfl, rfl⟩, hc⟩ := hlead
        obtain ⟨⟨body, rest⟩, hbody, heq⟩ := Option.map_eq_some_iff.mp h
        cases heq
        obtain ⟨hbody, hdrop⟩ := bodyAt?_eq_some_iff.mp hbody
        refine ⟨c, cs.takeWhile isWord, body, hc, List.all_eq_true.mp List.all_takeWhile, hbody, rfl, ?_⟩
        rw [List.append_assoc, ← hdrop, List.cons_append, List.cons_append, List.cons_append,
          List.takeWhile_append_dropWhile]
      · cases h
    · cases h
  · rintro ⟨c, name, body, hc, hname, hbody, rfl, rfl⟩
    have hend : ∀ d ∈ (body ++ '\x7d' :: after).head?, ¬isWord d = true := by
      intro d hd
      cases body with
      | nil =>
        cases hd
        decide
      | cons b body =>
        cases hd
        rw [isWord_eq_false_of_isBlank (hbody.1 d rfl)]
        exact Bool.false_ne_true
    have hdrop : (name ++ (body ++ '\x7d' :: after)).dropWhile isWord = body ++ '\x7d' :: after := by
      rw [List.dropWhile_append_of_pos hname]
      cases hrest : body ++ '\x7d' :: after with
      | nil => rfl
      | cons d rest => exact List.dropWhile_cons_of_neg (hend d (by rw [hrest]; rfl))
    have htake : (name ++ (body ++ '\x7d' :: after)).takeWhile isWord = name := by
      rw [List.takeWhile_append_of_pos hname]
      cases hrest : body ++ '\x7d' :: after with
      | nil => exact List.append_nil name
      | cons d rest =>
        rw [List.takeWhile_cons_of_neg (hend d (by rw [hrest]; rfl)), List.append_nil]
    simp only [List.cons_append, List.append_assoc, inlineTagAt?, hc, decide_true, Bool.and_true, if_true,
      hdrop, htake, bodyAt?_eq_some_iff.mpr ⟨hbody, rfl⟩, Option.map_some]

end RefCheck.Comment
