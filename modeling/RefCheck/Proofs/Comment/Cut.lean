import RefCheck.Proofs.Comment.Tokens

/-!
# Comment text as a row of pieces

What cutting a text into parts does, said without the functions that do it. `IsToken` is the grammar of code
and inline tags, one constructor for each form; `IsCut` says which rows of pieces are a cut: no token starts
inside plain text, and plain texts do not stand side by side. `parseParts_cut` finds such a row for every text,
with nothing lost between the pieces, and every token of the text is a piece of it unless it starts inside
another one.

Where three back-ticks stand, two of them would also be a code span. So the grammar has one condition on what
follows a token, and with it at most one token starts at each place (`isToken_iff`).
-/

namespace RefCheck.Comment

open RefCheck.Text

/-! ## The grammar of tokens -/

/-- A piece of text before `after` that is code or an inline tag, and the part it stands for. -/
inductive IsToken : (piece after : List Char) → Part → Prop
  /-- Fenced code: three back-ticks, up to and including the next three. -/
  | fenced {inner after : List Char}
    (hnext : ∀ before more, inner ++ fence = before ++ fence ++ more → more = []) :
    IsToken (fence ++ (inner ++ fence)) after
      ⟨.code, String.ofList (fence ++ (inner ++ fence)), .null⟩
  /-- Fenced code that runs to the end of the text. -/
  | unended {inner : List Char} (hnone : ¬fence <:+: inner) :
    IsToken (fence ++ inner) [] ⟨.code, String.ofList (fence ++ inner), .null⟩
  /-- A code span, where no fenced code starts. -/
  | span {cs after : List Char} (hspan : ∀ c ∈ cs, c ≠ backtick ∧ c ≠ '\n')
    (hfence : ¬fence <+: backtick :: cs ++ backtick :: after) :
    IsToken (backtick :: cs ++ [backtick]) after
      ⟨.code, String.ofList (backtick :: cs ++ [backtick]), .null⟩
  /-- An inline tag without a body. -/
  | bareTag {c : Char} {name after : List Char} (hc : isAsciiLetter c = true)
    (hname : ∀ d ∈ name, isWord d = true) :
    IsToken ('\x7b' :: '@' :: c :: name ++ ['\x7d']) after
      ⟨.inlineTag, "", .str (String.ofList ('@' :: c :: name))⟩
  /-- An inline tag with a blank and a body after its name. -/
  | tag {c b : Char} {name body after : List Char} (hc : isAsciiLetter c = true)
    (hname : ∀ d ∈ name, isWord d = true) (hb : isBlank b = true) (hbody : '\x7d' ∉ body) :
    IsToken ('\x7b' :: '@' :: c :: name ++ b :: body ++ ['\x7d']) after
      ⟨.inlineTag, String.ofList (trim body), .str (String.ofList ('@' :: c :: name))⟩

/-- Some token starts at the start of the text. -/
def StartsToken (cs : List Char) : Prop := ∃ piece after part, cs = piece ++ after ∧ IsToken piece after part

theorem IsToken.kind_ne {piece after : List Char} {part : Part} (h : IsToken piece after part) :
    part.kind ≠ .text := by
  cases h <;> exact PartKind.noConfusion

theorem IsToken.ne_nil {piece after : List Char} {part : Part} (h : IsToken piece after part) :
    piece ≠ [] := by
  cases h <;> exact List.cons_ne_nil _ _

/-! ### Where fenced code ends -/

/-- The first three back-ticks that stand in a row end fenced code. -/
theorem spanFence_of_next {inner : List Char}
    (h : ∀ before more, inner ++ fence = before ++ fence ++ more → more = []) (after : List Char) :
    spanFence (inner ++ fence ++ after) = (inner ++ fence, after) := by
  induction inner with
  | nil => exact spanFence_fence after
  | cons c inner ih =>
    have htail := ih fun before more hsplit ↦
      h (c :: before) more (by rw [List.cons_append, hsplit]; rfl)
    have hlead : dropLead? fence (c :: (inner ++ fence ++ after)) = none := by
      rw [Option.eq_none_iff_forall_ne_some]
      intro rest hrest
      have hboth : c :: inner ++ fence ++ after = fence ++ rest := dropLead?_eq_some_iff.mp hrest
      -- three back-ticks at the start would leave something before the last three
      obtain ⟨more, hmore, -⟩ | ⟨more, hmore, -⟩ := List.append_eq_append_iff.mp hboth
      · have hlength := congrArg List.length hmore
        simp [fence] at hlength
        omega
      · obtain rfl := h [] more hmore
        have hlength := congrArg List.length hmore
        simp [fence] at hlength
    rw [List.cons_append, List.cons_append, spanFence, hlead, htail]

/-- Fenced code ends with the next three back-ticks, or there are none. -/
theorem spanFence_cases (cs : List Char) :
    (∃ inner, (spanFence cs).1 = inner ++ fence ∧
      ∀ before more, inner ++ fence = before ++ fence ++ more → more = []) ∨
    (spanFence cs).2 = [] ∧ ¬fence <:+: (spanFence cs).1 := by
  induction cs with
  | nil => exact .inr ⟨rfl, by decide⟩
  | cons c cs ih =>
    cases hlead : dropLead? fence (c :: cs) with
    | some rest =>
      have hspan : spanFence (c :: cs) = (fence, rest) := by rw [spanFence, hlead]
      refine .inl ⟨[], by rw [hspan, List.nil_append], fun before more hsplit ↦ ?_⟩
      have hlength := congrArg List.length hsplit
      rw [List.nil_append, List.length_append, List.length_append] at hlength
      exact List.length_eq_zero_iff.mp (by omega)
    | none =>
      have hspan : spanFence (c :: cs) = (c :: (spanFence cs).1, (spanFence cs).2) := by
        rw [spanFence, hlead]
      have hstart : ∀ more, c :: (spanFence cs).1 ≠ fence ++ more := by
        intro more hmore
        have hsome : dropLead? fence (c :: cs) = some (more ++ (spanFence cs).2) := by
          rw [dropLead?_eq_some_iff, ← List.append_assoc, ← hmore, List.cons_append, spanFence_append]
        rw [hlead] at hsome
        cases hsome
      rw [hspan]
      rcases ih with ⟨inner, hinner, hnext⟩ | ⟨hnil, hnone⟩
      · refine .inl ⟨c :: inner, by rw [hinner, List.cons_append], fun before more hsplit ↦ ?_⟩
        cases before with
        | nil => exact absurd hsplit (by rw [List.cons_append, ← hinner]; exact hstart more)
        | cons d before =>
          rw [List.cons_append, List.cons_append, List.cons_append, List.cons.injEq] at hsplit
          exact hnext before more hsplit.2
      · refine .inr ⟨hnil, fun hopened ↦ ?_⟩
        rcases List.infix_cons_iff.mp hopened with ⟨more, hmore⟩ | hopened
        · exact hstart more hmore.symm
        · exact hnone hopened

/-! ### One token at a place -/

theorem trim_cons_of_isBlank {b : Char} (hb : isBlank b = true) (cs : List Char) :
    trim (b :: cs) = trim cs :=
  trim_blanks_left (List.forall_mem_singleton.mpr hb) cs

theorem tokenAt?_of_isToken {piece after : List Char} {part : Part} (h : IsToken piece after part) :
    ∃ t, tokenAt? (piece ++ after) = some (t, after) ∧ t.source = piece ∧ t.toPart = part := by
  cases h with
  | @fenced inner _ hnext =>
    refine ⟨.code (fence ++ (inner ++ fence)), ?_, rfl, rfl⟩
    rw [List.append_assoc, tokenAt?_fence, spanFence_of_next hnext]
  | @unended inner hnone =>
    have hspan : spanFence (inner ++ []) = (inner ++ (spanFence []).1, (spanFence []).2) :=
      spanFence_append_of_not_infix hnone (by simp)
    rw [List.append_nil, spanFence, List.append_nil] at hspan
    refine ⟨.code (fence ++ inner), ?_, rfl, rfl⟩
    rw [List.append_nil, tokenAt?_fence, hspan]
  | @span cs _ hspan hfence =>
    have hlead : dropLead? fence (backtick :: cs ++ [backtick] ++ after) = none := by
      rw [Option.eq_none_iff_forall_ne_some]
      intro rest hrest
      refine hfence ⟨rest, ?_⟩
      rw [← dropLead?_eq_some_iff.mp hrest, List.append_assoc, List.singleton_append]
    have hcut : spanAt? (backtick :: cs ++ [backtick] ++ after)
        = some (.code (backtick :: cs ++ [backtick]), after) := by
      refine spanAt?_eq_some_iff.mpr ⟨cs, fun c hc ↦ ?_, rfl, by rw [List.append_assoc]; rfl⟩
      simpa [inSpan] using hspan c hc
    refine ⟨.code (backtick :: cs ++ [backtick]), ?_, rfl, rfl⟩
    rw [tokenAt?, fenceAt?, hlead, Option.map_none, hcut]
  | @bareTag c name _ hc hname =>
    have hcut : inlineTagAt? ('\x7b' :: '@' :: c :: name ++ ['\x7d'] ++ after)
        = some (.inlineTag (c :: name) [], after) := by
      refine inlineTagAt?_eq_some_iff.mpr ⟨c, name, [], hc, hname, ⟨?_, List.not_mem_nil⟩, rfl, ?_⟩
      · exact fun d hd ↦ absurd hd (Option.not_mem_none d)
      · rw [List.append_nil, List.append_assoc, List.singleton_append]
    refine ⟨.inlineTag (c :: name) [], ?_, ?_, rfl⟩
    · exact (tokenAt?_brace _).trans hcut
    · rw [Token.source, List.append_nil]
  | @tag c b name body _ hc hname hb hbody =>
    have hcut : inlineTagAt? ('\x7b' :: '@' :: c :: name ++ b :: body ++ ['\x7d'] ++ after)
        = some (.inlineTag (c :: name) (b :: body), after) := by
      refine inlineTagAt?_eq_some_iff.mpr
        ⟨c, name, b :: body, hc, hname, ⟨fun d hd ↦ ?_, fun hmem ↦ ?_⟩, rfl, ?_⟩
      · rwa [← Option.some.inj hd]
      · rcases List.mem_cons.mp hmem with rfl | hmem
        · exact absurd hb (by decide)
        · exact hbody hmem
      · rw [List.append_assoc, List.singleton_append]
    refine ⟨.inlineTag (c :: name) (b :: body), ?_, rfl, by rw [Token.toPart, trim_cons_of_isBlank hb]⟩
    exact (tokenAt?_brace _).trans hcut

theorem isToken_of_tokenAt? {cs after : List Char} {t : Token} (h : tokenAt? cs = some (t, after)) :
    IsToken t.source after t.toPart := by
  cases hlead : dropLead? fence cs with
  | some inner =>
    obtain rfl := dropLead?_eq_some_iff.mp hlead
    rw [tokenAt?_fence] at h
    cases h
    rcases spanFence_cases inner with ⟨code, hcode, hnext⟩ | ⟨hnil, hnone⟩
    · rw [hcode]
      exact .fenced hnext
    · rw [hnil]
      exact .unended hnone
  | none =>
    rcases spanAt?_or_inlineTagAt? hlead h with hspan | htag
    · obtain ⟨span, hinner, rfl, rfl⟩ := spanAt?_eq_some_iff.mp hspan
      refine .span (fun c hc ↦ by simpa [inSpan] using hinner c hc) ?_
      rintro ⟨rest, hrest⟩
      rw [dropLead?_eq_some_iff.mpr hrest.symm] at hlead
      cases hlead
    · obtain ⟨c, name, body, hc, hname, hbody, rfl, rfl⟩ := inlineTagAt?_eq_some_iff.mp htag
      cases body with
      | nil =>
        rw [Token.source, List.append_nil]
        exact .bareTag hc hname
      | cons b body =>
        have hb := hbody.1 b rfl
        rw [Token.toPart, trim_cons_of_isBlank hb]
        exact .tag hc hname hb fun hmem ↦ hbody.2 (List.mem_cons_of_mem b hmem)

/-- **The grammar is what is looked for**, so at most one token starts at a place. -/
theorem isToken_iff {piece after : List Char} {part : Part} : IsToken piece after part ↔
    ∃ t, tokenAt? (piece ++ after) = some (t, after) ∧ t.source = piece ∧ t.toPart = part := by
  refine ⟨tokenAt?_of_isToken, ?_⟩
  rintro ⟨t, ht, rfl, rfl⟩
  exact isToken_of_tokenAt? ht

theorem IsToken.unique {piece after piece' after' : List Char} {part part' : Part}
    (h : IsToken piece after part) (h' : IsToken piece' after' part')
    (hsame : piece ++ after = piece' ++ after') : piece = piece' ∧ part = part' := by
  obtain ⟨t, ht, rfl, rfl⟩ := tokenAt?_of_isToken h
  obtain ⟨t', ht', rfl, rfl⟩ := tokenAt?_of_isToken h'
  rw [hsame, ht'] at ht
  cases ht
  exact ⟨rfl, rfl⟩

theorem startsToken_iff {cs : List Char} : StartsToken cs ↔ tokenAt? cs ≠ none := by
  constructor
  · rintro ⟨piece, after, part, rfl, htoken⟩
    obtain ⟨t, ht, -, -⟩ := tokenAt?_of_isToken htoken
    rw [ht]
    exact Option.some_ne_none _
  · intro hne
    obtain ⟨⟨t, after⟩, ht⟩ := Option.ne_none_iff_exists'.mp hne
    exact ⟨t.source, after, t.toPart, (tokenAt?_source ht).1, isToken_of_tokenAt? ht⟩

/-! ## Rows of pieces -/

/-- The text that the pieces make up. -/
def textOf (cut : List (List Char × Part)) : List Char := cut.flatMap Prod.fst

/-- Pieces of a text in a row, each with the part it stands for. -/
inductive IsCut : List (List Char × Part) → Prop
  /-- The empty text has no piece. -/
  | nil : IsCut []
  /-- Plain text: no token starts anywhere in it, and no plain text follows. -/
  | plain {cs : List Char} {rest : List (List Char × Part)} (hne : cs ≠ [])
    (hnone : ∀ before after, cs = before ++ after → after ≠ [] → ¬StartsToken (after ++ textOf rest))
    (hnext : ∀ next ∈ rest.head?, next.2.kind ≠ .text) (hrest : IsCut rest) :
    IsCut ((cs, ⟨.text, String.ofList cs, .null⟩) :: rest)
  /-- Code or an inline tag. -/
  | token {piece : List Char} {part : Part} {rest : List (List Char × Part)}
    (htoken : IsToken piece (textOf rest) part) (hrest : IsCut rest) : IsCut ((piece, part) :: rest)

theorem IsCut.ne_nil {cut : List (List Char × Part)} (h : IsCut cut) : ∀ e ∈ cut, e.1 ≠ [] := by
  induction h with
  | nil => exact fun e he ↦ absurd he List.not_mem_nil
  | plain hne _ _ _ ih => exact List.forall_mem_cons.mpr ⟨hne, ih⟩
  | token htoken _ ih => exact List.forall_mem_cons.mpr ⟨htoken.ne_nil, ih⟩

/-- The pieces that a text is cut into. -/
def cutOf (cs : List Char) : List (List Char × Part) := (tokens cs).map fun t ↦ (t.source, t.toPart)

theorem textOf_cutOf (cs : List Char) : textOf (cutOf cs) = cs := by
  rw [textOf, cutOf, List.flatMap_map]
  exact source_tokens cs

theorem parts_cutOf (cs : List Char) : (cutOf cs).map Prod.snd = partsOf cs := by
  rw [cutOf, List.map_map]
  rfl

/-- A character at which no token starts joins the plain text after it. -/
theorem isCut_pushText {c : Char} {ts : List Token}
    (h : IsCut (ts.map fun t ↦ (t.source, t.toPart)))
    (hnone : ¬StartsToken (c :: textOf (ts.map fun t ↦ (t.source, t.toPart)))) :
    IsCut ((pushText c ts).map fun t ↦ (t.source, t.toPart)) := by
  have halone : (∀ next ∈ (ts.map fun t ↦ (t.source, t.toPart)).head?, next.2.kind ≠ .text) →
      IsCut (([c], ⟨.text, String.ofList [c], .null⟩) :: ts.map fun t ↦ (t.source, t.toPart)) := by
    refine fun hnext ↦ .plain (List.cons_ne_nil c []) (fun before after hsplit hafter ↦ ?_) hnext h
    rcases List.cons_eq_append_iff.mp hsplit with ⟨-, rfl⟩ | ⟨_, -, hnil⟩
    · exact hnone
    · exact absurd (List.append_eq_nil_iff.mp hnil.symm).2 hafter
  cases ts with
  | nil => exact halone fun next hnext ↦ absurd hnext (Option.not_mem_none next)
  | cons t ts =>
    cases t with
    | text cs =>
      rw [List.map_cons] at h hnone
      cases h with
      | plain hne hrest hnext htail =>
        refine .plain (List.cons_ne_nil c cs) (fun before after hsplit hafter ↦ ?_) hnext htail
        rcases List.cons_eq_append_iff.mp hsplit with ⟨-, rfl⟩ | ⟨before', -, hcs⟩
        · exact hnone
        · exact hrest before' after hcs hafter
      | token htoken _ => exact absurd rfl htoken.kind_ne
    | code cs => exact halone fun next hnext ↦ by cases hnext; exact PartKind.noConfusion
    | inlineTag name rest => exact halone fun next hnext ↦ by cases hnext; exact PartKind.noConfusion

/-- **Cutting a text makes a cut.** -/
theorem isCut_cutOf (cs : List Char) : IsCut (cutOf cs) := by
  induction cs using tokens.induct with
  | case1 =>
    rw [cutOf, tokens]
    exact .nil
  | case2 c rest t after h ih =>
    rw [cutOf, tokens_cons_of_eq_some h, List.map_cons]
    refine .token ?_ ih
    rw [← cutOf, textOf_cutOf]
    exact isToken_of_tokenAt? h
  | case3 c rest h ih =>
    rw [cutOf, tokens_cons_of_eq_none h]
    refine isCut_pushText ih ?_
    rw [← cutOf, textOf_cutOf, startsToken_iff, not_not]
    exact h

/-! ## Every token is found -/

/-- A piece of the row starts after `n` characters. -/
def FoundAt (cut : List (List Char × Part)) (n : Nat) (e : List Char × Part) : Prop :=
  ∃ before after, cut = before ++ e :: after ∧ (textOf before).length = n

/-- After `n` characters the text is inside code or an inline tag. -/
def InsideToken (cut : List (List Char × Part)) (n : Nat) : Prop :=
  ∃ before e after, cut = before ++ e :: after ∧ e.2.kind ≠ .text ∧
    (textOf before).length < n ∧ n < (textOf before).length + e.1.length

theorem textOf_append (a b : List (List Char × Part)) : textOf (a ++ b) = textOf a ++ textOf b :=
  List.flatMap_append

theorem textOf_cons (e : List Char × Part) (cut : List (List Char × Part)) :
    textOf (e :: cut) = e.1 ++ textOf cut := rfl

/-- No piece starts inside another. -/
theorem not_insideToken_of_foundAt {cut : List (List Char × Part)} {n : Nat} {e : List Char × Part}
    (h : FoundAt cut n e) : ¬InsideToken cut n := by
  obtain ⟨before, after, rfl, rfl⟩ := h
  rintro ⟨before', e', after', hcut, -, hlt, hlt'⟩
  rcases List.append_eq_append_iff.mp hcut with ⟨more, rfl, -⟩ | ⟨more, rfl, hmore⟩
  · rw [textOf_append, List.length_append] at hlt
    omega
  · cases more with
    | nil =>
      rw [List.append_nil] at hlt
      omega
    | cons d more =>
      obtain ⟨rfl, -⟩ := List.cons.inj hmore
      rw [textOf_append, textOf_cons, List.length_append, List.length_append] at hlt'
      omega

theorem FoundAt.cons {cut : List (List Char × Part)} {n : Nat} {e first : List Char × Part}
    (h : FoundAt cut n e) : FoundAt (first :: cut) (first.1.length + n) e := by
  obtain ⟨before, after, rfl, rfl⟩ := h
  exact ⟨first :: before, after, rfl, by rw [textOf_cons, List.length_append]⟩

theorem InsideToken.cons {cut : List (List Char × Part)} {n : Nat} {first : List Char × Part}
    (h : InsideToken cut n) : InsideToken (first :: cut) (first.1.length + n) := by
  obtain ⟨before, e, after, rfl, hkind, hlt, hlt'⟩ := h
  refine ⟨first :: before, e, after, rfl, hkind, ?_, ?_⟩
  · rw [textOf_cons, List.length_append]
    omega
  · rw [textOf_cons, List.length_append]
    omega

/-- **A token that does not start inside another is found.** -/
theorem foundAt_of_isToken {cut : List (List Char × Part)} (h : IsCut cut)
    {before piece after : List Char} {part : Part} (htext : textOf cut = before ++ (piece ++ after))
    (htoken : IsToken piece after part) (hout : ¬InsideToken cut before.length) :
    FoundAt cut before.length (piece, part) := by
  induction h generalizing before with
  | nil =>
    have hnil := (List.append_eq_nil_iff.mp (List.append_eq_nil_iff.mp htext.symm).2).1
    exact absurd hnil htoken.ne_nil
  | @plain cs rest hne hnone hnext hrest ih =>
    rw [textOf_cons] at htext
    rcases List.append_eq_append_iff.mp htext with ⟨before', rfl, hrest'⟩ | ⟨inner, hcs, hinner⟩
    · rw [List.length_append] at hout ⊢
      exact (ih hrest' fun hin ↦ hout hin.cons).cons
    · -- no token starts in plain text, so nothing of it is left
      by_cases hnil : inner = []
      · subst hnil
        rw [List.append_nil] at hcs
        rw [List.nil_append] at hinner
        have hlength : before.length = cs.length + 0 := by rw [← hcs, Nat.add_zero]
        rw [hlength] at hout ⊢
        have hfound : FoundAt rest ([] : List Char).length (piece, part) :=
          ih hinner.symm fun hin ↦ hout hin.cons
        exact hfound.cons
      · exact absurd ⟨piece, after, part, hinner.symm, htoken⟩ (hnone before inner hcs hnil)
  | @token first firstPart rest hfirst hrest ih =>
    rw [textOf_cons] at htext
    rcases List.append_eq_append_iff.mp htext with ⟨before', rfl, hrest'⟩ | ⟨inner, hcs, hinner⟩
    · rw [List.length_append] at hout ⊢
      exact (ih hrest' fun hin ↦ hout hin.cons).cons
    · cases before with
      | nil =>
        obtain ⟨rfl, rfl⟩ := htoken.unique hfirst (by rw [htext, List.nil_append])
        exact ⟨[], rest, rfl, rfl⟩
      | cons d before =>
        by_cases hnil : inner = []
        · subst hnil
          rw [List.append_nil] at hcs
          rw [List.nil_append] at hinner
          have hlength : (d :: before).length = first.length + 0 := by rw [← hcs, Nat.add_zero]
          rw [hlength] at hout ⊢
          have hfound : FoundAt rest ([] : List Char).length (piece, part) :=
            ih hinner.symm fun hin ↦ hout hin.cons
          exact hfound.cons
        · refine absurd ⟨[], (first, firstPart), rest, rfl, hfirst.kind_ne, Nat.succ_pos _, ?_⟩ hout
          have hpos := List.length_pos_iff.mpr hnil
          have hlength : first.length = (d :: before ++ inner).length := congrArg List.length hcs
          rw [List.length_append] at hlength
          show _ < 0 + first.length
          omega

/-- **Cutting loses nothing and finds every token.** The parts of a text stand for pieces that make it up in a
row; in a piece of plain text no token starts, and a token of the text is one of the pieces exactly if it does
not start inside code or inside an earlier inline tag. -/
theorem parseParts_cut (s : String) : ∃ cut, cut.map Prod.snd = parseParts s ∧ textOf cut = s.toList ∧
    IsCut cut ∧ (∀ e ∈ cut, e.1 ≠ []) ∧
      ∀ before piece after part, s.toList = before ++ (piece ++ after) → IsToken piece after part →
        (FoundAt cut before.length (piece, part) ↔ ¬InsideToken cut before.length) := by
  have hcut := isCut_cutOf s.toList
  refine ⟨cutOf s.toList, parts_cutOf s.toList, textOf_cutOf s.toList, hcut, hcut.ne_nil, ?_⟩
  intro before piece after part hsplit htoken
  have htext : textOf (cutOf s.toList) = before ++ (piece ++ after) := (textOf_cutOf _).trans hsplit
  exact ⟨not_insideToken_of_foundAt, foundAt_of_isToken hcut htext htoken⟩

end RefCheck.Comment
