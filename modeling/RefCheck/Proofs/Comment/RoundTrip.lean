import RefCheck.Proofs.Comment.Decorated
import RefCheck.Proofs.Comment.Written

/-!
# Written comments are read back

`parse_write`: a canonical comment comes back when the text it is written in is read. The two readings of the
text are treated apart. The cutting into tokens finds each part of a section where it was written
(`partsOf_sourceOf`). The layout finds the sections, because the lines of a section open no block tag and
leave no fenced code open (`quiet_sourceOf`).
-/

namespace RefCheck.Comment

open RefCheck.Text

/-! ## Cutting a section into parts -/

theorem sourceOf_cons (p : Part) (parts : List Part) :
    sourceOf (p :: parts) = sourceOfPart p ++ sourceOf parts := rfl

/-- A part other than plain text is cut off where it was written. -/
theorem tokenAt?_sourceOfPart {p : Part} (h : IsCanonicalPart p) (hkind : p.kind ≠ .text)
    (rest : List Char) : ∃ t, tokenAt? (sourceOfPart p ++ rest) = some (t, rest) ∧ t.toPart = p := by
  cases h with
  | text => exact absurd rfl hkind
  | @span cs hne hspan =>
    refine ⟨.code (backtick :: cs ++ [backtick]), ?_, rfl⟩
    have hlead : dropLead? fence (backtick :: cs ++ [backtick] ++ rest) = none := by
      cases cs with
      | nil => exact absurd rfl hne
      | cons c cs =>
        have hc : c ≠ backtick := by
          rintro rfl
          exact absurd (hspan backtick List.mem_cons_self) (by decide)
        simp only [fence, List.cons_append, dropLead?, if_true, if_neg (Ne.symm hc)]
    have hcut : spanAt? (backtick :: cs ++ [backtick] ++ rest)
        = some (.code (backtick :: cs ++ [backtick]), rest) :=
      spanAt?_eq_some_iff.mpr ⟨cs, hspan, rfl, by rw [List.append_assoc]; rfl⟩
    rw [sourceOfPart, String.toList_ofList, tokenAt?, fenceAt?, hlead, Option.map_none, hcut]
  | @fenced cs hback =>
    refine ⟨.code (fence ++ cs ++ '\n' :: fence), ?_, rfl⟩
    have hback' : backtick ∉ cs ++ ['\n'] := by
      rw [List.mem_append, List.mem_singleton]
      exact fun hmem ↦ hmem.elim hback (absurd · (by decide))
    have hspan := spanFence_append_fence hback' rest
    have hsource : fence ++ cs ++ '\n' :: fence ++ rest = fence ++ (cs ++ ['\n'] ++ fence ++ rest) := by
      simp only [List.append_assoc, List.cons_append, List.nil_append]
    rw [sourceOfPart, String.toList_ofList, hsource, tokenAt?_fence, hspan]
    simp only [List.append_assoc, List.cons_append, List.nil_append]
  | @inlineTag c name body hc hname htrim hbody =>
    -- what stands between the name and the closing brace
    have hrest : ∃ between, (if body = [] then [] else ' ' :: body) = between ∧ IsTagBody between ∧
        trim between = body := by
      refine ⟨_, rfl, ?_⟩
      cases body with
      | nil => exact ⟨⟨fun d hd ↦ absurd hd (Option.not_mem_none d), List.not_mem_nil⟩, rfl⟩
      | cons b body =>
        rw [if_neg (List.cons_ne_nil b body)]
        refine ⟨⟨fun d hd ↦ by cases hd; rfl, ?_⟩, ?_⟩
        · exact fun hmem ↦ (List.mem_cons.mp hmem).elim (absurd · (by decide)) hbody
        · have hblank : ∀ d ∈ [' '], isBlank d = true := fun d hd ↦ by
            rw [List.mem_singleton.mp hd]
            rfl
          have htrim' := trim_blanks_append htrim hblank fun d hd ↦ absurd hd List.not_mem_nil
          rwa [List.append_nil] at htrim'
    obtain ⟨between, hbetween, htag, htrim'⟩ := hrest
    refine ⟨.inlineTag (c :: name) between, ?_, by rw [Token.toPart, htrim']⟩
    have hcut : inlineTagAt? ('\x7b' :: '@' :: c :: name ++ between ++ '\x7d' :: rest)
        = some (.inlineTag (c :: name) between, rest) :=
      inlineTagAt?_eq_some_iff.mpr ⟨c, name, between, hc, hname, htag, rfl, rfl⟩
    have hsource : sourceOfPart ⟨.inlineTag, String.ofList body, .str (String.ofList ('@' :: c :: name))⟩
        ++ rest = '\x7b' :: '@' :: c :: name ++ between ++ '\x7d' :: rest := by
      simp only [sourceOfPart, tagChars, String.toList_ofList, hbetween, List.append_assoc,
        List.cons_append, List.nil_append]
    rw [hsource, ← hcut]
    rfl

/-- Plain text is one token if no plain text follows it. -/
theorem tokens_text_append {cs rest : List Char} (hne : cs ≠ []) (hback : backtick ∉ cs)
    (hopen : ¬['\x7b', '@'] <:+: cs) (hat : rest.head? ≠ some '@')
    (hnext : ∀ t ∈ (tokens rest).head?, ∀ source, t ≠ .text source) :
    tokens (cs ++ rest) = .text cs :: tokens rest := by
  have hcut : cutText (tokens rest) = ([], tokens rest) := by
    cases htokens : tokens rest with
    | nil => rfl
    | cons t ts =>
      cases t with
      | text source => exact absurd rfl (hnext (.text source) (by rw [htokens]; rfl) source)
      | code source => rfl
      | inlineTag name body => rfl
  rw [tokens_append_of_plain hback hopen hat, foldr_pushText hne, hcut, List.append_nil]

/-- A part other than plain text is not written with an at sign first. -/
theorem head?_sourceOf_ne {parts : List Part} (h : ∀ p ∈ parts, IsCanonicalPart p)
    (hkind : ∀ p ∈ parts.head?, p.kind ≠ .text) : (sourceOf parts).head? ≠ some '@' := by
  cases parts with
  | nil => exact (Option.some_ne_none '@').symm
  | cons p parts =>
    have hp := h p List.mem_cons_self
    have hne := hkind p rfl
    cases hp with
    | text => exact absurd rfl hne
    | span => simp [sourceOf_cons, sourceOfPart, backtick]
    | fenced => simp [sourceOf_cons, sourceOfPart, fence, backtick]
    | inlineTag => simp [sourceOf_cons, sourceOfPart]

/-- **The parts of a section come back** when its text is cut into tokens. -/
theorem partsOf_sourceOf {parts : List Part} (h : ∀ p ∈ parts, IsCanonicalPart p)
    (hapart : TextsApart parts) : partsOf (sourceOf parts) = parts := by
  induction parts with
  | nil => simp [partsOf, sourceOf, tokens]
  | cons p parts ih =>
    obtain ⟨hnext, hapart⟩ := hapart
    have hparts : ∀ q ∈ parts, IsCanonicalPart q := fun q hq ↦ h q (List.mem_cons_of_mem p hq)
    have htail := ih hparts hapart
    rw [sourceOf_cons]
    by_cases hkind : p.kind = .text
    · have hp := h p List.mem_cons_self
      cases hp with
      | @text cs hne hback hopen =>
        have hat := head?_sourceOf_ne hparts (hnext hkind)
        have hcut : tokens (cs ++ sourceOf parts) = .text cs :: tokens (sourceOf parts) := by
          refine tokens_text_append hne hback hopen hat fun t ht source hsource ↦ ?_
          -- the first token of the rest is the part after the text, which is no text
          have hfirst : t.toPart ∈ parts.head? := by
            rw [← htail, partsOf, List.head?_map, Option.mem_def.mp ht]
            rfl
          exact hnext hkind _ hfirst (by rw [hsource]; rfl)
        rw [sourceOfPart, String.toList_ofList, partsOf, hcut, List.map_cons, ← partsOf, htail]
        rfl
      | span => cases hkind
      | fenced => cases hkind
      | inlineTag => cases hkind
    · obtain ⟨t, hcut, htoPart⟩ := tokenAt?_sourceOfPart (h p List.mem_cons_self) hkind (sourceOf parts)
      have hne : sourceOfPart p ++ sourceOf parts ≠ [] := by
        intro hnil
        rw [hnil] at hcut
        cases hcut
      obtain ⟨c, cs, hsource⟩ := List.exists_cons_of_ne_nil hne
      rw [hsource] at hcut
      rw [hsource, partsOf, tokens_cons_of_eq_some hcut, List.map_cons, ← partsOf, htail, htoPart]

/-! ## Reading a section line by line -/

theorem isPlain_nil : IsPlain [] := ⟨rfl, rfl⟩

theorem WholeLines.of_append {a b : List Char} {parts : List Part} (h : WholeLines (a ++ b) parts) :
    WholeLines b parts := by
  induction parts generalizing b with
  | nil => trivial
  | cons p parts ih =>
    obtain ⟨hp, hparts⟩ := h
    refine ⟨fun hfenced ↦ ⟨(hp hfenced).1.of_append, (hp hfenced).2⟩, ih ?_⟩
    rwa [← List.append_assoc]

/-- A canonical part that is fenced code ends the fenced code that it opens. -/
theorem quiet_fenced {p : Part} (h : IsCanonicalPart p) (hfenced : isFenced p = true) :
    Quiet false (pieces '\n' (sourceOfPart p)) false := by
  cases h with
  | text => cases hfenced
  | inlineTag => cases hfenced
  | @span cs hne hspan =>
    cases cs with
    | nil => exact absurd rfl hne
    | cons c cs =>
      have hc : ¬backtick = c := by
        rintro rfl
        exact absurd (hspan backtick List.mem_cons_self) (by decide)
      simp [isFenced, startsWith, fence, dropLead?, hc] at hfenced
  | @fenced cs hback =>
    have hfeed : '\n' ∉ fence := by decide
    cases hcs : pieces '\n' cs with
    | nil => exact absurd hcs (pieces_ne_nil '\n' cs)
    | cons first lines =>
      have hsource : pieces '\n' (fence ++ cs ++ '\n' :: fence)
          = [fence ++ first] ++ (lines ++ [fence]) := by
        rw [pieces_append_cons, pieces_append_of_eq_cons hfeed hcs, pieces_of_not_mem hfeed,
          List.cons_append, List.singleton_append]
      have hopens : opensFence (fence ++ first) = true := opensFence_eq_true_iff.mpr ⟨first, rfl⟩
      have hfirst : Quiet false [fence ++ first] (false != opensFence (fence ++ first)) := by
        refine quiet_singleton ?_
        cases htag : openingTag? (trim (fence ++ first)) with
        | none => rfl
        | some tag =>
          rw [opensFence_eq_false_of_openingTag? htag] at hopens
          cases hopens
      have hlast : Quiet true [fence] (true != opensFence fence) := quiet_singleton rfl
      have hlines : ∀ line ∈ lines, opensFence line = false := by
        intro line hline
        rw [← Bool.not_eq_true, opensFence_eq_true_iff]
        intro hlead
        have hmem : backtick ∈ line := (List.dropWhile_suffix isBlank).subset (hlead.subset (by decide))
        have hpiece : line ∈ pieces '\n' cs := by
          rw [hcs]
          exact List.mem_cons_of_mem first hline
        exact hback (mem_of_mem_pieces hpiece hmem)
      rw [sourceOfPart, String.toList_ofList, hsource]
      rw [hopens] at hfirst
      exact hfirst.append ((quiet_of_fenced hlines).append hlast)

/-- Lines without a block tag may be put before lines that are quiet. -/
theorem Quiet.startsLine {before rest cs : List Char} {after : Bool} (hstart : StartsLine before)
    (hplain : ∀ line ∈ pieces '\n' (before ++ rest), IsPlain line)
    (h : Quiet false (pieces '\n' cs) after) : Quiet false (pieces '\n' (before ++ cs)) after := by
  rcases hstart.eq_nil_or with rfl | ⟨lines, rfl⟩
  · exact h
  · rw [List.append_assoc, List.singleton_append, pieces_append_cons] at hplain ⊢
    exact (quiet_of_isPlain fun line hline ↦ hplain line (List.mem_append_left _ hline)).append h

/-- Quiet lines may follow quiet lines. -/
theorem Quiet.endsLine {fenced : Bool} {cs rest : List Char} (h : Quiet fenced (pieces '\n' cs) false)
    (hend : EndsLine rest) (hrest : Quiet false (pieces '\n' rest) false) :
    Quiet fenced (pieces '\n' (cs ++ rest)) false := by
  rcases hend.eq_nil_or with rfl | ⟨lines, rfl⟩
  · rwa [List.append_nil]
  · rw [pieces_append_cons]
    rw [pieces, if_pos rfl] at hrest
    exact h.append hrest.of_nil_cons

theorem mem_pieces_append {before rest line : List Char} (hstart : StartsLine before)
    (hline : line ∈ pieces '\n' rest) : line ∈ pieces '\n' (before ++ rest) := by
  rcases hstart.eq_nil_or with rfl | ⟨lines, rfl⟩
  · exact hline
  · rw [List.append_assoc, List.singleton_append, pieces_append_cons]
    exact List.mem_append_right _ hline

/-- **A section opens no block tag and leaves no fenced code open.** `before` is what is written before the
parts on the same line and on earlier lines. -/
theorem quiet_sourceOf {parts : List Part} {before : List Char} (h : ∀ p ∈ parts, IsCanonicalPart p)
    (hwhole : WholeLines before parts)
    (hplain : ∀ line ∈ pieces '\n' (before ++ outsideFences parts), IsPlain line) :
    Quiet false (pieces '\n' (before ++ sourceOf parts)) false := by
  induction parts generalizing before with
  | nil => exact quiet_of_isPlain hplain
  | cons p parts ih =>
    obtain ⟨hp, hwhole⟩ := hwhole
    have hparts : ∀ q ∈ parts, IsCanonicalPart q := fun q hq ↦ h q (List.mem_cons_of_mem p hq)
    cases hfenced : isFenced p with
    | false =>
      have houtside : outsideFences (p :: parts) = sourceOfPart p ++ outsideFences parts := by
        rw [outsideFences, List.filter_cons_of_pos (by rw [hfenced]; rfl)]
        rfl
      rw [houtside, ← List.append_assoc] at hplain
      rw [sourceOf_cons, ← List.append_assoc]
      exact ih hparts hwhole hplain
    | true =>
      have houtside : outsideFences (p :: parts) = outsideFences parts := by
        rw [outsideFences, List.filter_cons_of_neg (by rw [hfenced]; decide)]
        rfl
      obtain ⟨hstart, hend⟩ := hp hfenced
      rw [houtside] at hplain
      have hrest : Quiet false (pieces '\n' ([] ++ sourceOf parts)) false := by
        refine ih hparts ?_ fun line hline ↦ hplain line (mem_pieces_append hstart hline)
        exact WholeLines.of_append (by rwa [List.append_nil])
      have hpart := (quiet_fenced (h p List.mem_cons_self) hfenced).endsLine hend hrest
      exact hpart.startsLine hstart hplain

theorem onlyFeeds_outsideFences {parts : List Part} (h : OnlyFeeds (sourceOf parts)) :
    OnlyFeeds (outsideFences parts) := by
  intro c hc
  obtain ⟨p, hp, hcp⟩ := List.mem_flatMap.mp hc
  exact h c (List.mem_flatMap.mpr ⟨p, (List.mem_filter.mp hp).1, hcp⟩)

theorem IsCanonicalSection.splitLines_eq_pieces {parts : List Part} (h : IsCanonicalSection parts)
    (hne : sourceOf parts ≠ []) : splitLines (sourceOf parts) = pieces '\n' (sourceOf parts) := by
  rw [pieces_eq_splitLines h.only_feeds, if_neg (not_startsLine_of_trim h.trimmed hne),
    List.append_nil]

theorem IsCanonicalSection.quiet {parts : List Part} (h : IsCanonicalSection parts) :
    Quiet false (splitLines (sourceOf parts)) false := by
  by_cases hne : sourceOf parts = []
  · rw [hne]
    exact Quiet.nil false
  · rw [h.splitLines_eq_pieces hne]
    refine quiet_sourceOf h.canonical h.whole_lines fun line hline ↦ ?_
    rcases mem_splitLines_of_mem_pieces (onlyFeeds_outsideFences h.only_feeds) hline with hline | rfl
    · exact h.plain line hline
    · exact isPlain_nil

theorem IsCanonicalSection.joinLines_splitLines {parts : List Part} (h : IsCanonicalSection parts) :
    joinLines (splitLines (sourceOf parts)) = sourceOf parts := by
  by_cases hne : sourceOf parts = []
  · rw [hne]
    rfl
  · rw [h.splitLines_eq_pieces hne, joinLines_eq_joinWith, joinWith_pieces]

/-! ## Sections -/

/-- What the decoration leaves of the last line. -/
def closingLine : List Char := [' ']

/-- The text of a section comes back from its lines, after a first line that is empty and, at the end of a
comment, before the last one. -/
theorem IsCanonicalSection.sectionText_eq {parts : List Part} (h : IsCanonicalSection parts)
    {closing : List (List Char)} (hclosing : closing = [] ∨ closing = [closingLine]) :
    sectionText ([] :: (splitLines (sourceOf parts) ++ closing)) = sourceOf parts := by
  have hfeed : ∀ c ∈ ['\n'], isBlank c = true := List.forall_mem_singleton.mpr rfl
  rw [sectionText]
  by_cases hne : sourceOf parts = []
  · rw [hne]
    rcases hclosing with rfl | rfl <;> rfl
  · have hlines : splitLines (sourceOf parts) ≠ [] := splitLines_ne_nil h.only_feeds hne
    rcases hclosing with rfl | rfl
    · have hjoin : joinLines ([] :: splitLines (sourceOf parts)) = ['\n'] ++ (sourceOf parts ++ []) := by
        have happend := joinLines_append (List.cons_ne_nil [] []) hlines
        rw [h.joinLines_splitLines] at happend
        rw [List.append_nil]
        exact happend
      rw [List.append_nil, hjoin]
      exact trim_blanks_append h.trimmed hfeed fun c hc ↦ absurd hc List.not_mem_nil
    · have hjoin : joinLines ([] :: (splitLines (sourceOf parts) ++ [closingLine]))
          = ['\n'] ++ (sourceOf parts ++ '\n' :: closingLine) := by
        have happend := joinLines_append hlines (List.cons_ne_nil closingLine [])
        rw [h.joinLines_splitLines] at happend
        have hall := joinLines_append (List.cons_ne_nil [] [])
          (List.append_ne_nil_of_left_ne_nil hlines [closingLine])
        rw [happend] at hall
        exact hall
      rw [hjoin]
      refine trim_blanks_append h.trimmed hfeed fun c hc ↦ ?_
      rcases List.mem_cons.mp hc with rfl | hc
      · rfl
      · rw [List.mem_singleton.mp hc]
        rfl

theorem isBlank_eq_false_of_isTagChar {c : Char} (h : isTagChar c = true) : isBlank c = false := by
  cases hc : isBlank c with
  | false => rfl
  | true =>
    rw [isTagChar, isWord_eq_false_of_isBlank hc, Bool.false_or, beq_iff_eq] at h
    rw [h] at hc
    exact absurd hc (by decide)

theorem IsTagName.isBlank_eq_false {tag : Value} (h : IsTagName tag) :
    ∀ d ∈ tagChars tag, isBlank d = false := by
  cases h with
  | @mk c name hc hname =>
    rw [tagChars, String.toList_ofList]
    refine List.forall_mem_cons.mpr ⟨rfl, List.forall_mem_cons.mpr ⟨?_, fun d hd ↦ ?_⟩⟩
    · exact isBlank_eq_false_of_isTagChar (by rw [isTagChar, isWord_of_isAsciiLetter hc, Bool.true_or])
    · exact isBlank_eq_false_of_isTagChar (hname d hd)

/-- A line with nothing but the name of a block tag opens it. -/
theorem openingTag?_name {c : Char} {name : List Char} (hc : isAsciiLetter c = true)
    (hname : ∀ d ∈ name, isTagChar d = true) :
    openingTag? (trim ('@' :: c :: name)) = some (c :: name, []) := by
  have hblank := (IsTagName.mk hc hname).isBlank_eq_false
  rw [tagChars, String.toList_ofList] at hblank
  have hdrop : name.dropWhile isTagChar = [] := by
    rw [← List.append_nil name, List.dropWhile_append_of_pos hname, List.dropWhile_nil]
  have htake : name.takeWhile isTagChar = name := by
    have hsplit := List.takeWhile_append_dropWhile (p := isTagChar) (l := name)
    rwa [hdrop, List.append_nil] at hsplit
  rw [trim, trimStart_cons_of_not_blank rfl, trimEnd_of_forall_not_blank hblank, openingTag?, hc]
  simp only [hdrop, htake]
  rfl

/-- **The block tags come back** from their lines. -/
theorem sections_tagLines {tags : List BlockTag} (hnames : ∀ t ∈ tags, IsTagName t.tag)
    (hcontents : ∀ t ∈ tags, IsCanonicalSection t.content) :
    ((sections false (tags.flatMap tagLines ++ [closingLine])).1 = [] ∨
      (sections false (tags.flatMap tagLines ++ [closingLine])).1 = [closingLine]) ∧
    (sections false (tags.flatMap tagLines ++ [closingLine])).2.map toBlockTag = tags := by
  induction tags with
  | nil => exact ⟨.inr rfl, rfl⟩
  | cons t tags ih =>
    obtain ⟨hclosing, htags⟩ := ih (fun u hu ↦ hnames u (List.mem_cons_of_mem t hu))
      fun u hu ↦ hcontents u (List.mem_cons_of_mem t hu)
    have hcontent := hcontents t List.mem_cons_self
    have hname := hnames t List.mem_cons_self
    obtain ⟨tag, content⟩ := t
    cases hname with
    | @mk c name hc hname =>
      have hopen := openingTag?_name hc hname
      have hlines : (⟨.str (String.ofList ('@' :: c :: name)), content⟩ :: tags).flatMap tagLines
          ++ [closingLine] = ('@' :: c :: name) :: (splitLines (sourceOf content)
            ++ (tags.flatMap tagLines ++ [closingLine])) := by
        rw [List.flatMap_cons, tagLines, tagChars, String.toList_ofList, List.cons_append,
          List.cons_append, List.append_assoc]
      have hopen' : (if false then none else openingTag? (trim ('@' :: c :: name)))
          = some (c :: name, []) := hopen
      have hsections := sections_cons_of_eq_some hopen'
        (splitLines (sourceOf content) ++ (tags.flatMap tagLines ++ [closingLine]))
      rw [opensFence_eq_false_of_openingTag? hopen, Bool.bne_false, hcontent.quiet] at hsections
      rw [hlines, hsections]
      refine ⟨.inl rfl, ?_⟩
      rw [List.map_cons, htags, toBlockTag, hcontent.sectionText_eq hclosing,
        partsOf_sourceOf hcontent.canonical hcontent.texts_apart]

/-! ## Taking off the decoration -/

/-- **The lines of a comment come back** when the decoration is taken off. -/
theorem contentLines_decorate {lines : List (List Char)}
    (h : ∀ line ∈ lines, ∀ c ∈ line, isLineBreak c = false) :
    contentLines (joinLines (decorate lines)) = [] :: (lines ++ [closingLine]) := by
  have hmargin : dropMargin ∘ (" * ".toList ++ ·) = id := rfl
  have hinner : ∀ line ∈ lines.map (" * ".toList ++ ·), ∀ c ∈ line, isLineBreak c = false :=
    List.forall_mem_map.mpr fun line hline ↦
      List.forall_mem_append.mpr ⟨by simp [isLineBreak], h line hline⟩
  have hbreak : ∀ c ∈ closingLine, isLineBreak c = false := List.forall_mem_singleton.mpr rfl
  have hframed := contentLines_framed hinner hbreak (List.forall_mem_singleton.mpr rfl)
  rw [List.map_map, hmargin, List.map_id] at hframed
  exact hframed

theorem isLineBreak_eq_false_of_mem_plainLines {c : Comment} (h : ∀ t ∈ c.blockTags, IsTagName t.tag) :
    ∀ line ∈ plainLines c, ∀ d ∈ line, isLineBreak d = false := by
  intro line hline
  rcases List.mem_append.mp hline with hline | hline
  · exact isLineBreak_eq_false_of_mem_splitLines hline
  · obtain ⟨t, ht, hline⟩ := List.mem_flatMap.mp hline
    rcases List.mem_cons.mp hline with rfl | hline
    · intro d hd
      cases hbreak : isLineBreak d with
      | false => rfl
      | true =>
        have hblank := isBlank_of_isLineBreak hbreak
        rw [(h t ht).isBlank_eq_false d hd] at hblank
        cases hblank
    · exact isLineBreak_eq_false_of_mem_splitLines hline

/-- **Written comments are read back.** -/
theorem parse_write {c : Comment} (h : IsCanonical c) : parse (write c) = c := by
  obtain ⟨hclosing, htags⟩ := sections_tagLines h.names h.contents
  have hfirst : Quiet false [[]] false := quiet_singleton rfl
  have hsections : sections false ([] :: (plainLines c ++ [closingLine]))
      = ([] :: (splitLines (sourceOf c.summary)
          ++ (sections false (c.blockTags.flatMap tagLines ++ [closingLine])).1),
        (sections false (c.blockTags.flatMap tagLines ++ [closingLine])).2) := by
    rw [plainLines, List.append_assoc]
    exact (hfirst.append h.summary.quiet) (c.blockTags.flatMap tagLines ++ [closingLine])
  have hlines := contentLines_decorate (isLineBreak_eq_false_of_mem_plainLines h.names)
  rw [parse, write, String.toList_ofList, ofChars, hlines, hsections]
  simp only [htags, h.summary.sectionText_eq hclosing,
    partsOf_sourceOf h.summary.canonical h.summary.texts_apart]

/-- A summary with every form of a part. -/
def mixedSummary : List Part :=
  [⟨.text, String.ofList "Adds ".toList, .null⟩,
    ⟨.inlineTag, String.ofList "#total the sum".toList, .str (String.ofList "@link".toList)⟩,
    ⟨.text, String.ofList " to ".toList, .null⟩,
    ⟨.code, String.ofList (backtick :: "n".toList ++ [backtick]), .null⟩,
    ⟨.text, String.ofList ":\n".toList, .null⟩,
    ⟨.code, String.ofList (fence ++ "ts\n@see nothing".toList ++ '\n' :: fence), .null⟩,
    ⟨.text, String.ofList "\nas before.".toList, .null⟩]

/-- A comment with this summary and two block tags. -/
def mixedComment : Comment :=
  ⟨mixedSummary, [⟨.str (String.ofList "@see".toList),
      [⟨.text, String.ofList "#size".toList, .null⟩]⟩,
    ⟨.str (String.ofList "@since-first".toList), []⟩]⟩

theorem parse_write_mixedComment : parse (write mixedComment) = mixedComment := by
  have hsummary : IsCanonicalSection mixedSummary := by
    refine ⟨?_, ?_, ?_, ?_, ?_, ?_⟩
    · have hname : ∀ d ∈ "ink".toList, isWord d = true := List.all_eq_true.mp (by decide +kernel)
      have hspan : ∀ d ∈ "n".toList, inSpan d = true := List.all_eq_true.mp (by decide +kernel)
      refine List.forall_mem_cons.mpr ⟨.text ?_ ?_ ?_, List.forall_mem_cons.mpr ⟨.inlineTag rfl hname ?_ ?_,
        List.forall_mem_cons.mpr ⟨.text ?_ ?_ ?_, List.forall_mem_cons.mpr ⟨.span ?_ hspan,
        List.forall_mem_cons.mpr ⟨.text ?_ ?_ ?_, List.forall_mem_cons.mpr ⟨.fenced ?_,
        List.forall_mem_singleton.mpr (.text ?_ ?_ ?_)⟩⟩⟩⟩⟩⟩
      all_goals decide +kernel
    all_goals decide +kernel
  have hsize : IsCanonicalSection [⟨.text, String.ofList "#size".toList, .null⟩] := by
    refine ⟨List.forall_mem_singleton.mpr (.text ?_ ?_ ?_), ?_, ?_, ?_, ?_, ?_⟩
    all_goals decide +kernel
  have hnone : IsCanonicalSection [] := by
    refine ⟨fun p hp ↦ absurd hp List.not_mem_nil, ?_, ?_, ?_, ?_, ?_⟩
    all_goals decide +kernel
  have hsee : ∀ d ∈ "ee".toList, isTagChar d = true := List.all_eq_true.mp (by decide +kernel)
  have hsince : ∀ d ∈ "ince-first".toList, isTagChar d = true :=
    List.all_eq_true.mp (by decide +kernel)
  refine parse_write ⟨hsummary, ?_, ?_⟩
  · exact List.forall_mem_cons.mpr ⟨.mk rfl hsee, List.forall_mem_singleton.mpr (.mk rfl hsince)⟩
  · exact List.forall_mem_cons.mpr ⟨hsize, List.forall_mem_singleton.mpr hnone⟩

/-- A line of back-ticks in the body of an inline tag hides the block tags after it, which is why a canonical
section has no such line. -/
example : (parse (write ⟨[⟨.inlineTag, "#a\n```\nb", .str "@link"⟩], [⟨.str "@see", []⟩]⟩)).blockTags.length = 0 :=
  by decide +kernel

end RefCheck.Comment
