import RefCheck.Comment.Mention
import RefCheck.Proofs.Comment.RoundTrip
import RefCheck.Proofs.Reference.Written

/-!
# Lists of references

`seeTargets_listing`: from a list under a `@see` tag, one line for each reference, the references come back in
order, however each line is marked and however it writes its reference.

Three readers take a list apart. An asterisk at the start of a line is its margin and is gone before the others
see it. The cutting into tokens takes the inline links out of the plain text, so a plain text need not be whole
lines: after a link it goes on with the line feed, and before a link it ends with the marker of the link's line,
which then stands alone. The lines of each plain text are read last. Of a marker alone one character is left,
and that is no reference.

The reading of a whole list is put together from `mentions_foldr_pushText`, which says what plain text adds in
front of tokens, if these start a new line or no plain text.
-/

namespace RefCheck.Comment

open RefCheck.Text

/-! ## What tokens mention -/

/-- What a token of a `@see` tag mentions. -/
def Token.mentions : Token → List (List Char)
  | text cs => lineTargets cs
  | code _ => []
  | inlineTag name rest =>
    if linkTags.contains (String.ofList ('@' :: name)) then [linkTargetChars (trim rest)] else []

/-- What the text of a `@see` tag mentions. -/
def mentionsOf (cs : List Char) : List (List Char) := (tokens cs).flatMap Token.mentions

theorem seeTargets_toPart (t : Token) :
    t.toPart.seeTargets = .ok (t.mentions.map String.ofList) := by
  cases t with
  | text cs => rw [Token.toPart, Part.seeTargets, String.toList_ofList, Token.mentions]
  | code cs => rfl
  | inlineTag name rest =>
    have hread : (Token.inlineTag name rest).toPart.seeTargets
        = .ok (if linkTags.contains (String.ofList ('@' :: name)) then
            some (linkTarget (String.ofList (trim rest))) else none).toList := rfl
    rw [hread, Token.mentions, linkTarget, String.toList_ofList]
    split <;> rfl

/-- **A block tag that was read from text can be read further**: its parts mention what the tokens do. -/
theorem seeTargets_partsOf (tag : Value) (cs : List Char) :
    BlockTag.seeTargets ⟨tag, partsOf cs⟩ = .ok ((mentionsOf cs).map String.ofList) := by
  have hparts : (partsOf cs).mapM Part.seeTargets
      = .ok ((tokens cs).map fun t ↦ t.mentions.map String.ofList) := by
    have hread : Part.seeTargets ∘ Token.toPart = fun t ↦ pure (t.mentions.map String.ofList) :=
      funext seeTargets_toPart
    rw [partsOf, List.mapM_map, hread, List.mapM_pure]
    rfl
  rw [BlockTag.seeTargets, hparts, mentionsOf, List.map_flatMap, List.flatMap_def]
  rfl

/-! ## Plain text in front of tokens -/

theorem mentions_cutText (ts : List Token) : ts.flatMap Token.mentions
    = lineTargets (cutText ts).1 ++ (cutText ts).2.flatMap Token.mentions := by
  cases ts with
  | nil => rfl
  | cons t ts => cases t <;> rfl

theorem lineTargets_of_one_line {cs : List Char} (h : ∀ c ∈ cs, isLineBreak c = false) :
    lineTargets cs = [dropListMarker (trim cs)].filter (!·.isEmpty) := by
  cases cs with
  | nil => rfl
  | cons c cs => rw [lineTargets, splitLines_singleton h (List.cons_ne_nil c cs), List.map_singleton]

/-- An empty line mentions nothing. -/
theorem lineTargets_lineFeed (cs : List Char) : lineTargets ('\n' :: cs) = lineTargets cs := by
  rw [lineTargets, splitLines_lineFeed]
  rfl

/-- Lines are read one by one. -/
theorem lineTargets_append {cs rest : List Char} (h : ∀ c ∈ cs, isLineBreak c = false)
    (hrest : EndsLine rest) : lineTargets (cs ++ rest) = lineTargets cs ++ lineTargets rest := by
  have hnil : lineTargets [] = [] := rfl
  rcases hrest.eq_nil_or with rfl | ⟨rest, rfl⟩
  · rw [List.append_nil, hnil, List.append_nil]
  · rw [lineTargets_lineFeed, lineTargets_of_one_line h, lineTargets, splitLines_append h, List.map_cons,
      ← List.singleton_append, List.filter_append, lineTargets]

/-- **Plain text in front of tokens** mentions what its line mentions, if no plain text goes on with it. -/
theorem mentions_foldr_pushText {cs : List Char} (h : ∀ c ∈ cs, isLineBreak c = false)
    {ts : List Token} (hts : EndsLine (cutText ts).1) :
    (cs.foldr pushText ts).flatMap Token.mentions = lineTargets cs ++ ts.flatMap Token.mentions := by
  cases cs with
  | nil => rfl
  | cons c cs =>
    rw [foldr_pushText (List.cons_ne_nil c cs), List.flatMap_cons, Token.mentions,
      lineTargets_append h hts, List.append_assoc, ← mentions_cutText]

theorem tokens_lineFeed (cs : List Char) : tokens ('\n' :: cs) = pushText '\n' (tokens cs) :=
  tokens_cons_of_eq_none (tokenAt?_cons_eq_none (by decide) (by decide) cs)

/-- A line feed mentions nothing. -/
theorem mentionsOf_lineFeed (cs : List Char) : mentionsOf ('\n' :: cs) = mentionsOf cs := by
  rw [mentionsOf, tokens_lineFeed, pushText_eq, List.flatMap_cons, Token.mentions, lineTargets_lineFeed,
    ← mentions_cutText, mentionsOf]

theorem endsLine_cutText_tokens {rest : List Char} (h : EndsLine rest) :
    EndsLine (cutText (tokens rest)).1 := by
  rcases h.eq_nil_or with rfl | ⟨rest, rfl⟩
  · rw [tokens]
    exact fun c hc ↦ absurd hc (Option.not_mem_none c)
  · rw [tokens_lineFeed, pushText_eq]
    exact fun c hc ↦ (Option.some.inj hc).symm

/-! ## Lists -/

/-- How an item of a list starts. -/
inductive ListMark where
  | none
  | dash
  | asterisk
  | plus
  deriving DecidableEq, Repr

/-- The mark and the space after it. -/
def ListMark.chars : ListMark → List Char
  | none => []
  | dash => "- ".toList
  | asterisk => "* ".toList
  | plus => "+ ".toList

/-- What is left of the mark on a line of a comment. -/
def ListMark.kept : ListMark → List Char
  | asterisk => []
  | mark => mark.chars

/-- The inline tags that link. -/
inductive LinkForm where
  | link
  | linkcode
  | linkplain
  deriving DecidableEq, Repr

/-- The name of the inline tag. -/
def LinkForm.chars : LinkForm → List Char
  | link => "link".toList
  | linkcode => "linkcode".toList
  | linkplain => "linkplain".toList

/-- What follows the target in an inline link: nothing, or a label after a space or after a bar. -/
inductive LinkLabel where
  | none
  | spaced (label : List Char)
  | barred (label : List Char)
  deriving DecidableEq, Repr

/-- The label with what separates it from the target. -/
def LinkLabel.chars : LinkLabel → List Char
  | none => []
  | spaced label => ' ' :: label
  | barred label => '|' :: label

/-- How a reference is written: as it is, or in an inline link. -/
inductive Writing where
  | plain
  | linked (form : LinkForm) (label : LinkLabel)
  deriving DecidableEq, Repr

/-- A reference as it is written. -/
def Writing.chars : Writing → (target : List Char) → List Char
  | plain, target => target
  | linked form label, target =>
    "\x7b@".toList ++ form.chars ++ ' ' :: (target ++ label.chars) ++ ['\x7d']

/-- An item of a list of references. -/
structure ListItem where
  /-- How its line starts. -/
  mark : ListMark
  /-- How the reference is written. -/
  writing : Writing
  /-- The reference. -/
  target : List Char
  deriving DecidableEq, Repr

/-- What follows the mark. -/
def ListItem.written (item : ListItem) : List Char := item.writing.chars item.target

/-- The line of an item. -/
def ListItem.line (item : ListItem) : List Char := item.mark.chars ++ item.written

/-- The line of an item as it is read. -/
def ListItem.content (item : ListItem) : List Char := item.mark.kept ++ item.written

/-- A comment with a `@see` tag, and a list under it. -/
def listing (items : List ListItem) : String :=
  String.ofList (joinLines ("@see".toList :: items.map ListItem.line))

/-- A text that is written as a reference and can stand in a list. -/
structure IsTarget (cs : List Char) : Prop where
  /-- It starts like a reference. -/
  lead : ∃ lead ∈ referenceLeads, lead <+: cs
  /-- It is more than a single character. -/
  long : 2 ≤ cs.length
  /-- It has no blanks. -/
  one_word : ∀ c ∈ cs, isBlank c = false
  /-- It has no character that writes code, an inline tag, a label or decoration. -/
  inert : ∀ c ∈ cs, c ∉ [backtick, '\x7b', '\x7d', '|', '*']

theorem isTarget_iff {cs : List Char} : IsTarget cs ↔ (∃ lead ∈ referenceLeads, lead <+: cs) ∧
    2 ≤ cs.length ∧ (∀ c ∈ cs, isBlank c = false) ∧ ∀ c ∈ cs, c ∉ [backtick, '\x7b', '\x7d', '|', '*'] :=
  ⟨fun h ↦ ⟨h.1, h.2, h.3, h.4⟩, fun h ↦ ⟨h.1, h.2.1, h.2.2.1, h.2.2.2⟩⟩

instance decidableIsTarget (cs : List Char) : Decidable (IsTarget cs) :=
  have : Decidable (∀ c ∈ cs, isBlank c = false) := List.decidableBAll _ cs
  have : Decidable (∀ c ∈ cs, c ∉ [backtick, '\x7b', '\x7d', '|', '*']) := List.decidableBAll _ cs
  decidable_of_iff _ isTarget_iff.symm

/-- A label that stays inside its inline link. -/
def Writing.IsFit : Writing → Prop
  | plain => True
  | linked _ label => ∀ c ∈ label.chars, c ≠ '\x7d' ∧ c ≠ backtick ∧ isLineBreak c = false

instance decidableIsFitWriting : (writing : Writing) → Decidable writing.IsFit
  | .plain => inferInstanceAs (Decidable True)
  | .linked _ label => List.decidableBAll _ label.chars

/-- An item that can stand in a list. -/
structure ListItem.IsFit (item : ListItem) : Prop where
  /-- Its target is written as a reference. -/
  target : IsTarget item.target
  /-- Its label, if there is one, stays inside the link. -/
  writing : item.writing.IsFit

instance decidableIsFitItem (item : ListItem) : Decidable item.IsFit :=
  decidable_of_iff (IsTarget item.target ∧ item.writing.IsFit)
    ⟨fun h ↦ ⟨h.1, h.2⟩, fun h ↦ ⟨h.1, h.2⟩⟩

/-! ### First characters -/

/-- The character is no blank, and not what an address of the web, a margin, a block tag or code starts with. -/
def isStart (c : Char) : Bool := !isBlank c && c != 'h' && c != '*' && c != '@' && c != backtick

theorem isStart_eq_true_iff {c : Char} : isStart c = true ↔
    isBlank c = false ∧ c ≠ 'h' ∧ c ≠ '*' ∧ c ≠ '@' ∧ c ≠ backtick := by
  simp [isStart, and_assoc]

/-! ### Marks -/

theorem ListMark.all_kept (mark : ListMark) : (mark.kept.all fun c ↦ !isLineBreak c) = true := by
  cases mark <;> decide

theorem ListMark.kept_plain (mark : ListMark) : backtick ∉ mark.kept ∧ '\x7b' ∉ mark.kept := by
  cases mark <;> decide

/-- Nothing of a mark alone is a reference. -/
theorem ListMark.filterMap_kept (mark : ListMark) :
    (lineTargets mark.kept).filterMap Reference.ofChars? = [] := by
  cases mark <;> decide

theorem ListMark.isStart_kept (mark : ListMark) : mark.kept.head?.all isStart = true := by
  cases mark <;> decide

theorem ListMark.not_blank (mark : ListMark) : mark.chars.head?.all (!isBlank ·) = true := by
  cases mark <;> decide

/-! ### Targets -/

theorem IsTarget.exists_cons {cs : List Char} (h : IsTarget cs) :
    ∃ c rest, cs = c :: rest ∧ rest ≠ [] ∧ isStart c = true := by
  obtain ⟨lead, hlead, more, rfl⟩ := h.lead
  have hlong := h.long
  have hleads : ∀ lead ∈ referenceLeads, lead.head?.any isStart = true := by decide
  have hstart := hleads lead hlead
  cases lead with
  | nil => cases hstart
  | cons c tail =>
    refine ⟨c, tail ++ more, rfl, fun hnil ↦ ?_, hstart⟩
    rw [List.cons_append, hnil, List.length_singleton] at hlong
    omega

theorem IsTarget.ne_nil {cs : List Char} (h : IsTarget cs) : cs ≠ [] := by
  obtain ⟨c, rest, rfl, -, -⟩ := h.exists_cons
  exact List.cons_ne_nil c rest

theorem IsTarget.isLineBreak {cs : List Char} (h : IsTarget cs) : ∀ c ∈ cs, isLineBreak c = false := by
  intro c hc
  cases hbreak : Text.isLineBreak c with
  | false => rfl
  | true =>
    have hblank := isBlank_of_isLineBreak hbreak
    rw [h.one_word c hc] at hblank
    cases hblank

/-- A target is a reference, which keeps it as it is written. -/
theorem IsTarget.ofChars? {cs : List Char} (h : IsTarget cs) :
    ∃ r, Reference.ofChars? cs = some r ∧ r.raw = String.ofList cs := by
  refine ⟨Reference.ofTrimmed cs, ?_, rfl⟩
  rw [Reference.ofChars?, trim_of_forall_not_blank h.one_word]
  obtain ⟨c, rest, rfl, hne, hstart⟩ := h.exists_cons
  obtain ⟨-, hweb, -⟩ := isStart_eq_true_iff.mp hstart
  exact if_pos (Reference.isTrimmedReference_cons hweb hne)

/-- What has no blank has no list marker. -/
theorem dropListMarker_eq_self {cs : List Char} (h : ∀ c ∈ cs, isBlank c = false) :
    dropListMarker cs = cs := by
  match cs with
  | [] => rfl
  | [_] => rfl
  | c :: d :: cs =>
    rw [dropListMarker, h d (by simp), Bool.and_false, if_neg Bool.false_ne_true]

/-- A line with a target after a mark mentions the target. -/
theorem lineTargets_kept_append {cs : List Char} (h : IsTarget cs) (mark : ListMark) :
    lineTargets (mark.kept ++ cs) = [cs] := by
  have htrim : trim cs = cs := trim_of_forall_not_blank h.one_word
  have hbare : dropListMarker (trim cs) = cs := by rw [htrim, dropListMarker_eq_self h.one_word]
  have hmarked : ∀ c, isListMarker c = true → isBlank c = false →
      dropListMarker (trim ([c, ' '] ++ cs)) = cs := by
    intro c hc hblank
    have hline : trim ([c, ' '] ++ cs) = [c, ' '] ++ cs :=
      trim_append_of_trim (fun d hd ↦ by cases hd; exact hblank) htrim h.ne_nil
    have hstart : trimStart cs = cs := by
      obtain ⟨d, rest, rfl, -, -⟩ := h.exists_cons
      exact trimStart_cons_of_not_blank (h.one_word d List.mem_cons_self)
    rw [hline, List.cons_append, List.singleton_append, dropListMarker, hc]
    exact hstart
  have hbreak : ∀ c ∈ mark.kept ++ cs, isLineBreak c = false :=
    List.forall_mem_append.mpr ⟨fun c ↦ not_lineBreak_of_all mark.all_kept, h.isLineBreak⟩
  have hread : dropListMarker (trim (mark.kept ++ cs)) = cs := by
    cases mark with
    | none => exact hbare
    | dash => exact hmarked '-' rfl rfl
    | asterisk => exact hbare
    | plus => exact hmarked '+' rfl rfl
  obtain ⟨c, rest, rfl, -, -⟩ := h.exists_cons
  rw [lineTargets_of_one_line hbreak, hread]
  rfl

/-- The first word of a link is its target. -/
theorem linkTargetChars_target {cs : List Char} (h : IsTarget cs) (label : LinkLabel) :
    linkTargetChars (trim (' ' :: (cs ++ label.chars))) = cs := by
  have hspace : ∀ c ∈ [' '], isBlank c = true := List.forall_mem_singleton.mpr rfl
  obtain ⟨after, hafter⟩ := prefix_trimEnd_append h.one_word label.chars
  have htrim : trim (' ' :: (cs ++ label.chars)) = cs ++ after := by
    rw [← List.singleton_append, trim_blanks_left hspace, hafter, trim]
    obtain ⟨c, rest, rfl, -, -⟩ := h.exists_cons
    rw [List.cons_append, trimStart_cons_of_not_blank (h.one_word c List.mem_cons_self)]
  have hlabel : after <+: label.chars := by
    have hprefix := trimEnd_prefix_self (cs ++ label.chars)
    rw [← hafter] at hprefix
    exact (List.prefix_append_right_inj cs).mp hprefix
  have hword : ∀ c ∈ cs, inTarget c = true := by
    intro c hc
    have hbar : c ≠ '|' := fun hbar ↦ h.inert c hc (by rw [hbar]; simp)
    rw [inTarget, h.one_word c hc, bne_iff_ne.mpr hbar]
    rfl
  have hend : after.takeWhile inTarget = [] := by
    cases after with
    | nil => rfl
    | cons d after =>
      have hd : inTarget d = false := by
        obtain ⟨more, hmore⟩ := hlabel
        cases label with
        | none => cases hmore
        | spaced label =>
          cases hmore
          rfl
        | barred label =>
          cases hmore
          rfl
      exact List.takeWhile_cons_of_neg (by rw [hd]; exact Bool.false_ne_true)
  rw [linkTargetChars, trim_trim, htrim, List.takeWhile_append_of_pos hword, hend, List.append_nil]

/-! ### Items -/

/-- The name of the inline tag is one that is found. -/
theorem LinkForm.exists_name (form : LinkForm) : ∃ c name, form.chars = c :: name ∧
    isAsciiLetter c = true ∧ ∀ d ∈ name, isWord d = true := by
  have hletters : form.chars.all isAsciiLetter = true := by
    cases form <;> decide
  have hcons : ∃ c name, form.chars = c :: name := by
    cases form <;> exact ⟨_, _, rfl⟩
  obtain ⟨c, name, hform⟩ := hcons
  rw [hform, List.all_eq_true] at hletters
  exact ⟨c, name, hform, hletters c List.mem_cons_self,
    fun d hd ↦ isWord_of_isAsciiLetter (hletters d (List.mem_cons_of_mem c hd))⟩

/-- The inline tag is one that links. -/
theorem LinkForm.contains_linkTags (form : LinkForm) :
    linkTags.contains (String.ofList ('@' :: form.chars)) = true := by
  rw [List.contains_iff_mem]
  cases form with
  | link => exact List.mem_cons_self
  | linkcode => exact List.mem_cons_of_mem _ List.mem_cons_self
  | linkplain => exact List.mem_cons_of_mem _ (List.mem_cons_of_mem _ List.mem_cons_self)

/-- A link is one token. -/
theorem tokens_linked {form : LinkForm} {label : LinkLabel} {target : List Char} (h : IsTarget target)
    (hlabel : (Writing.linked form label).IsFit) (rest : List Char) :
    tokens ((Writing.linked form label).chars target ++ rest)
      = .inlineTag form.chars (' ' :: (target ++ label.chars)) :: tokens rest := by
  obtain ⟨c, name, hform, hc, hname⟩ := form.exists_name
  have hbody : IsTagBody (' ' :: (target ++ label.chars)) := by
    refine ⟨fun d hd ↦ by cases hd; rfl, fun hmem ↦ ?_⟩
    rcases List.mem_cons.mp hmem with hmem | hmem
    · exact absurd hmem (by decide)
    · rcases List.mem_append.mp hmem with hmem | hmem
      · exact h.inert _ hmem (by decide)
      · exact (hlabel _ hmem).1 rfl
  have hsource : (Writing.linked form label).chars target ++ rest
      = '\x7b' :: '@' :: c :: name ++ ' ' :: (target ++ label.chars) ++ '\x7d' :: rest := by
    simp [Writing.chars, hform]
  have hcut : inlineTagAt? ('\x7b' :: '@' :: c :: name ++ ' ' :: (target ++ label.chars) ++ '\x7d' :: rest)
      = some (.inlineTag (c :: name) (' ' :: (target ++ label.chars)), rest) :=
    inlineTagAt?_eq_some_iff.mpr ⟨c, name, _, hc, hname, hbody, rfl, rfl⟩
  rw [hsource, hform]
  exact tokens_cons_of_eq_some ((tokenAt?_brace _).trans hcut)

/-- A plain item mentions its target. -/
theorem mentionsOf_plain {target rest : List Char} (h : IsTarget target) (mark : ListMark)
    (hrest : EndsLine rest) : mentionsOf (mark.kept ++ target ++ rest) = target :: mentionsOf rest := by
  obtain ⟨hback, hbrace⟩ := mark.kept_plain
  have hbreak : ∀ c ∈ mark.kept ++ target, isLineBreak c = false :=
    List.forall_mem_append.mpr ⟨fun c ↦ not_lineBreak_of_all mark.all_kept, h.isLineBreak⟩
  have hback : backtick ∉ mark.kept ++ target := fun hmem ↦
    (List.mem_append.mp hmem).elim hback fun hmem ↦ h.inert _ hmem (by decide)
  have hopen : ¬['\x7b', '@'] <:+: mark.kept ++ target := fun hopened ↦
    (List.mem_append.mp (hopened.subset List.mem_cons_self)).elim hbrace
      fun hmem ↦ h.inert _ hmem (by decide)
  have hat : rest.head? ≠ some '@' := fun hhead ↦ absurd (hrest '@' hhead) (by decide)
  rw [mentionsOf, tokens_append_of_plain hback hopen hat,
    mentions_foldr_pushText hbreak (endsLine_cutText_tokens hrest), lineTargets_kept_append h]
  rfl

/-- An item with a link mentions what stands before the link, and its target. -/
theorem mentionsOf_linked {form : LinkForm} {label : LinkLabel} {target : List Char} (h : IsTarget target)
    (hlabel : (Writing.linked form label).IsFit) (mark : ListMark) (rest : List Char) :
    mentionsOf (mark.kept ++ ((Writing.linked form label).chars target ++ rest))
      = lineTargets mark.kept ++ target :: mentionsOf rest := by
  obtain ⟨hback, hbrace⟩ := mark.kept_plain
  have htokens := tokens_linked h hlabel rest
  have hline : EndsLine (cutText (tokens ((Writing.linked form label).chars target ++ rest))).1 := by
    rw [htokens]
    exact fun c hc ↦ absurd hc (Option.not_mem_none c)
  have hopen : ¬['\x7b', '@'] <:+: mark.kept := fun hopened ↦ hbrace (hopened.subset List.mem_cons_self)
  have hat : ((Writing.linked form label).chars target ++ rest).head? ≠ some '@' := by
    intro hhead
    have hfirst : '\x7b' = '@' := Option.some.inj hhead
    exact absurd hfirst (by decide)
  rw [mentionsOf, tokens_append_of_plain hback hopen hat,
    mentions_foldr_pushText (fun c ↦ not_lineBreak_of_all mark.all_kept) hline, htokens,
    List.flatMap_cons, Token.mentions, if_pos form.contains_linkTags, linkTargetChars_target h]
  rfl

/-- The references among what a text mentions, as they are written. -/
def referencesIn (cs : List Char) : List String :=
  ((mentionsOf cs).filterMap Reference.ofChars?).map Reference.raw

/-- **One item.** Its target is the one reference on its line. -/
theorem referencesIn_content {item : ListItem} (h : item.IsFit) {rest : List Char}
    (hrest : EndsLine rest) :
    referencesIn (item.content ++ rest) = String.ofList item.target :: referencesIn rest := by
  obtain ⟨mark, writing, target⟩ := item
  have htarget : IsTarget target := h.target
  obtain ⟨r, hread, hraw⟩ := htarget.ofChars?
  cases writing with
  | plain =>
    have hmentions := mentionsOf_plain htarget mark hrest
    rw [referencesIn, ListItem.content, ListItem.written, Writing.chars, hmentions,
      List.filterMap_cons_some hread, List.map_cons, hraw, referencesIn]
  | linked form label =>
    have hmentions := mentionsOf_linked htarget h.writing mark rest
    rw [referencesIn, ListItem.content, ListItem.written, List.append_assoc, hmentions,
      List.filterMap_append, mark.filterMap_kept, List.nil_append, List.filterMap_cons_some hread,
      List.map_cons, hraw, referencesIn]

/-- A mark alone is mentioned, as a single character. -/
example : lineTargets ListMark.dash.kept = [['-']] ∧ Reference.ofChars? ['-'] = none := by decide

/-- **A list.** Its references are its targets. -/
theorem referencesIn_contents {items : List ListItem} (h : ∀ item ∈ items, item.IsFit) :
    referencesIn (joinLines (items.map ListItem.content))
      = items.map fun item ↦ String.ofList item.target := by
  induction items with
  | nil =>
    rw [List.map_nil, joinLines_nil, referencesIn, mentionsOf, tokens]
    rfl
  | cons item items ih =>
    obtain ⟨hitem, hitems⟩ := List.forall_mem_cons.mp h
    have htail := ih hitems
    cases items with
    | nil =>
      have hend : EndsLine [] := fun c hc ↦ absurd hc (Option.not_mem_none c)
      have hone := referencesIn_content hitem hend
      rw [List.append_nil] at hone
      rw [List.map_singleton, joinLines_singleton, hone, List.map_cons, ← htail]
      rfl
    | cons next items =>
      have hend : EndsLine ('\n' :: joinLines ((next :: items).map ListItem.content)) :=
        fun c hc ↦ (Option.some.inj hc).symm
      have hfeed : referencesIn ('\n' :: joinLines ((next :: items).map ListItem.content))
          = referencesIn (joinLines ((next :: items).map ListItem.content)) := by
        rw [referencesIn, mentionsOf_lineFeed, referencesIn]
      have hone := referencesIn_content hitem hend
      rw [hfeed, htail] at hone
      exact hone

/-! ### Lines -/

theorem ListItem.IsFit.exists_cons {item : ListItem} (h : item.IsFit) :
    ∃ c rest, item.written = c :: rest ∧ isStart c = true := by
  obtain ⟨mark, writing, target⟩ := item
  cases writing with
  | plain =>
    obtain ⟨c, rest, hcs, -, hstart⟩ := h.target.exists_cons
    exact ⟨c, rest, hcs, hstart⟩
  | linked form label => exact ⟨'\x7b', _, rfl, rfl⟩

theorem ListItem.IsFit.written_ne_nil {item : ListItem} (h : item.IsFit) : item.written ≠ [] := by
  obtain ⟨c, rest, hwritten, -⟩ := h.exists_cons
  rw [hwritten]
  exact List.cons_ne_nil c rest

theorem ListItem.IsFit.trim_written {item : ListItem} (h : item.IsFit) :
    trim item.written = item.written := by
  obtain ⟨mark, writing, target⟩ := item
  cases writing with
  | plain => exact trim_of_forall_not_blank h.target.one_word
  | linked form label => exact trim_append (c := '\x7b') rfl _ (x := ['\x7d']) (List.cons_ne_nil _ _)

theorem ListItem.IsFit.long {item : ListItem} (h : item.IsFit) : 2 ≤ item.written.length := by
  obtain ⟨mark, writing, target⟩ := item
  cases writing with
  | plain => exact h.target.long
  | linked form label =>
    rw [ListItem.written, Writing.chars, List.length_append, List.length_append, List.length_append]
    have hbrace : "\x7b@".toList.length = 2 := rfl
    omega

theorem ListItem.IsFit.not_closing {item : ListItem} (h : item.IsFit) :
    ¬['*', '/'] <:+ item.written := by
  obtain ⟨mark, writing, target⟩ := item
  cases writing with
  | plain => exact fun hclosing ↦ h.target.inert '*' (hclosing.subset List.mem_cons_self) (by decide)
  | linked form label =>
    rintro ⟨before, hbefore⟩
    have hlast := congrArg List.getLast? hbefore
    rw [ListItem.written, Writing.chars, List.getLast?_concat, List.getLast?_append] at hlast
    have hslash : '/' = '\x7d' := Option.some.inj hlast
    exact absurd hslash (by decide)

theorem ListItem.IsFit.isLineBreak_line {item : ListItem} (h : item.IsFit) :
    ∀ c ∈ item.line, isLineBreak c = false := by
  obtain ⟨mark, writing, target⟩ := item
  have hmark : (mark.chars.all fun c ↦ !isLineBreak c) = true := by
    cases mark <;> decide
  rw [ListItem.line, List.forall_mem_append]
  refine ⟨fun c ↦ not_lineBreak_of_all hmark, ?_⟩
  cases writing with
  | plain => exact h.target.isLineBreak
  | linked form label =>
    have hform : (form.chars.all fun c ↦ !isLineBreak c) = true := by
      cases form <;> decide
    have hbrace : ("\x7b@".toList.all fun c ↦ !isLineBreak c) = true := by decide
    intro c hc
    rw [ListItem.written, Writing.chars, List.mem_append, List.mem_append, List.mem_append, List.mem_cons,
      List.mem_append, List.mem_singleton] at hc
    rcases hc with ((hopen | hname) | rfl | htarget | hlabel) | rfl
    · exact not_lineBreak_of_all hbrace hopen
    · exact not_lineBreak_of_all hform hname
    · rfl
    · exact h.target.isLineBreak c htarget
    · exact (h.writing c hlabel).2.2
    · rfl

theorem ListItem.IsFit.dropMargin_line {item : ListItem} (h : item.IsFit) :
    dropMargin item.line = item.content := by
  obtain ⟨c, rest, hwritten, hstart⟩ := h.exists_cons
  obtain ⟨mark, writing, target⟩ := item
  cases mark with
  | none =>
    obtain ⟨hblank, -, hmargin, -⟩ := isStart_eq_true_iff.mp hstart
    refine dropMargin_eq_self fun hlead ↦ hmargin ?_
    have hline : (ListItem.mk .none writing target).line = c :: rest := hwritten
    rw [hline, trimStart_cons_of_not_blank hblank] at hlead
    exact (List.cons_prefix_cons.mp hlead).1.symm
  | dash => rfl
  | asterisk => rfl
  | plus => rfl

/-- A line is plain if its first character starts neither a block tag nor code. -/
theorem isPlain_of_isStart {c : Char} (hstart : isStart c = true) (cs : List Char) : IsPlain (c :: cs) := by
  obtain ⟨hblank, -, -, hat, hback⟩ := isStart_eq_true_iff.mp hstart
  have hline : trimStart (c :: cs) = c :: cs := trimStart_cons_of_not_blank hblank
  constructor
  · obtain ⟨rest, hrest⟩ := prefix_trimEnd_append (List.forall_mem_singleton.mpr hblank) cs
    have htrim : trim (c :: cs) = c :: rest := by
      rw [trim, hline]
      exact hrest.symm
    rw [htrim]
    cases rest with
    | nil => rfl
    | cons d rest =>
      rw [openingTag?, decide_eq_false hat, Bool.false_and]
      exact if_neg Bool.false_ne_true
  · rw [opensFence_eq_false_iff, hline]
    exact if_neg (Ne.symm hback)

theorem ListItem.IsFit.isPlain_content {item : ListItem} (h : item.IsFit) : IsPlain item.content := by
  have hmark := item.mark.isStart_kept
  rw [ListItem.content]
  cases hkept : item.mark.kept with
  | nil =>
    obtain ⟨c, rest, hwritten, hstart⟩ := h.exists_cons
    rw [List.nil_append, hwritten]
    exact isPlain_of_isStart hstart rest
  | cons c kept =>
    rw [hkept] at hmark
    exact isPlain_of_isStart hmark _

/-- There is nothing to trim of what is written after a mark. -/
theorem ListItem.IsFit.trim_append_written {item : ListItem} (h : item.IsFit) {mark : List Char}
    (hmark : mark.head?.all (!isBlank ·) = true) :
    mark ++ item.written ≠ [] ∧ trim (mark ++ item.written) = mark ++ item.written := by
  refine ⟨List.append_ne_nil_of_right_ne_nil _ h.written_ne_nil,
    trim_append_of_trim (fun c hc ↦ ?_) h.trim_written h.written_ne_nil⟩
  rw [Option.mem_def.mp hc] at hmark
  simpa using hmark

theorem ListItem.IsFit.trim_line {item : ListItem} (h : item.IsFit) :
    item.line ≠ [] ∧ trim item.line = item.line := h.trim_append_written item.mark.not_blank

theorem ListItem.IsFit.trim_content {item : ListItem} (h : item.IsFit) :
    item.content ≠ [] ∧ trim item.content = item.content := by
  refine h.trim_append_written ?_
  cases item.mark <;> decide

/-- No line ends like a comment. -/
theorem ListItem.IsFit.dropClosing_line {item : ListItem} (h : item.IsFit) :
    dropClosing item.line = item.line := by
  have htrim : trimEnd item.line = item.line := by rw [← h.trim_line.2, trimEnd_trim]
  refine dropClosing_eq_self fun hclosing ↦ h.not_closing ?_
  rw [htrim] at hclosing
  exact List.suffix_of_suffix_length_le hclosing (List.suffix_append _ _) h.long

/-! ## Reading a list -/

theorem contentLines_listing {items : List ListItem} (h : ∀ item ∈ items, item.IsFit) :
    contentLines (listing items).toList = "@see".toList :: items.map ListItem.content := by
  have htrim : ∀ line ∈ "@see".toList :: items.map ListItem.line, line ≠ [] ∧ trim line = line :=
    List.forall_mem_cons.mpr ⟨by decide, List.forall_mem_map.mpr fun item hitem ↦ (h item hitem).trim_line⟩
  have hbreak : ∀ line ∈ "@see".toList :: items.map ListItem.line, ∀ c ∈ line, isLineBreak c = false :=
    List.forall_mem_cons.mpr ⟨by simp [isLineBreak],
      List.forall_mem_map.mpr fun item hitem ↦ (h item hitem).isLineBreak_line⟩
  have hsplit : splitLines (joinLines ("@see".toList :: items.map ListItem.line))
      = "@see".toList :: items.map ListItem.line := by
    refine splitLines_joinLines hbreak fun hlast ↦ ?_
    exact (htrim [] (List.mem_of_getLast? hlast)).1 rfl
  have hclosing : ∀ line ∈ "@see".toList :: items.map ListItem.line, dropClosing line = line :=
    List.forall_mem_cons.mpr ⟨rfl, List.forall_mem_map.mpr fun item hitem ↦ (h item hitem).dropClosing_line⟩
  have hmargin : (items.map ListItem.line).map dropMargin = items.map ListItem.content := by
    rw [List.map_map]
    exact List.map_congr_left fun item hitem ↦ (h item hitem).dropMargin_line
  have hopening : dropOpening "@see".toList = "@see".toList := rfl
  rw [contentLines, listing, String.toList_ofList, trim_joinLines htrim, hsplit, onFirst, hopening,
    onLast_eq_self hclosing, List.map_cons, hmargin]
  rfl

/-- The list is the content of the one block tag. -/
theorem parse_listing {items : List ListItem} (h : ∀ item ∈ items, item.IsFit) : parse (listing items)
    = ⟨[], [⟨.str seeTag, partsOf (joinLines (items.map ListItem.content))⟩]⟩ := by
  have hletters : "ee".toList.all isAsciiLetter = true := by decide
  have hname : ∀ c ∈ "ee".toList, isTagChar c = true := fun c hc ↦ by
    rw [isTagChar, isWord_of_isAsciiLetter (List.all_eq_true.mp hletters c hc), Bool.true_or]
  have hopen : (if false then none else openingTag? (trim "@see".toList)) = some ("see".toList, []) :=
    openingTag?_name (c := 's') rfl hname
  have hopens : opensFence "@see".toList = false := rfl
  have hquiet := quiet_of_isPlain (List.forall_mem_map.mpr fun item hitem ↦ (h item hitem).isPlain_content) []
  have hempty : partsOf (sectionText []) = [] := by
    rw [partsOf, sectionText, joinLines_nil, trim_nil, tokens, List.map_nil]
  have htext : sectionText ([] :: items.map ListItem.content) = joinLines (items.map ListItem.content) := by
    rw [sectionText_cons_blanks (fun c hc ↦ absurd hc List.not_mem_nil), sectionText,
      trim_joinLines (List.forall_mem_map.mpr fun item hitem ↦ (h item hitem).trim_content)]
  rw [List.append_nil] at hquiet
  rw [parse, ofChars_eq_ofLines, contentLines_listing h, ofLines, sections_cons_of_eq_some hopen, hopens,
    Bool.bne_false, hquiet]
  simp only [sections, List.append_nil, List.map_cons, List.map_nil, toBlockTag, htext, hempty]
  rfl

/-- **A list is read item by item.** -/
theorem seeTargets_listing {items : List ListItem} (h : ∀ item ∈ items, item.IsFit) :
    ∃ tag texts, (parse (listing items)).tagsNamed seeTag = [tag] ∧ tag.seeTargets = .ok texts ∧
      (texts.filterMap Reference.parse?).map Reference.raw
        = items.map fun item ↦ String.ofList item.target := by
  refine ⟨⟨.str seeTag, partsOf (joinLines (items.map ListItem.content))⟩,
    (mentionsOf (joinLines (items.map ListItem.content))).map String.ofList, ?_, seeTargets_partsOf _ _, ?_⟩
  · have hnamed : (Value.str seeTag).isText (Comment.tagName seeTag) = true := by
      simp [Value.isText, tagName, seeTag]
    rw [parse_listing h, Comment.tagsNamed]
    exact List.filter_cons_of_pos hnamed
  · have hread : Reference.parse? ∘ String.ofList = Reference.ofChars? :=
      funext fun cs ↦ congrArg Reference.ofChars? String.toList_ofList
    rw [List.filterMap_map, hread]
    exact referencesIn_contents h

/-- A list with every mark and every way to write a reference, and with one reference twice. -/
def mixedList : List ListItem :=
  [⟨.dash, .plain, "#size".toList⟩, ⟨.asterisk, .linked .link (.spaced "- what it holds".toList), "~Store".toList⟩,
    ⟨.plus, .linked .linkcode (.barred "#none".toList), "module:a/b~C".toList⟩,
    ⟨.none, .linked .linkplain .none, ".of".toList⟩, ⟨.asterisk, .plain, "#size".toList⟩]

theorem seeTargets_mixedList : ∃ tag texts, (parse (listing mixedList)).tagsNamed seeTag = [tag] ∧
    tag.seeTargets = .ok texts ∧ (texts.filterMap Reference.parse?).map Reference.raw
      = ["#size", "~Store", "module:a/b~C", ".of", "#size"] := by
  have hfit : ∀ item ∈ mixedList, item.IsFit := by decide +kernel
  exact seeTargets_listing hfit

end RefCheck.Comment
