import RefCheck.Proofs.Data.Tokens

/-!
# Values that are written are read

Reading what was written gives the value back, except that each floating point number in it has been read
anew: `Json.decode_indented`. This asks that no whole number in the value is too long, that no object gives a
key twice, and that the value does not nest too deeply (`Value.IsReadable`).

The reader goes by how many steps it has left, and so does the proof: what holds of values, items and fields
with one more step follows from what holds with fewer.
-/

namespace RefCheck

namespace Value

mutual

/-- The value with every floating point number in it replaced. -/
def mapFloats (f : Binary64 → Binary64) : Value → Value
  | float x => float (f x)
  | arr items => arr (mapItems f items)
  | obj fields => obj (mapFields f fields)
  | v => v

/-- Each item with every floating point number in it replaced. -/
def mapItems (f : Binary64 → Binary64) : List Value → List Value
  | [] => []
  | v :: vs => mapFloats f v :: mapItems f vs

/-- Each field with every floating point number in it replaced. -/
def mapFields (f : Binary64 → Binary64) : List (String × Value) → List (String × Value)
  | [] => []
  | (k, v) :: fields => (k, mapFloats f v) :: mapFields f fields

end

mutual

/-- No whole number in the value is too long to be read, and no object in it gives a key twice. -/
def IsReadable : Value → Prop
  | int n => Json.IsShort n
  | arr items => ItemsReadable items
  | obj fields => (fields.map Prod.fst).Nodup ∧ FieldsReadable fields
  | _ => True

/-- The same of each item. -/
def ItemsReadable : List Value → Prop
  | [] => True
  | v :: vs => v.IsReadable ∧ ItemsReadable vs

/-- The same of each field. -/
def FieldsReadable : List (String × Value) → Prop
  | [] => True
  | (_, v) :: fields => v.IsReadable ∧ FieldsReadable fields

end

variable {f : Binary64 → Binary64}

theorem mapItems_eq_map (vs : List Value) : mapItems f vs = vs.map (mapFloats f) := by
  induction vs with
  | nil => rfl
  | cons v vs ih => rw [mapItems, ih, List.map_cons]

theorem itemsReadable_iff {vs : List Value} : ItemsReadable vs ↔ ∀ v ∈ vs, v.IsReadable := by
  induction vs with
  | nil => simp [ItemsReadable]
  | cons v vs ih => rw [ItemsReadable, List.forall_mem_cons, ih]

theorem itemsDepth_le_iff {vs : List Value} {n : Nat} : itemsDepth vs ≤ n ↔ ∀ v ∈ vs, v.depth ≤ n := by
  induction vs with
  | nil => simp [itemsDepth]
  | cons v vs ih => rw [itemsDepth, Nat.max_le, List.forall_mem_cons, ih]

/-- A key that is not there is set at the end. -/
theorem setField_of_notMem {key : String} (value : Value) {fields : List (String × Value)}
    (h : key ∉ fields.map Prod.fst) : setField key value fields = fields ++ [(key, value)] := by
  induction fields with
  | nil => rfl
  | cons field fields ih =>
    have hne : field.1 ≠ key := fun heq ↦ h (heq ▸ List.mem_cons_self)
    have hrest : key ∉ fields.map Prod.fst := fun hmem ↦ h (List.mem_cons_of_mem _ hmem)
    rw [setField, if_neg hne, ih hrest, List.cons_append]

end Value

namespace Json

open Value

variable {l : Layout} {level levels steps : Nat} {rest : List Char}

/-! ## The characters of a written value -/

/-- The character ends a line or is one of those that every keyboard has. -/
def IsPlain (c : Char) : Prop := c = '\n' ∨ 0x20 ≤ c.toNat ∧ c.toNat < 0x7F

instance (c : Char) : Decidable (IsPlain c) := inferInstanceAs (Decidable (_ ∨ _))

/-- What holds of the characters of a text, one by one. A `decide` on the second form would go over every
character that there is. -/
theorem forall_of_all {p : Char → Prop} [DecidablePred p] {cs : List Char}
    (h : cs.all (fun c ↦ decide (p c)) = true) : ∀ c ∈ cs, p c :=
  fun c hc ↦ of_decide_eq_true (List.all_eq_true.mp h c hc)

theorem InNumber.isPlain {c : Char} (h : InNumber c) : IsPlain c := by
  rcases h with hdigit | hmark
  · have hbounds : 0x30 ≤ c.toNat ∧ c.toNat ≤ 0x39 := Char.isDigit_iff_toNat.mp hdigit
    exact .inr ⟨by omega, by omega⟩
  · have hmarks : ∀ c ∈ ['.', 'e', '+', '-'], IsPlain c := forall_of_all (by decide)
    exact hmarks c hmark

theorem isPlain_hexFixed (width n : Nat) : ∀ c ∈ Text.hexFixed width n, IsPlain c := by
  have hdigit : ∀ d < 16, IsPlain (Text.hexDigit d) := by decide
  induction width generalizing n with
  | zero => simp [Text.hexFixed]
  | succ width ih =>
    refine List.forall_mem_append.mpr ⟨ih (n / 16), ?_⟩
    exact List.forall_mem_singleton.mpr (hdigit _ (Nat.mod_lt n (by decide)))

theorem isPlain_unitEscape (n : Nat) : ∀ c ∈ unitEscape n, IsPlain c :=
  List.forall_mem_cons.mpr ⟨by decide, List.forall_mem_cons.mpr ⟨by decide, isPlain_hexFixed 4 n⟩⟩

theorem isPlain_escapeChar (d : Char) : ∀ c ∈ escapeChar d, IsPlain c := by
  unfold escapeChar
  dsimp only
  split
  · next hquote =>
    have hquote : d = Text.doubleQuote ∨ d = Text.backslash := by simpa using hquote
    rcases hquote with rfl | rfl <;> exact forall_of_all (by decide)
  iterate 5
    split
    · exact forall_of_all (by decide)
  split
  · next hplain =>
    rw [Bool.and_eq_true, decide_eq_true_eq, decide_eq_true_eq] at hplain
    exact List.forall_mem_singleton.mpr (.inr hplain)
  split
  · exact isPlain_unitEscape _
  · exact List.forall_mem_append.mpr ⟨isPlain_unitEscape _, isPlain_unitEscape _⟩

theorem isPlain_writeString (s : String) : ∀ c ∈ writeString s, IsPlain c := by
  refine List.forall_mem_append.mpr ⟨List.forall_mem_cons.mpr ⟨by decide, ?_⟩, forall_of_all (by decide)⟩
  intro c hc
  obtain ⟨d, -, hd⟩ := List.mem_flatMap.mp hc
  exact isPlain_escapeChar d c hd

theorem isPlain_signed {negative : Bool} {cs : List Char} (h : ∀ c ∈ cs, InNumber c) :
    ∀ c ∈ signed negative cs, IsPlain c := by
  have hcs : ∀ c ∈ cs, IsPlain c := fun c hc ↦ (h c hc).isPlain
  cases negative with
  | false => exact hcs
  | true => exact List.forall_mem_cons.mpr ⟨by decide, hcs⟩

theorem isPlain_toString (n : Int) : ∀ c ∈ (toString n).toList, IsPlain c := by
  rw [toList_toString]
  exact isPlain_signed (isDigits_toDigits _).inNumber

theorem isPlain_writeFloat (x : Binary64) : ∀ c ∈ writeFloat x, IsPlain c := by
  cases x with
  | nan => exact forall_of_all (by decide)
  | infinite negative => cases negative <;> exact forall_of_all (by decide)
  | finite negative m e =>
    obtain ⟨cs, hfloat, htext⟩ := exists_isFloatText negative m e
    rw [htext]
    exact isPlain_signed hfloat.chars

theorem isPlain_break (l : Layout) (level : Nat) : ∀ c ∈ l.break level, IsPlain c := by
  rw [Layout.break]
  split
  · refine List.forall_mem_cons.mpr ⟨by decide, fun c hc ↦ ?_⟩
    rw [List.eq_of_mem_replicate hc]
    decide
  · simp

theorem isPlain_separator (l : Layout) (level : Nat) : ∀ c ∈ l.separator level, IsPlain c := by
  rw [Layout.separator]
  split
  · exact List.forall_mem_cons.mpr ⟨by decide, isPlain_break l level⟩
  · exact forall_of_all (by decide)

mutual

/-- **A value is written in plain characters.** -/
theorem isPlain_write (l : Layout) (level : Nat) : ∀ v : Value, ∀ c ∈ write l level v, IsPlain c
  | .null => by simp only [write]; exact forall_of_all (by decide)
  | .bool b => by cases b <;> (simp only [write]; exact forall_of_all (by decide))
  | .int n => by simpa only [write] using isPlain_toString n
  | .float x => by simpa only [write] using isPlain_writeFloat x
  | .str s => by simpa only [write] using isPlain_writeString s
  | .arr [] => by simp only [write]; exact forall_of_all (by decide)
  | .arr (v :: vs) => by
    have hopen : IsPlain '[' := by decide
    have hclose : IsPlain ']' := by decide
    simp only [write, List.forall_mem_append, List.forall_mem_cons, List.cons_append]
    exact ⟨hopen, ⟨⟨⟨isPlain_break _ _, isPlain_write l _ v⟩, isPlain_writeItems l _ vs⟩,
      isPlain_break _ _⟩, hclose, by simp⟩
  | .obj [] => by simp only [write]; exact forall_of_all (by decide)
  | .obj ((k, v) :: fields) => by
    have hopen : IsPlain '\x7b' := by decide
    have hclose : IsPlain '\x7d' := by decide
    have hcolon : IsPlain ':' ∧ IsPlain ' ' := by decide
    simp only [write, List.forall_mem_append, List.forall_mem_cons, List.cons_append]
    exact ⟨hopen, ⟨⟨⟨⟨⟨isPlain_break _ _, isPlain_writeString k⟩, hcolon.1, hcolon.2, by simp⟩,
      isPlain_write l _ v⟩, isPlain_writeFields l _ fields⟩, isPlain_break _ _⟩, hclose, by simp⟩

theorem isPlain_writeItems (l : Layout) (level : Nat) :
    ∀ vs : List Value, ∀ c ∈ writeItems l level vs, IsPlain c
  | [] => by simp [writeItems]
  | v :: vs => by
    simp only [writeItems, List.forall_mem_append]
    exact ⟨⟨isPlain_separator l level, isPlain_write l level v⟩, isPlain_writeItems l level vs⟩

theorem isPlain_writeFields (l : Layout) (level : Nat) :
    ∀ fields : List (String × Value), ∀ c ∈ writeFields l level fields, IsPlain c
  | [] => by simp [writeFields]
  | (k, v) :: fields => by
    have hcolon : ∀ c ∈ [':', ' '], IsPlain c := forall_of_all (by decide)
    simp only [writeFields, List.forall_mem_append]
    exact ⟨⟨⟨⟨isPlain_separator l level, isPlain_writeString k⟩, hcolon⟩, isPlain_write l level v⟩,
      isPlain_writeFields l level fields⟩

end

/-! ## What stands between the parts -/

/-- Spaces and nothing else. -/
def IsGap (cs : List Char) : Prop := ∀ c ∈ cs, isSpace c = true

theorem isGap_break (l : Layout) (level : Nat) : IsGap (l.break level) := by
  rw [Layout.break]
  split
  · refine List.forall_mem_cons.mpr ⟨rfl, fun c hc ↦ ?_⟩
    rw [List.eq_of_mem_replicate hc]
    rfl
  · intro c hc
    cases hc

/-- Two items have a comma and a gap between them. -/
theorem exists_separator (l : Layout) (level : Nat) : ∃ gap, IsGap gap ∧ l.separator level = ',' :: gap := by
  rw [Layout.separator]
  split
  · exact ⟨l.break level, isGap_break l level, rfl⟩
  · exact ⟨[' '], List.forall_mem_singleton.mpr rfl, rfl⟩

theorem skipSpace_gap {gap : List Char} (h : IsGap gap) (cs : List Char) :
    skipSpace (gap ++ cs) = skipSpace cs :=
  List.dropWhile_append_of_pos h

theorem skipSpace_of_head {c : Char} {cs : List Char} (h : isSpace c = false) :
    skipSpace (c :: cs) = c :: cs := by
  simp [skipSpace, h]

/-- No number goes on with a gap, nor with one of the marks that follow a value. -/
theorem endsNumber_gap {gap : List Char} (h : IsGap gap) {c : Char} (hc : c ∈ [',', ']', '\x7d'])
    (cs : List Char) : EndsNumber (gap ++ c :: cs) := by
  have hmark : ∀ c ∈ [',', ']', '\x7d'], c.isDigit = false ∧ c ≠ '.' ∧ c ≠ 'e' ∧ c ≠ 'E' :=
    forall_of_all (by decide)
  have hspace : ∀ c ∈ [' ', '\n', '\t', '\r'], c.isDigit = false ∧ c ≠ '.' ∧ c ≠ 'e' ∧ c ≠ 'E' :=
    forall_of_all (by decide)
  intro d hd
  cases gap with
  | nil =>
    cases hd
    exact hmark c hc
  | cons b gap =>
    cases hd
    refine hspace d ?_
    simpa [isSpace, or_assoc] using h d List.mem_cons_self

theorem endsNumber_comma (cs : List Char) : EndsNumber (',' :: cs) := by
  have hgap : IsGap [] := fun _ h ↦ by cases h
  exact endsNumber_gap hgap (by decide) cs

/-! ## The start of a value -/

theorem ne_of_isDigit {c d : Char} (hc : c.isDigit = true) (hd : d.isDigit = false) : c ≠ d := by
  rintro rfl
  rw [hc] at hd
  cases hd

/-- A written value starts with no space, and with no bracket that closes. -/
theorem exists_head_write (l : Layout) (level : Nat) (v : Value) :
    ∃ c cs, write l level v = c :: cs ∧ isSpace c = false ∧ c ≠ ']' := by
  have hsigned : ∀ {negative : Bool} {cs : List Char}, StartsDigit cs →
      ∃ c ds, signed negative cs = c :: ds ∧ isSpace c = false ∧ c ≠ ']' := by
    rintro negative _ ⟨c, cs, rfl, hc⟩
    cases negative with
    | true => exact ⟨'-', c :: cs, rfl, rfl, by decide⟩
    | false =>
      have hspace : isSpace c = false := by
        simp [isSpace, ne_of_isDigit hc]
      exact ⟨c, cs, rfl, hspace, ne_of_isDigit hc rfl⟩
  cases v with
  | null => exact ⟨_, _, rfl, rfl, by decide⟩
  | bool b => cases b <;> exact ⟨_, _, rfl, rfl, by decide⟩
  | int n =>
    rw [write, toList_toString]
    exact hsigned (isDigits_toDigits _).startsDigit
  | float x =>
    rw [write]
    cases x with
    | nan => exact ⟨_, _, rfl, rfl, by decide⟩
    | infinite negative => cases negative <;> exact ⟨_, _, rfl, rfl, by decide⟩
    | finite negative m e =>
      obtain ⟨cs, hfloat, htext⟩ := exists_isFloatText negative m e
      rw [htext]
      exact hsigned hfloat.startsDigit
  | str s => exact ⟨_, _, rfl, rfl, by decide⟩
  | arr items => cases items <;> exact ⟨_, _, rfl, rfl, by decide⟩
  | obj fields => cases fields <;> exact ⟨_, _, rfl, rfl, by decide⟩

theorem skipSpace_write (v : Value) (cs : List Char) :
    skipSpace (write l level v ++ cs) = write l level v ++ cs := by
  obtain ⟨c, ds, hhead, hspace, -⟩ := exists_head_write l level v
  rw [hhead]
  exact skipSpace_of_head hspace

/-- A number is no word. -/
theorem readWord?_signed {negative : Bool} {cs : List Char} (hcs : StartsDigit cs) :
    readWord? (signed negative cs ++ rest) = none := by
  obtain ⟨c, ds, rfl, hc⟩ := hcs
  have hne : ∀ d : Char, d.isDigit = false → d ≠ c := fun d hd ↦ (ne_of_isDigit hc hd).symm
  cases negative with
  | false =>
    simp [readWord?, words, signed, hne 'n' rfl, hne 't' rfl, hne 'f' rfl, hne 'N' rfl, hne 'I' rfl,
      hne '-' rfl]
  | true => simp [readWord?, words, signed, hne 'I' rfl]

theorem readValue_signed {negative : Bool} {cs : List Char} {r : Value × List Char} (hcs : StartsDigit cs)
    (h : readNumber (signed negative cs ++ rest) = .ok r) :
    readValue (steps + 1) levels (signed negative cs ++ rest) = .ok r := by
  have hword : readWord? (signed negative cs ++ rest) = none := readWord?_signed hcs
  obtain ⟨c, ds, rfl, hc⟩ := hcs
  cases negative with
  | false =>
    simp only [signed, List.cons_append, Bool.false_eq_true, if_false] at h hword ⊢
    have hquote : c ≠ '\x22' := ne_of_isDigit hc rfl
    have harray : c ≠ '[' := ne_of_isDigit hc rfl
    have hobject : c ≠ '\x7b' := ne_of_isDigit hc rfl
    simpa [readValue, hquote, harray, hobject, hword] using h
  | true =>
    simp only [signed, List.cons_append, if_true] at h hword ⊢
    simpa [readValue, hword] using h

theorem skipSpace_writeString (s : String) (cs : List Char) :
    skipSpace (writeString s ++ cs) = writeString s ++ cs := skipSpace_of_head rfl

theorem readValue_text (s : String) (rest : List Char) :
    readValue (steps + 1) levels (writeString s ++ rest) = .ok (.str s, rest) := by
  obtain ⟨cs, hcs, hread⟩ := readString_writeString s rest
  rw [hcs]
  simp [readValue, Text.doubleQuote, hread, Except.map]

theorem readValue_array {cs ds : List Char} {c : Char} (hskip : skipSpace cs = c :: ds) (hc : c ≠ ']') :
    readValue (steps + 1) (levels + 1) ('[' :: cs)
      = (readItems steps levels (c :: ds)).map fun r ↦ (.arr r.1, r.2) := by
  simp [readValue, hskip, hc]

theorem readValue_object {cs ds : List Char} {c : Char} (hskip : skipSpace cs = c :: ds) (hc : c ≠ '\x7d') :
    readValue (steps + 1) (levels + 1) ('\x7b' :: cs)
      = (readFields steps levels [] (c :: ds)).map fun r ↦ (.obj r.1, r.2) := by
  simp [readValue, hskip, hc]

theorem readItems_last {v : Value} {cs gap : List Char} (hgap : IsGap gap)
    (hread : readValue steps levels cs = .ok (v, gap ++ ']' :: rest)) :
    readItems (steps + 1) levels cs = .ok ([v], rest) := by
  have hskip : skipSpace (gap ++ ']' :: rest) = ']' :: rest := by
    rw [skipSpace_gap hgap, skipSpace_of_head rfl]
  simp [readItems, hread, hskip]

theorem readItems_more {v : Value} {cs gap : List Char} (hgap : IsGap gap)
    (hread : readValue steps levels cs = .ok (v, ',' :: (gap ++ rest))) :
    readItems (steps + 1) levels cs
      = (readItems steps levels (skipSpace rest)).map fun r ↦ (v :: r.1, r.2) := by
  have hskip : skipSpace (',' :: (gap ++ rest)) = ',' :: (gap ++ rest) := skipSpace_of_head rfl
  simp [readItems, hread, hskip, skipSpace_gap hgap]

section Field

variable {k : String} {v : Value} {done : List (String × Value)} {cs gap : List Char}

theorem readFields_last (hgap : IsGap gap)
    (hread : readValue steps levels (skipSpace (' ' :: cs)) = .ok (v, gap ++ '\x7d' :: rest)) :
    readFields (steps + 1) levels done (writeString k ++ ':' :: ' ' :: cs)
      = .ok (setField k v done, rest) := by
  obtain ⟨ds, hkey, hreadKey⟩ := readString_writeString k (':' :: ' ' :: cs)
  have hcolon : skipSpace (':' :: ' ' :: cs) = ':' :: ' ' :: cs := skipSpace_of_head rfl
  have hskip : skipSpace (gap ++ '\x7d' :: rest) = '\x7d' :: rest := by
    rw [skipSpace_gap hgap, skipSpace_of_head rfl]
  rw [hkey]
  simp [readFields, Text.doubleQuote, hreadKey, hcolon, hread, hskip]

theorem readFields_more (hgap : IsGap gap)
    (hread : readValue steps levels (skipSpace (' ' :: cs)) = .ok (v, ',' :: (gap ++ rest))) :
    readFields (steps + 1) levels done (writeString k ++ ':' :: ' ' :: cs)
      = readFields steps levels (setField k v done) (skipSpace rest) := by
  obtain ⟨ds, hkey, hreadKey⟩ := readString_writeString k (':' :: ' ' :: cs)
  have hcolon : skipSpace (':' :: ' ' :: cs) = ':' :: ' ' :: cs := skipSpace_of_head rfl
  have hskip : skipSpace (',' :: (gap ++ rest)) = ',' :: (gap ++ rest) := skipSpace_of_head rfl
  rw [hkey]
  simp [readFields, Text.doubleQuote, hreadKey, hcolon, hread, hskip, skipSpace_gap hgap]

end Field

/-! ## Step by step -/

/-- With so many steps, what is written in a layout is read. Each step takes at least one character. -/
structure ReadsBack (l : Layout) (steps : Nat) : Prop where
  value : ∀ (level : Nat) {v : Value} {levels : Nat} {rest : List Char}, v.IsReadable → v.depth ≤ levels →
    EndsNumber rest → (write l level v).length ≤ steps →
    readValue steps levels (write l level v ++ rest) = .ok (v.mapFloats reread, rest)
  items : ∀ (level : Nat) (rest : List Char) {v : Value} {vs : List Value} {levels : Nat} {gap : List Char},
    ItemsReadable (v :: vs) → itemsDepth (v :: vs) ≤ levels → IsGap gap →
    (write l level v).length + (writeItems l level vs).length < steps →
    readItems steps levels (write l level v ++ (writeItems l level vs ++ (gap ++ ']' :: rest)))
      = .ok (mapItems reread (v :: vs), rest)
  fields : ∀ (level : Nat) (done : List (String × Value)) (rest : List Char) {k : String} {v : Value}
    {fields : List (String × Value)} {levels : Nat} {gap : List Char},
    FieldsReadable ((k, v) :: fields) → fieldsDepth ((k, v) :: fields) ≤ levels → IsGap gap →
    (done.map Prod.fst ++ k :: fields.map Prod.fst).Nodup →
    (write l level v).length + (writeFields l level fields).length < steps →
    readFields steps levels done (writeString k ++ ':' :: ' ' ::
        (write l level v ++ (writeFields l level fields ++ (gap ++ '\x7d' :: rest))))
      = .ok (done ++ mapFields reread ((k, v) :: fields), rest)

theorem length_write_pos (l : Layout) (level : Nat) (v : Value) : 0 < (write l level v).length := by
  obtain ⟨c, cs, hhead, -⟩ := exists_head_write l level v
  rw [hhead]
  exact Nat.succ_pos _

namespace ReadsBack

theorem value_succ (ih : ReadsBack l steps) (level : Nat) {v : Value} (hv : v.IsReadable)
    (hdepth : v.depth ≤ levels) (hrest : EndsNumber rest)
    (hlength : (write l level v).length ≤ steps + 1) :
    readValue (steps + 1) levels (write l level v ++ rest) = .ok (v.mapFloats reread, rest) := by
  cases v with
  | null => rfl
  | bool b => cases b <;> rfl
  | int n =>
    have hread := readNumber_toString hv hrest
    rw [write, mapFloats]
    rw [toList_toString] at hread ⊢
    exact readValue_signed (isDigits_toDigits _).startsDigit hread
    all_goals simp
  | float x =>
    rw [write, mapFloats]
    cases x with
    | nan => rfl
    | infinite negative => cases negative <;> rfl
    | finite negative m e =>
      have hread := readNumber_writeFloat negative m e hrest
      obtain ⟨cs, hfloat, htext⟩ := exists_isFloatText negative m e
      rw [htext] at hread ⊢
      exact readValue_signed hfloat.startsDigit hread
  | str s =>
    rw [write, mapFloats]
    · exact readValue_text s rest
    all_goals simp
  | arr items =>
    obtain ⟨levels, rfl⟩ := Nat.exists_eq_add_one_of_ne_zero (Nat.ne_zero_of_lt hdepth)
    cases items with
    | nil => simp [write, readValue, skipSpace, isSpace, mapFloats, mapItems]
    | cons v vs =>
      -- the brackets leave enough steps for the items
      simp only [write, List.length_append, List.length_cons] at hlength
      have hread := ih.items (level + 1) rest hv (Nat.le_of_succ_le_succ hdepth)
        (isGap_break l level) (by omega)
      obtain ⟨c, cs, hhead, hspace, hc⟩ := exists_head_write l (level + 1) v
      simp only [write, mapFloats, List.cons_append, List.append_assoc, List.nil_append]
      simp only [hhead, List.cons_append] at hread ⊢
      rw [readValue_array _ hc, hread]
      · rfl
      · rw [skipSpace_gap (isGap_break l (level + 1)), skipSpace_of_head hspace]
  | obj fields =>
    obtain ⟨levels, rfl⟩ := Nat.exists_eq_add_one_of_ne_zero (Nat.ne_zero_of_lt hdepth)
    cases fields with
    | nil => simp [write, readValue, skipSpace, isSpace, mapFloats, mapFields]
    | cons field fields =>
      obtain ⟨k, v⟩ := field
      simp only [write, List.length_append, List.length_cons] at hlength
      have hread := ih.fields (level + 1) [] rest hv.2
        (Nat.le_of_succ_le_succ hdepth) (isGap_break l level) hv.1 (by omega)
      simp only [write, mapFloats, writeString, List.cons_append, List.append_assoc,
        List.nil_append] at hread ⊢
      rw [readValue_object _ (show Text.doubleQuote ≠ '\x7d' by decide), hread]
      · rfl
      · rw [skipSpace_gap (isGap_break l (level + 1)), skipSpace_of_head rfl]

theorem items_succ (ih : ReadsBack l steps) (level : Nat) (rest : List Char) {v : Value} {vs : List Value}
    {gap : List Char}
    (hvs : ItemsReadable (v :: vs)) (hdepth : itemsDepth (v :: vs) ≤ levels) (hgap : IsGap gap)
    (hlength : (write l level v).length + (writeItems l level vs).length < steps + 1) :
    readItems (steps + 1) levels (write l level v ++ (writeItems l level vs ++ (gap ++ ']' :: rest)))
      = .ok (mapItems reread (v :: vs), rest) := by
  rw [itemsDepth, Nat.max_le] at hdepth
  cases vs with
  | nil =>
    have hread := ih.value level hvs.1 hdepth.1 (endsNumber_gap hgap (c := ']') (by decide) rest)
      (Nat.le_of_lt_succ hlength)
    rw [writeItems, List.nil_append, readItems_last hgap hread]
    rfl
  | cons w ws =>
    obtain ⟨between, hbetween, hseparator⟩ := exists_separator l level
    simp only [writeItems, hseparator, List.length_append, List.length_cons] at hlength
    have hread := ih.value level hvs.1 hdepth.1 (endsNumber_comma
      (between ++ (write l level w ++ (writeItems l level ws ++ (gap ++ ']' :: rest))))) (by omega)
    have hmore := ih.items level rest hvs.2 hdepth.2 hgap (by omega)
    simp only [writeItems, hseparator, List.append_assoc, List.cons_append]
    rw [readItems_more hbetween hread, skipSpace_write, hmore]
    rfl

theorem fields_succ (ih : ReadsBack l steps) (level : Nat) (done : List (String × Value)) (rest : List Char)
    {k : String} {v : Value} {fields : List (String × Value)} {gap : List Char}
    (hfields : FieldsReadable ((k, v) :: fields)) (hdepth : fieldsDepth ((k, v) :: fields) ≤ levels)
    (hgap : IsGap gap) (hkeys : (done.map Prod.fst ++ k :: fields.map Prod.fst).Nodup)
    (hlength : (write l level v).length + (writeFields l level fields).length < steps + 1) :
    readFields (steps + 1) levels done (writeString k ++ ':' :: ' ' ::
        (write l level v ++ (writeFields l level fields ++ (gap ++ '\x7d' :: rest))))
      = .ok (done ++ mapFields reread ((k, v) :: fields), rest) := by
  rw [fieldsDepth, Nat.max_le] at hdepth
  -- the key comes after those that are done, for it is none of them
  have hfresh : k ∉ done.map Prod.fst := fun hmem ↦
    (List.nodup_append.mp hkeys).2.2 k hmem k List.mem_cons_self rfl
  have hset : setField k (v.mapFloats reread) done = done ++ [(k, v.mapFloats reread)] :=
    setField_of_notMem _ hfresh
  have hspace : IsGap [' '] := List.forall_mem_singleton.mpr rfl
  have hvalue : ∀ rest, skipSpace (' ' :: (write l level v ++ rest)) = write l level v ++ rest :=
    fun rest ↦ (skipSpace_gap hspace _).trans (skipSpace_write v rest)
  cases fields with
  | nil =>
    have hread := ih.value level hfields.1 hdepth.1 (endsNumber_gap hgap (c := '\x7d') (by decide) rest)
      (Nat.le_of_lt_succ hlength)
    rw [← hvalue] at hread
    rw [writeFields, List.nil_append, readFields_last hgap hread, hset]
    rfl
  | cons field fields =>
    obtain ⟨k', v'⟩ := field
    obtain ⟨between, hbetween, hseparator⟩ := exists_separator l level
    simp only [writeFields, hseparator, List.length_append, List.length_cons] at hlength
    have hread := ih.value level hfields.1 hdepth.1 (endsNumber_comma
      (between ++ (writeString k' ++ ':' :: ' ' ::
        (write l level v' ++ (writeFields l level fields ++ (gap ++ '\x7d' :: rest)))))) (by omega)
    have hmore := ih.fields level (done ++ [(k, v.mapFloats reread)]) rest hfields.2 hdepth.2 hgap
      (by simpa using hkeys) (by omega)
    rw [← hvalue] at hread
    simp only [writeFields, hseparator, List.append_assoc, List.cons_append, List.nil_append]
    rw [readFields_more hbetween hread, hset, skipSpace_writeString, hmore, List.append_assoc]
    rfl

end ReadsBack

/-- **What is written is read**, with as many steps as there are characters. -/
theorem readsBack (l : Layout) (steps : Nat) : ReadsBack l steps := by
  induction steps with
  | zero =>
    constructor
    · intro level v levels rest _ _ _ hlength
      exact absurd (length_write_pos l level v) (Nat.not_lt.mpr hlength)
    · intro level rest v vs levels gap _ _ _ hlength
      exact absurd hlength (Nat.not_lt_zero _)
    · intro level done rest k v fields levels gap _ _ _ _ hlength
      exact absurd hlength (Nat.not_lt_zero _)
  | succ steps ih =>
    exact ⟨fun level ↦ ih.value_succ level, fun level rest ↦ ih.items_succ level rest,
      fun level done rest ↦ ih.fields_succ level done rest⟩

/-- **A value that is written over several lines is decoded**, up to its floating point numbers, also with an
end of a line after it. -/
theorem decode_indented {v : Value} (hv : v.IsReadable) (hdepth : v.depth ≤ maxNesting) :
    decode (indented v ++ "\n").toList = .ok (v.mapFloats reread) := by
  obtain ⟨c, cs, hhead, -⟩ := exists_head_write .indented 0 v
  have htext : (indented v ++ "\n").toList = write .indented 0 v ++ ['\n'] := by
    rw [indented, String.toList_append, String.toList_ofList]
    rfl
  have hmark : c ≠ '\ufeff' := by
    have hplain := isPlain_write .indented 0 v c (hhead ▸ List.mem_cons_self)
    rintro rfl
    revert hplain
    decide
  have hend : EndsNumber ['\n'] := by
    intro c hc
    cases hc
    decide
  have hread := (readsBack .indented (2 * (write .indented 0 v ++ ['\n']).length + 2)).value 0
    hv hdepth hend (by rw [List.length_append]; omega)
  rw [htext]
  unfold decode
  split
  · next heq =>
    rw [hhead] at heq
    cases heq
    exact (hmark rfl).elim
  · rw [skipSpace_write, hread]
    rfl

end Json

end RefCheck
