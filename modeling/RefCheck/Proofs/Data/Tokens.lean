import RefCheck.Data.Reader
import RefCheck.Data.Writer

/-!
# Texts and numbers that are written are read

A text is written with escapes, and reading takes each of them for the character that it was written for:
`Json.readString_writeString`. A whole number is read as it was written unless it is too long. A floating
point number is read as a floating point number, and `Json.reread` says as which one; nothing here says that
it is the same one.

A number has no mark at its end. It is told apart from what follows by the first character of that, so the
laws for numbers ask that no number could go on there (`EndsNumber`).
-/

namespace RefCheck.Json

/-! ## Texts -/

theorem hexValue?_hexDigit : ∀ d < 16, hexValue? (Text.hexDigit d) = some d := by decide

/-- The digits of a unit are read as that unit. -/
theorem exists_hexFixed {n : Nat} (h : n < 0x10000) :
    ∃ a b c d, Text.hexFixed 4 n = [a, b, c, d] ∧ hexUnit? a b c d = some n := by
  refine ⟨_, _, _, _, rfl, ?_⟩
  have hdigit : ∀ k, hexValue? (Text.hexDigit (k % 16)) = some (k % 16) :=
    fun k ↦ hexValue?_hexDigit _ (Nat.mod_lt _ (by decide))
  simp only [hexUnit?, hdigit, Option.some.injEq]
  omega

variable {start steps : Nat} {rest : List Char}

/-- The numeric escape of a unit that is no half of a pair is read as its character. -/
theorem readChars_unit {n : Nat} (hn : n < 0x10000) (hhigh : isHighUnit n = false)
    (hlow : isLowUnit n = false) (hrest : rest ≠ []) :
    readChars start (steps + 1) (unitEscape n ++ rest)
      = (readChars start steps rest).map fun r ↦ (Char.ofNat n :: r.1, r.2) := by
  obtain ⟨a, b, c, d, hdigits, hunit⟩ := exists_hexFixed hn
  have hempty : rest.isEmpty = false := by simpa using hrest
  have hchar : unitChar n = Char.ofNat n := by simp [unitChar, hhigh, hlow]
  rw [unitEscape, hdigits]
  simp [readChars, Text.backslash, hempty, hunit, hhigh, hchar]

/-- The numeric escapes of the two halves of a pair are read as one character. -/
theorem readChars_pair {high low : Nat} (hhigh : isHighUnit high = true) (hlow : isLowUnit low = true)
    (hrest : rest ≠ []) :
    readChars start (steps + 1) (unitEscape high ++ unitEscape low ++ rest)
      = (readChars start steps rest).map fun r ↦ (pairChar high low :: r.1, r.2) := by
  simp only [isHighUnit, isLowUnit, Bool.and_eq_true, decide_eq_true_eq] at hhigh hlow
  obtain ⟨a, b, c, d, hdigits, hunit⟩ := exists_hexFixed (show high < 0x10000 by omega)
  obtain ⟨a', b', c', d', hdigits', hunit'⟩ := exists_hexFixed (show low < 0x10000 by omega)
  have hempty : rest.isEmpty = false := by simpa using hrest
  have hhigh' : isHighUnit high = true := by simpa [isHighUnit] using hhigh
  have hlow' : isLowUnit low = true := by simpa [isLowUnit] using hlow
  rw [unitEscape, unitEscape, hdigits, hdigits']
  simp [readChars, Text.backslash, hempty, hunit, hunit', hhigh', hlow']

/-- No character is half of a pair. -/
theorem isUnit_toNat_eq_false (c : Char) : isHighUnit c.toNat = false ∧ isLowUnit c.toNat = false := by
  have hvalid : c.toNat < 0xD800 ∨ 0xDFFF < c.toNat ∧ c.toNat < 0x110000 := c.valid
  simp only [isHighUnit, isLowUnit, Bool.and_eq_false_iff, decide_eq_false_iff_not]
  omega

/-- What lies beyond the units is a pair of halves, which stand for it. -/
theorem pairChar_halves {n : Nat} (hlarge : 0x10000 ≤ n) (hbound : n < 0x110000) :
    isHighUnit (0xD800 + (n - 0x10000) / 0x400) = true ∧ isLowUnit (0xDC00 + (n - 0x10000) % 0x400) = true ∧
      pairChar (0xD800 + (n - 0x10000) / 0x400) (0xDC00 + (n - 0x10000) % 0x400) = Char.ofNat n := by
  simp only [isHighUnit, isLowUnit, Bool.and_eq_true, decide_eq_true_eq]
  refine ⟨by omega, by omega, ?_⟩
  have hpair : 0x10000 + (0xD800 + (n - 0x10000) / 0x400 - 0xD800) * 0x400
      + (0xDC00 + (n - 0x10000) % 0x400 - 0xDC00) = n := by omega
  rw [pairChar, hpair]

/-- **An escape is read as the character that it was written for.** -/
theorem readChars_escapeChar (c : Char) (hrest : rest ≠ []) :
    readChars start (steps + 1) (escapeChar c ++ rest)
      = (readChars start steps rest).map fun r ↦ (c :: r.1, r.2) := by
  have hpoint : Char.ofNat c.toNat = c := Char.ofNat_toNat c
  unfold escapeChar
  dsimp only
  split
  · next hquote =>
    have hquote : c = Text.doubleQuote ∨ c = Text.backslash := by simpa using hquote
    rcases hquote with rfl | rfl <;>
      simp [readChars, shortEscape?, Text.doubleQuote, Text.backslash]
  split
  · next hc =>
    subst hc
    simp [readChars, shortEscape?, Text.backslash]
  split
  · next hc =>
    subst hc
    simp [readChars, shortEscape?, Text.backslash]
  split
  · next hc =>
    subst hc
    simp [readChars, shortEscape?, Text.backslash]
  split
  · next hc =>
    rw [← hpoint, hc]
    simp [readChars, shortEscape?, Text.backslash]
  split
  · next hc =>
    rw [← hpoint, hc]
    simp [readChars, shortEscape?, Text.backslash]
  split
  · next hquote _ _ _ _ _ hplain =>
    have hdouble : c ≠ '\x22' := fun h ↦ hquote (by simp [h, Text.doubleQuote])
    have hbackslash : c ≠ '\x5c' := fun h ↦ hquote (by simp [h, Text.backslash])
    rw [Bool.and_eq_true, decide_eq_true_eq, decide_eq_true_eq] at hplain
    simp [readChars, hdouble, hbackslash, Nat.not_lt.mpr hplain.1]
  -- the rest have numeric escapes, of one unit or of two
  split
  · next hsmall =>
    obtain ⟨hhigh, hlow⟩ := isUnit_toNat_eq_false c
    rw [readChars_unit hsmall hhigh hlow hrest, hpoint]
  · next hlarge =>
    have hvalid : c.toNat < 0xD800 ∨ 0xDFFF < c.toNat ∧ c.toNat < 0x110000 := c.valid
    obtain ⟨hhigh, hlow, hchar⟩ := pairChar_halves (Nat.not_lt.mp hlarge) (by omega)
    rw [readChars_pair hhigh hlow hrest, hchar, hpoint]

theorem readChars_flatMap (cs rest : List Char) : ∀ {steps : Nat}, cs.length < steps →
    readChars start steps (cs.flatMap escapeChar ++ Text.doubleQuote :: rest) = .ok (cs, rest) := by
  induction cs with
  | nil =>
    intro steps h
    obtain ⟨steps, rfl⟩ := Nat.exists_eq_add_one_of_ne_zero (Nat.ne_zero_of_lt h)
    simp [readChars, Text.doubleQuote]
  | cons c cs ih =>
    intro steps h
    obtain ⟨steps, rfl⟩ := Nat.exists_eq_add_one_of_ne_zero (Nat.ne_zero_of_lt h)
    rw [List.flatMap_cons, List.append_assoc, readChars_escapeChar c (by simp),
      ih (by simpa using h)]
    rfl

theorem length_escapeChar_pos (c : Char) : 0 < (escapeChar c).length := by
  unfold escapeChar
  dsimp only
  repeat' split
  all_goals simp [unitEscape]

theorem length_le_flatMap_escapeChar (cs : List Char) : cs.length ≤ (cs.flatMap escapeChar).length := by
  induction cs with
  | nil => exact Nat.le_refl 0
  | cons c cs ih =>
    have hpos := length_escapeChar_pos c
    rw [List.flatMap_cons, List.length_append, List.length_cons]
    omega

/-- **A text is read as it was written**, whatever follows it. -/
theorem readString_writeString (s : String) (rest : List Char) :
    ∃ cs, writeString s ++ rest = Text.doubleQuote :: cs ∧ readString cs = .ok (s, rest) := by
  refine ⟨s.toList.flatMap escapeChar ++ Text.doubleQuote :: rest, by simp [writeString], ?_⟩
  have hlength := length_le_flatMap_escapeChar s.toList
  rw [readString, readChars_flatMap]
  · simp [Except.map]
  · rw [List.length_append]
    omega

/-! ## Numbers -/

/-- No number goes on here. -/
def EndsNumber (rest : List Char) : Prop :=
  ∀ c ∈ rest.head?, c.isDigit = false ∧ c ≠ '.' ∧ c ≠ 'e' ∧ c ≠ 'E'

/-- The characters are digits, at least one. -/
structure IsDigits (ds : List Char) : Prop where
  ne_nil : ds ≠ []
  digits : ∀ c ∈ ds, c.isDigit = true

/-- Digits that do not start with zero, or a zero alone. -/
def IsWholePart (ds : List Char) : Prop := IsDigits ds ∧ (ds = ['0'] ∨ ds.head? ≠ some '0')

/-- No digit follows. -/
def StopsDigits (rest : List Char) : Prop := ∀ c ∈ rest.head?, c.isDigit = false

theorem EndsNumber.stopsDigits (h : EndsNumber rest) : StopsDigits rest := fun c hc ↦ (h c hc).1

theorem takeDigits_append {ds : List Char} (hds : ∀ c ∈ ds, c.isDigit = true) (hrest : StopsDigits rest) :
    takeDigits (ds ++ rest) = (ds, rest) := by
  rw [takeDigits, List.takeWhile_append_of_pos hds, List.dropWhile_append_of_pos hds]
  cases rest with
  | nil => simp
  | cons c cs => simp [hrest c rfl]

theorem takeWhole?_append {ds : List Char} (hds : IsWholePart ds) (hrest : StopsDigits rest) :
    takeWhole? (ds ++ rest) = some (ds, rest) := by
  obtain ⟨⟨hne, hdigits⟩, hzero⟩ := hds
  cases ds with
  | nil => exact (hne rfl).elim
  | cons c ds =>
    rw [List.cons_append, takeWhole?]
    by_cases hc : c = '0'
    · have hds : ds = [] := by simpa [hc] using hzero
      rw [if_pos hc, hds, List.nil_append]
    · rw [if_neg hc, if_pos (hdigits c List.mem_cons_self), ← List.cons_append,
        takeDigits_append hdigits hrest]

theorem takePlaces_of_ne (h : rest.head? ≠ some '.') : takePlaces rest = ([], rest) := by
  cases rest with
  | nil => rfl
  | cons c cs =>
    have hc : c ≠ '.' := by simpa using h
    simp [takePlaces, hc]

theorem takePlaces_point {ds : List Char} (hds : IsDigits ds) (hrest : StopsDigits rest) :
    takePlaces ('.' :: (ds ++ rest)) = (ds, rest) := by
  have hne := hds.ne_nil
  rw [takePlaces, takeDigits_append hds.digits hrest]
  split
  · next heq =>
    exact (hne (Prod.mk.inj heq).1).elim
  · rfl

theorem takeExponent?_of_ends (h : EndsNumber rest) : takeExponent? rest = none := by
  cases rest with
  | nil => rfl
  | cons c cs =>
    obtain ⟨-, -, he, hE⟩ := h c rfl
    simp [takeExponent?, he, hE]

/-- An exponent with its sign. -/
theorem takeExponent?_sign {ds : List Char} (negative : Bool) (hds : IsDigits ds) (hrest : StopsDigits rest) :
    takeExponent? ('e' :: (if negative then '-' else '+') :: (ds ++ rest))
      = some (if negative then -(digitsValue ds : Int) else digitsValue ds, rest) := by
  have hne := hds.ne_nil
  have htake := takeDigits_append hds.digits hrest
  cases negative <;> cases ds <;> simp_all [takeExponent?]

/-! ### Whole numbers -/

theorem isDigits_toDigits (n : Nat) : IsDigits (Nat.toDigits 10 n) :=
  ⟨Nat.toDigits_ne_nil, fun _ hc ↦ Nat.isDigit_of_mem_toDigits (by decide) (by decide) hc⟩

theorem head?_toDigits_ne {n : Nat} (hn : n ≠ 0) : (Nat.toDigits 10 n).head? ≠ some '0' := by
  induction n using Nat.strongRecOn with
  | ind n ih =>
    by_cases hsmall : n < 10
    · rw [Nat.toDigits_of_lt_base hsmall]
      simpa using hn
    · have htenth : n / 10 ≠ 0 := by omega
      have hhead := ih (n / 10) (by omega) htenth
      have hne : Nat.toDigits 10 (n / 10) ≠ [] := Nat.toDigits_ne_nil
      obtain ⟨c, cs, hdigits⟩ := List.exists_cons_of_ne_nil hne
      rw [Nat.toDigits_of_base_le (by decide) (by omega), hdigits]
      rw [hdigits] at hhead
      simpa using hhead

theorem isWholePart_toDigits (n : Nat) : IsWholePart (Nat.toDigits 10 n) := by
  refine ⟨isDigits_toDigits n, ?_⟩
  by_cases hn : n = 0
  · exact .inl (by rw [hn, Nat.toDigits_zero])
  · exact .inr (head?_toDigits_ne hn)

theorem digitsValue_toDigits (n : Nat) : digitsValue (Nat.toDigits 10 n) = n :=
  Nat.ofDigitChars_ten_toDigits

/-- A whole number has no more digits than are read. -/
def IsShort (n : Int) : Prop := (Nat.toDigits 10 n.natAbs).length ≤ Text.maxDigits

theorem readUnsigned_toDigits (negative : Bool) {n : Nat}
    (hn : (Nat.toDigits 10 n).length ≤ Text.maxDigits) (hrest : EndsNumber rest) :
    readUnsigned negative (Nat.toDigits 10 n ++ rest)
      = .ok (.int (if negative then -(n : Int) else n), rest) := by
  have hpoint : rest.head? ≠ some '.' := fun h ↦ (hrest '.' h).2.1 rfl
  rw [readUnsigned, takeWhole?_append (isWholePart_toDigits n) hrest.stopsDigits]
  dsimp only
  rw [takePlaces_of_ne hpoint]
  dsimp only
  rw [takeExponent?_of_ends hrest]
  dsimp only
  rw [if_neg (by simp), if_neg (Nat.not_lt.mpr hn), digitsValue_toDigits]

/-- The characters start with a digit. -/
def StartsDigit (cs : List Char) : Prop := ∃ c ds, cs = c :: ds ∧ c.isDigit = true

theorem IsDigits.startsDigit {ds : List Char} (h : IsDigits ds) : StartsDigit ds := by
  cases ds with
  | nil => exact (h.ne_nil rfl).elim
  | cons c cs => exact ⟨c, cs, rfl, h.digits c List.mem_cons_self⟩

/-- Characters after a sign, if there is one. -/
def signed (negative : Bool) (cs : List Char) : List Char := if negative then '-' :: cs else cs

/-- An error that is told of another place is an error still. -/
theorem mapError_eq_ok_iff {r : Except Stop (Value × List Char)} {f : Stop → Stop} {x : Value × List Char} :
    r.mapError f = .ok x ↔ r = .ok x := by
  cases r with
  | error e => constructor <;> (intro h; cases h)
  | ok y => exact Iff.rfl

/-- A number is read after its sign. -/
theorem readNumber_signed {negative : Bool} {cs : List Char} {r : Value × List Char}
    (hcs : StartsDigit cs) (h : readUnsigned negative (cs ++ rest) = .ok r) :
    readNumber (signed negative cs ++ rest) = .ok r := by
  obtain ⟨c, ds, rfl, hc⟩ := hcs
  cases negative with
  | false =>
    have hminus : c ≠ '-' := by
      rintro rfl
      cases hc
    rw [List.cons_append] at h
    simp [signed, readNumber, mapError_eq_ok_iff, hminus, h]
  | true =>
    rw [List.cons_append] at h
    simp [signed, readNumber, mapError_eq_ok_iff, h]

theorem toList_toString (n : Int) :
    (toString n).toList = signed (decide (n < 0)) (Nat.toDigits 10 n.natAbs) := by
  cases n with
  | ofNat m => exact Nat.toList_repr
  | negSucc m =>
    have hnegative : decide (Int.negSucc m < 0) = true := decide_eq_true (Int.negSucc_lt_zero m)
    show ("-" ++ (m + 1).repr).toList = _
    rw [hnegative, String.toList_append, Nat.toList_repr]
    rfl

/-- **A whole number is read as it was written**, unless it is too long. -/
theorem readNumber_toString {n : Int} (hn : IsShort n) (hrest : EndsNumber rest) :
    readNumber ((toString n).toList ++ rest) = .ok (.int n, rest) := by
  have hsign : (if decide (n < 0) then -(n.natAbs : Int) else n.natAbs) = n := by
    simp only [decide_eq_true_eq]
    split <;> omega
  rw [toList_toString, readNumber_signed (isDigits_toDigits _).startsDigit
    (readUnsigned_toDigits (decide (n < 0)) hn hrest), hsign]

/-! ### Floating point numbers -/

/-- The character stands in numbers. -/
def InNumber (c : Char) : Prop := c.isDigit = true ∨ c ∈ ['.', 'e', '+', '-']

/-- The characters write a floating point number without its sign. -/
structure IsFloatText (cs : List Char) : Prop where
  reads : ∃ x : Bool → Binary64, ∀ negative rest, EndsNumber rest →
    readUnsigned negative (cs ++ rest) = .ok (.float (x negative), rest)
  chars : ∀ c ∈ cs, InNumber c

variable {whole places ds : List Char}

theorem IsDigits.inNumber (h : IsDigits ds) : ∀ c ∈ ds, InNumber c := fun c hc ↦ .inl (h.digits c hc)

theorem inNumber_sign (negative : Bool) : InNumber (if negative then '-' else '+') := by
  cases negative <;> exact .inr (by decide)

theorem forall_inNumber_exponent (negative : Bool) (hds : IsDigits ds) :
    ∀ c ∈ 'e' :: (if negative then '-' else '+') :: ds, InNumber c :=
  List.forall_mem_cons.mpr ⟨.inr (by decide), List.forall_mem_cons.mpr ⟨inNumber_sign negative, hds.inNumber⟩⟩

theorem forall_inNumber_point {cs : List Char} (hcs : ∀ c ∈ cs, InNumber c) :
    ∀ c ∈ '.' :: cs, InNumber c :=
  List.forall_mem_cons.mpr ⟨.inr (by decide), hcs⟩

theorem stopsDigits_cons {c : Char} (hc : c.isDigit = false) : StopsDigits (c :: rest) := by
  intro d hd
  cases hd
  exact hc

/-- A number with a point. -/
theorem isFloatText_point (hwhole : IsWholePart whole) (hplaces : IsDigits places) :
    IsFloatText (whole ++ '.' :: places) := by
  refine ⟨⟨fun negative ↦ .ofDecimal negative (digitsValue (whole ++ places)) (-places.length), ?_⟩,
    List.forall_mem_append.mpr ⟨hwhole.1.inNumber, forall_inNumber_point hplaces.inNumber⟩⟩
  intro negative rest hrest
  have hempty : places.isEmpty = false := by simpa using hplaces.ne_nil
  rw [List.append_assoc, List.cons_append, readUnsigned, takeWhole?_append hwhole (stopsDigits_cons rfl)]
  dsimp only
  rw [takePlaces_point hplaces hrest.stopsDigits]
  dsimp only
  rw [takeExponent?_of_ends hrest]
  simp [hempty]

/-- A number with an exponent. -/
theorem isFloatText_exponent (hwhole : IsWholePart whole) (negativeExponent : Bool) (hds : IsDigits ds) :
    IsFloatText (whole ++ 'e' :: (if negativeExponent then '-' else '+') :: ds) := by
  refine ⟨⟨fun negative ↦ .ofDecimal negative (digitsValue (whole ++ []))
    ((if negativeExponent then -(digitsValue ds : Int) else digitsValue ds) - ([] : List Char).length), ?_⟩,
    List.forall_mem_append.mpr ⟨hwhole.1.inNumber, forall_inNumber_exponent negativeExponent hds⟩⟩
  intro negative rest hrest
  rw [List.append_assoc, List.cons_append, List.cons_append, readUnsigned,
    takeWhole?_append hwhole (stopsDigits_cons rfl)]
  dsimp only
  rw [takePlaces_of_ne (by simp)]
  dsimp only
  rw [takeExponent?_sign negativeExponent hds hrest.stopsDigits]

/-- A number with a point and an exponent. -/
theorem isFloatText_point_exponent (hwhole : IsWholePart whole) (hplaces : IsDigits places)
    (negativeExponent : Bool) (hds : IsDigits ds) :
    IsFloatText (whole ++ '.' :: (places ++ 'e' :: (if negativeExponent then '-' else '+') :: ds)) := by
  refine ⟨⟨fun negative ↦ .ofDecimal negative (digitsValue (whole ++ places))
    ((if negativeExponent then -(digitsValue ds : Int) else digitsValue ds) - places.length), ?_⟩,
    List.forall_mem_append.mpr ⟨hwhole.1.inNumber, forall_inNumber_point
      (List.forall_mem_append.mpr ⟨hplaces.inNumber, forall_inNumber_exponent negativeExponent hds⟩)⟩⟩
  intro negative rest hrest
  rw [List.append_assoc, List.cons_append, List.append_assoc, List.cons_append, List.cons_append,
    readUnsigned, takeWhole?_append hwhole (stopsDigits_cons rfl)]
  dsimp only
  rw [takePlaces_point hplaces (stopsDigits_cons rfl)]
  dsimp only
  rw [takeExponent?_sign negativeExponent hds hrest.stopsDigits]

theorem exists_exponentText (e : Int) : ∃ (negative : Bool) (ds : List Char), IsDigits ds ∧
    (Binary64.exponentText e).toList = 'e' :: (if negative then '-' else '+') :: ds := by
  have hdigits := isDigits_toDigits e.natAbs
  have htext : (toString e.natAbs).toList = Nat.toDigits 10 e.natAbs := Nat.toList_repr
  have hlead : ∀ negative : Bool, (if negative then "e-" else "e+").toList
      = ['e', if negative then '-' else '+'] := by decide
  refine ⟨decide (e < 0), (if (toString e.natAbs).length < 2 then "0" ++ toString e.natAbs
    else toString e.natAbs).toList, ?_, ?_⟩
  · split
    · rw [String.toList_append, htext]
      exact ⟨by simp, List.forall_mem_cons.mpr ⟨rfl, hdigits.digits⟩⟩
    · rw [htext]
      exact hdigits
  · have hsign := hlead (decide (e < 0))
    simp only [decide_eq_true_eq] at hsign ⊢
    rw [Binary64.exponentText, String.toList_append, hsign]
    rfl

/-! ### Decimals -/

section Decimal

variable {digits : List Char}

theorem IsDigits.of_mem (h : IsDigits digits) (hne : ds ≠ []) (hds : ∀ c ∈ ds, c ∈ digits ∨ c = '0') :
    IsDigits ds := by
  refine ⟨hne, fun c hc ↦ ?_⟩
  rcases hds c hc with hc | rfl
  · exact h.digits c hc
  · rfl

/-- A number below one. -/
theorem isFloatText_below_one (h : IsDigits digits) (zeros : Nat) :
    IsFloatText ('0' :: '.' :: List.replicate zeros '0' ++ digits) := by
  show IsFloatText (['0'] ++ '.' :: _)
  refine isFloatText_point ⟨h.of_mem (by simp) (by simp), .inl rfl⟩ (h.of_mem ?_ fun c hc ↦ ?_)
  · simp [h.ne_nil]
  · rcases List.mem_append.mp hc with hc | hc
    · exact .inr (List.eq_of_mem_replicate hc)
    · exact .inl hc

/-- A number without places. -/
theorem isFloatText_whole (h : IsDigits digits) (hhead : digits.head? ≠ some '0') (zeros : Nat) :
    IsFloatText (digits ++ List.replicate zeros '0' ++ '.' :: ['0']) := by
  refine isFloatText_point ⟨h.of_mem (by simp [h.ne_nil]) fun c hc ↦ ?_, .inr ?_⟩
    (h.of_mem (by simp) (by simp))
  · exact (List.mem_append.mp hc).imp_right List.eq_of_mem_replicate
  · cases digits with
    | nil => exact (h.ne_nil rfl).elim
    | cons first more => simpa using hhead

/-- A number with digits on both sides of the point. -/
theorem isFloatText_both_sides (h : IsDigits digits) (hhead : digits.head? ≠ some '0') {whole : Nat}
    (hwhole : whole + 1 < digits.length) :
    IsFloatText (digits.take (whole + 1) ++ '.' :: digits.drop (whole + 1)) := by
  cases digits with
  | nil => exact (h.ne_nil rfl).elim
  | cons first more =>
    refine isFloatText_point ⟨h.of_mem (by simp) fun c hc ↦ .inl (List.mem_of_mem_take hc),
      .inr (by simpa using hhead)⟩ (h.of_mem ?_ fun c hc ↦ .inl (List.mem_of_mem_drop hc))
    rw [ne_eq, List.drop_eq_nil_iff]
    exact Nat.not_le.mpr hwhole

end Decimal

/-- A decimal that is not zero is written as a floating point number. -/
theorem isFloatText_text {d : Binary64.Decimal} (hd : d.digits ≠ 0) : IsFloatText d.text.toList := by
  have hdigits := isDigits_toDigits d.digits
  have hhead := head?_toDigits_ne hd
  have htext : (toString d.digits).toList = Nat.toDigits 10 d.digits := Nat.toList_repr
  rw [Binary64.Decimal.text, htext]
  generalize Nat.toDigits 10 d.digits = digits at hdigits hhead
  dsimp only
  split
  · -- with an exponent, and with a point if there are more digits than one
    obtain ⟨negative, ds, hds, hexponent⟩ := exists_exponentText (d.exponent + digits.length - 1)
    cases digits with
    | nil => exact (hdigits.ne_nil rfl).elim
    | cons first more =>
      have hfirst : IsWholePart [first] :=
        ⟨hdigits.of_mem (by simp) fun c hc ↦ .inl (List.mem_singleton.mp hc ▸ List.mem_cons_self),
          .inr (by simpa using hhead)⟩
      cases more with
      | nil =>
        rw [String.toList_append, String.toList_ofList, hexponent]
        exact isFloatText_exponent hfirst negative hds
      | cons second more =>
        have hmore : IsDigits (second :: more) :=
          hdigits.of_mem (by simp) fun c hc ↦ .inl (List.mem_cons_of_mem first hc)
        rw [String.toList_append, String.toList_ofList, hexponent]
        exact isFloatText_point_exponent hfirst hmore negative hds
  split
  · rw [String.toList_ofList]
    exact isFloatText_below_one hdigits _
  split
  · rw [String.toList_append, String.toList_ofList]
    exact isFloatText_whole hdigits hhead _
  · rw [String.toList_ofList]
    exact isFloatText_both_sides hdigits hhead (by omega)

theorem digits_stripZeros_ne {tries : Nat} {d : Binary64.Decimal} (hd : d.digits ≠ 0) :
    (Binary64.Decimal.stripZeros tries d).digits ≠ 0 := by
  induction tries generalizing d with
  | zero => exact hd
  | succ tries ih =>
    rw [Binary64.Decimal.stripZeros]
    split
    · refine ih ?_
      dsimp only
      omega
    · exact hd

/-- A fraction that is not zero is none at another scale. -/
theorem scale_fst_ne {base : Nat} (hbase : 0 < base) (f : Binary64.Fraction) (hf : f.1 ≠ 0) (e : Int) :
    (Binary64.scale base f e).1 ≠ 0 := by
  rw [Binary64.scale]
  split
  · exact hf
  · exact Nat.mul_ne_zero hf (Nat.ne_of_gt (Nat.pow_pos hbase))

theorem quarters_fst_ne {m : Nat} (hm : m ≠ 0) (e : Int) : (Binary64.quarters m e).1 ≠ 0 := by
  rw [Binary64.quarters]
  split <;> (dsimp only; omega)

/-- Zero does not lie above a lower end that is not zero. -/
theorem ne_zero_of_inside {closed : Bool} {low high : Binary64.Fraction} {n : Nat} (hlow : low.1 ≠ 0)
    (h : (if closed then decide (low.1 ≤ n * low.2) && decide (n * high.2 ≤ high.1)
      else decide (low.1 < n * low.2) && decide (n * high.2 < high.1)) = true) : n ≠ 0 := by
  rintro rfl
  cases closed <;> simp at h
  exact hlow h

/-- A number that is not zero is not nearest to zero on any grid. -/
theorem nearestOnGrid?_ne {m n : Nat} {e unit : Int} (hm : m ≠ 0)
    (h : Binary64.nearestOnGrid? m e unit = some n) : n ≠ 0 := by
  have hquarters : ((Binary64.quarters m e).1, 4).1 ≠ 0 := quarters_fst_ne hm e
  have htwos : (Binary64.scale 2 ((Binary64.quarters m e).1, 4) e).1 ≠ 0 :=
    scale_fst_ne (by decide) _ hquarters e
  have hlow : (Binary64.scale 10 (Binary64.scale 2 ((Binary64.quarters m e).1, 4) e) (-unit)).1 ≠ 0 :=
    scale_fst_ne (by decide) _ htwos (-unit)
  rw [Binary64.nearestOnGrid?] at h
  dsimp only at h
  -- the neighbour below lies in the interval in the first two cases, the one above is no zero at all
  split at h
  · next hdown _ =>
    have hne := ne_zero_of_inside hlow hdown
    repeat' split at h
    all_goals
      cases h
      first
        | exact hne
        | exact Nat.succ_ne_zero _
  · next hdown _ =>
    cases h
    exact ne_zero_of_inside hlow hdown
  · cases h
    exact Nat.succ_ne_zero _
  · cases h

theorem digits_shortest_ne {m : Nat} (hm : m ≠ 0) (e : Int) : (Binary64.shortest m e).digits ≠ 0 := by
  have hfrom : ∀ point tries n, (Binary64.shortestFrom m e point tries n).digits ≠ 0 := by
    intro point tries
    induction tries with
    | zero => exact fun n ↦ hm
    | succ tries ih =>
      intro n
      rw [Binary64.shortestFrom]
      split
      · next digits hdigits => exact nearestOnGrid?_ne hm hdigits
      · exact ih (n + 1)
  exact digits_stripZeros_ne (hfrom _ _ _)

/-- What writes a floating point number without its sign starts with a digit. -/
theorem IsFloatText.startsDigit {cs : List Char} (h : IsFloatText cs) : StartsDigit cs := by
  obtain ⟨x, hread⟩ := h.reads
  have hnil := hread false [] (by simp [EndsNumber])
  rw [List.append_nil, readUnsigned] at hnil
  cases cs with
  | nil => cases hnil
  | cons c ds =>
    refine ⟨c, ds, rfl, ?_⟩
    by_cases hzero : c = '0'
    · rw [hzero]
      rfl
    · cases hdigit : c.isDigit with
      | true => rfl
      | false =>
        rw [takeWhole?, if_neg hzero, hdigit] at hnil
        cases hnil

/-- The text of a finite number after its sign. -/
theorem exists_isFloatText (negative : Bool) (m : Nat) (e : Int) :
    ∃ cs, IsFloatText cs ∧ writeFloat (.finite negative m e) = signed negative cs := by
  refine ⟨(if m = 0 then "0.0" else (Binary64.shortest m e).text).toList, ?_, ?_⟩
  · split
    · show IsFloatText (['0'] ++ '.' :: ['0'])
      exact isFloatText_point ⟨⟨by simp, by simp⟩, .inl rfl⟩ ⟨by simp, by simp⟩
    · next hm => exact isFloatText_text (digits_shortest_ne hm e)
  · rw [writeFloat, Binary64.text, String.toList_append]
    · cases negative <;> rfl
    · simp
    · simp

/-- The floating point number that is read where a floating point number was written. -/
def reread : Binary64 → Binary64
  | .nan => .nan
  | .infinite negative => .infinite negative
  | x =>
    match readNumber (writeFloat x) with
    | .ok (.float y, _) => y
    | _ => x

/-- **A finite floating point number is read as one**, the same whatever follows it. -/
theorem readNumber_writeFloat (negative : Bool) (m : Nat) (e : Int) (hrest : EndsNumber rest) :
    readNumber (writeFloat (.finite negative m e) ++ rest)
      = .ok (.float (reread (.finite negative m e)), rest) := by
  obtain ⟨cs, hfloat, htext⟩ := exists_isFloatText negative m e
  obtain ⟨x, hx⟩ := hfloat.reads
  have hread : ∀ rest, EndsNumber rest →
      readNumber (writeFloat (.finite negative m e) ++ rest) = .ok (.float (x negative), rest) := by
    intro rest hrest
    rw [htext]
    exact readNumber_signed hfloat.startsDigit (hx negative rest hrest)
  have hreread : reread (.finite negative m e) = x negative := by
    have hnil := hread [] (by simp [EndsNumber])
    rw [List.append_nil] at hnil
    rw [reread, hnil]
    · simp
    · simp
  rw [hreread, hread rest hrest]

end RefCheck.Json
