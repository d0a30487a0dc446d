import RefCheck.Data.Reader

/-!
# Texts that spell characters

A text in JSON is read character by character, and each of them has its own source: itself, an escape of two
characters, the numeric escape of its number, or those of the two halves of a pair (`Json.Spells`). The only
other thing that a numeric escape can write is half of a pair alone, which is no character.

`readChars_spelled` says that where there is no such half, as `spellsCharacters` tells, what is read is what
the source spells, so that nothing was put in the place of anything.
-/

namespace RefCheck.Json

/-- The source of a character in a text. -/
inductive Spells : Char → List Char → Prop
  /-- The character itself. -/
  | bare {c : Char} (hquote : c ≠ '\x22') (hescape : c ≠ '\x5c') (hcontrol : 0x20 ≤ c.toNat) : Spells c [c]
  /-- An escape of two characters. -/
  | short {c e : Char} (h : shortEscape? e = some c) : Spells c ['\x5c', e]
  /-- The number of the character. -/
  | unit {c d₁ d₂ d₃ d₄ : Char} (h : hexUnit? d₁ d₂ d₃ d₄ = some c.toNat) :
      Spells c ['\x5c', 'u', d₁, d₂, d₃, d₄]
  /-- The two halves of the character. -/
  | pair {c d₁ d₂ d₃ d₄ e₁ e₂ e₃ e₄ : Char} {high low : Nat} (hhigh : hexUnit? d₁ d₂ d₃ d₄ = some high)
      (hlow : hexUnit? e₁ e₂ e₃ e₄ = some low) (hishigh : isHighUnit high = true) (hislow : isLowUnit low = true)
      (hc : c.toNat = 0x10000 + (high - 0xD800) * 0x400 + (low - 0xDC00)) :
      Spells c ['\x5c', 'u', d₁, d₂, d₃, d₄, '\x5c', 'u', e₁, e₂, e₃, e₄]

/-! ## Units -/

theorem hexValue?_lt {c : Char} {n : Nat} (h : hexValue? c = some n) : n < 16 := by
  unfold hexValue? at h
  split at h
  · next hdigit =>
    cases h
    have hbound : 48 ≤ c.toNat ∧ c.toNat ≤ 57 := by simpa [Char.isDigit, UInt32.le_iff_toNat_le] using hdigit
    omega
  split at h
  · next hsmall =>
    cases h
    have hbound : 97 ≤ c.toNat ∧ c.toNat ≤ 102 := by simpa [Char.le_def, UInt32.le_iff_toNat_le] using hsmall
    omega
  split at h
  · next hcapital =>
    cases h
    have hbound : 65 ≤ c.toNat ∧ c.toNat ≤ 70 := by simpa [Char.le_def, UInt32.le_iff_toNat_le] using hcapital
    omega
  · cases h

theorem hexUnit?_lt {a b c d : Char} {n : Nat} (h : hexUnit? a b c d = some n) : n < 0x10000 := by
  unfold hexUnit? at h
  split at h
  · next ha hb hc hd =>
    cases h
    have hbounds := And.intro (hexValue?_lt ha) (And.intro (hexValue?_lt hb)
      (And.intro (hexValue?_lt hc) (hexValue?_lt hd)))
    omega
  · cases h

theorem isHighUnit_eq_false {n : Nat} (h : isLowUnit n = true) : isHighUnit n = false := by
  simp only [isLowUnit, isHighUnit, Bool.and_eq_true, Bool.and_eq_false_iff, decide_eq_true_eq,
    decide_eq_false_iff_not] at h ⊢
  omega

theorem toNat_ofNat {n : Nat} (h : n < 0xD800 ∨ 0xDFFF < n ∧ n < 0x110000) : (Char.ofNat n).toNat = n := by
  rw [Char.ofNat, dif_pos h]
  rfl

/-- A unit that is no half of a pair is a character. -/
theorem toNat_unitChar {n : Nat} (hbound : n < 0x10000) (hhigh : isHighUnit n = false)
    (hlow : isLowUnit n = false) : (unitChar n).toNat = n := by
  have hchar : unitChar n = Char.ofNat n := by simp [unitChar, hhigh, hlow]
  rw [hchar]
  simp only [isHighUnit, isLowUnit, Bool.and_eq_false_iff, decide_eq_false_iff_not] at hhigh hlow
  exact toNat_ofNat (by omega)

/-- Two halves of a pair are a character. -/
theorem toNat_pairChar {high low : Nat} (hhigh : isHighUnit high = true) (hlow : isLowUnit low = true) :
    (pairChar high low).toNat = 0x10000 + (high - 0xD800) * 0x400 + (low - 0xDC00) := by
  simp only [isHighUnit, isLowUnit, Bool.and_eq_true, decide_eq_true_eq] at hhigh hlow
  exact toNat_ofNat (by omega)

/-! ## Texts -/

variable {start steps : Nat} {cs out rest : List Char}

/-- A source, the text that it spells up to the closing mark, and what follows that. -/
inductive IsSpelled : List Char → List Char → List Char → Prop
  /-- The text ends here. -/
  | close {rest : List Char} : IsSpelled ('\x22' :: rest) [] rest
  /-- A character with its source, and the text after it. -/
  | cons {c : Char} {source cs out rest : List Char} (hc : Spells c source) (h : IsSpelled cs out rest) :
      IsSpelled (source ++ cs) (c :: out) rest

/-- The result of reading on is one character more. -/
theorem exists_of_map_eq_ok {c : Char} {r : Except Stop (List Char × List Char)}
    (h : (r.map fun r ↦ (c :: r.1, r.2)) = .ok (out, rest)) : ∃ more, out = c :: more ∧ r = .ok (more, rest) := by
  cases r with
  | error f => cases h
  | ok r =>
    cases h
    exact ⟨r.1, rfl, rfl⟩

theorem spellsFrom_numeric {due : Bool} {d₁ d₂ d₃ d₄ : Char}
    (h : spellsFrom due ('\x5c' :: 'u' :: d₁ :: d₂ :: d₃ :: d₄ :: cs) = true) :
    ∃ unit, hexUnit? d₁ d₂ d₃ d₄ = some unit ∧ isLowUnit unit = due ∧ spellsFrom (isHighUnit unit) cs = true := by
  rw [spellsFrom, if_pos rfl] at h
  cases hunit : hexUnit? d₁ d₂ d₃ d₄ with
  | none =>
    rw [hunit] at h
    cases h
  | some unit =>
    rw [hunit] at h
    dsimp only at h
    rw [Bool.and_eq_true, beq_iff_eq] at h
    exact ⟨unit, rfl, h⟩

/-- A second half that is due is there. -/
theorem exists_of_spellsFrom_due (h : spellsFrom true cs = true) :
    ∃ d₁ d₂ d₃ d₄ low more, cs = '\x5c' :: 'u' :: d₁ :: d₂ :: d₃ :: d₄ :: more ∧
      hexUnit? d₁ d₂ d₃ d₄ = some low ∧ isLowUnit low = true ∧ spellsCharacters more = true := by
  unfold spellsFrom at h
  split at h
  · cases h
  split at h
  · next hescape =>
    subst hescape
    split at h
    · cases h
    · next d₁ d₂ d₃ d₄ more =>
      split at h
      · cases h
      · next low hlow =>
        rw [Bool.and_eq_true, beq_iff_eq] at h
        rw [isHighUnit_eq_false h.1] at h
        exact ⟨d₁, d₂, d₃, d₄, low, more, rfl, hlow, h⟩
    · cases h
  · cases h

theorem spellsCharacters_cons {c : Char} (hc : c ≠ '\x5c') : spellsCharacters (c :: cs) = spellsCharacters cs := by
  rw [spellsCharacters, spellsFrom.eq_def]
  dsimp only
  rw [if_neg hc]
  rfl

theorem spellsCharacters_escape {e : Char} (he : e ≠ 'u') :
    spellsCharacters ('\x5c' :: e :: cs) = spellsCharacters cs := by
  rw [spellsCharacters, spellsFrom, if_pos rfl]
  · rfl
  · exact fun _ _ _ _ _ h ↦ (he h).elim

/-- One character more is spelled in front of what is spelled, and nothing changes in what follows. -/
theorem IsSpelled.cons_and {c : Char} {source : List Char} (hc : Spells c source)
    (h : IsSpelled cs out rest ∧ spellsCharacters rest = true) :
    IsSpelled (source ++ cs) (c :: out) rest ∧ spellsCharacters rest = true :=
  ⟨.cons hc h.1, h.2⟩

/-- A numeric escape that is read spells a character, alone or with the escape after it. -/
theorem isSpelled_of_numeric {d₁ d₂ d₃ d₄ : Char}
    (ih : ∀ {cs out}, spellsCharacters cs = true → readChars start steps cs = .ok (out, rest) →
      IsSpelled cs out rest ∧ spellsCharacters rest = true)
    (hspells : spellsCharacters ('\x5c' :: 'u' :: d₁ :: d₂ :: d₃ :: d₄ :: cs) = true)
    (h : readChars start (steps + 1) ('\x5c' :: 'u' :: d₁ :: d₂ :: d₃ :: d₄ :: cs) = .ok (out, rest)) :
    IsSpelled ('\x5c' :: 'u' :: d₁ :: d₂ :: d₃ :: d₄ :: cs) out rest ∧ spellsCharacters rest = true := by
  obtain ⟨unit, hunit, hlow, hspells⟩ := spellsFrom_numeric hspells
  rw [readChars, if_neg (by decide), if_pos rfl, hunit] at h
  split at h
  · cases h
  dsimp only at h
  cases hhigh : isHighUnit unit with
  | false =>
    -- the unit stands alone, so it is the number of a character
    rw [hhigh] at h hspells
    obtain ⟨more, rfl, hmore⟩ := exists_of_map_eq_ok h
    have hnumber : (unitChar unit).toNat = unit := toNat_unitChar (hexUnit?_lt hunit) hhigh hlow
    exact IsSpelled.cons_and (.unit (hunit.trans (congrArg some hnumber.symm))) (ih hspells hmore)
  | true =>
    rw [hhigh] at hspells
    obtain ⟨e₁, e₂, e₃, e₄, low, after, rfl, hunit', hlow', hspells⟩ := exists_of_spellsFrom_due hspells
    simp only [hhigh, hunit', hlow', if_true] at h
    split at h
    · -- the second half is not read where nothing follows it, but then the text has no end either
      next hempty =>
      obtain rfl := List.isEmpty_iff.mp hempty
      obtain ⟨more, -, hmore⟩ := exists_of_map_eq_ok h
      cases steps <;> cases hmore
    · obtain ⟨more, rfl, hmore⟩ := exists_of_map_eq_ok h
      exact IsSpelled.cons_and (.pair hunit hunit' hhigh hlow' (toNat_pairChar hhigh hlow')) (ih hspells hmore)

/-- **What is read is what the source spells**, if it spells characters; and what follows does so too. -/
theorem readChars_spelled (hspells : spellsCharacters cs = true)
    (h : readChars start steps cs = .ok (out, rest)) :
    IsSpelled cs out rest ∧ spellsCharacters rest = true := by
  induction steps generalizing cs out with
  | zero => cases h
  | succ steps ih =>
    rcases cs with _ | ⟨c, cs⟩
    · cases h
    by_cases hescape : c = '\x5c'
    · subst hescape
      rcases cs with _ | ⟨e, cs⟩
      · cases h
      by_cases he : e = 'u'
      · subst he
        rcases cs with _ | ⟨d₁, _ | ⟨d₂, _ | ⟨d₃, _ | ⟨d₄, cs⟩⟩⟩⟩
        · cases h
        · cases h
        · cases h
        · cases h
        · exact isSpelled_of_numeric ih hspells h
      · rw [readChars, if_neg (by decide), if_pos rfl] at h
        · split at h
          · next x hx =>
            obtain ⟨more, rfl, hmore⟩ := exists_of_map_eq_ok h
            exact IsSpelled.cons_and (.short hx) (ih (spellsCharacters_escape he ▸ hspells) hmore)
          · cases h
        · exact he
    · rw [readChars.eq_def] at h
      dsimp only at h
      rw [spellsCharacters_cons hescape] at hspells
      split at h
      · next hquote =>
        cases h
        exact ⟨hquote ▸ .close, hspells⟩
      · next hquote =>
        split at h
        · cases h
        · next hcontrol =>
          obtain ⟨more, rfl, hmore⟩ := exists_of_map_eq_ok h
          exact IsSpelled.cons_and (.bare hquote hescape (Nat.not_lt.mp hcontrol)) (ih hspells hmore)

end RefCheck.Json
