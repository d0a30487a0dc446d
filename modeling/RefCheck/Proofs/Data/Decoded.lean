import Mathlib.Algebra.Group.Nat.Defs
import RefCheck.Data.Access
import RefCheck.Data.Whole
import RefCheck.Proofs.Data.Rewritten

/-!
# Numbers that are read are short

Only so many digits of a whole number are read, so a whole number that stands in a decoded text is short. So
is what is left of a floating point number that is cut towards zero: it is below a power of ten, since no
greater number is finite. And so is the whole number that a text stands for. In one word, values that were
decoded are *modest* (`Value.IsModest`), and whatever whole number a modest value stands for is short:
`Value.isShort_of_whole?`.
-/

namespace RefCheck

open Json

theorem Json.isShort_iff {n : Int} : IsShort n ↔ n.natAbs < 10 ^ Text.maxDigits :=
  Nat.length_toDigits_le_iff (by decide) (by decide)

/-! ## Digits -/

/-- With one more digit in front of it, a number is below the next power of ten. -/
theorem lt_mul_ten_pow_succ {value d n k : Nat} (hd : d < 10) (hn : n < (10 * value + d + 1) * 10 ^ k) :
    n < (value + 1) * 10 ^ (k + 1) :=
  calc n < (10 * value + d + 1) * 10 ^ k := hn
    _ ≤ ((value + 1) * 10) * 10 ^ k := Nat.mul_le_mul_right _ (by omega)
    _ = (value + 1) * 10 ^ (k + 1) := by rw [Nat.mul_assoc, ← Nat.pow_succ']

theorem Json.digitsValue_lt {ds : List Char} (h : ∀ c ∈ ds, c.isDigit = true) :
    digitsValue ds < 10 ^ ds.length := by
  -- the digits still to be read go on from whatever was read before them
  have hfold : ∀ n, ds.foldl (fun n d ↦ 10 * n + (d.toNat - 0x30)) n < (n + 1) * 10 ^ ds.length := by
    induction ds with
    | nil => simp
    | cons d ds ih =>
      intro n
      have hhigh : d.toNat ≤ 0x39 := (Char.isDigit_iff_toNat.mp (h d List.mem_cons_self)).2
      have hrest := ih (fun c hc ↦ h c (List.mem_cons_of_mem d hc)) (10 * n + (d.toNat - 0x30))
      exact lt_mul_ten_pow_succ (by omega) hrest
  have hzero := hfold 0
  rwa [Nat.zero_add, Nat.one_mul] at hzero

namespace Text

theorem digitValue?_lt {c : Char} {d : Nat} (h : digitValue? c = some d) : d < 10 := by
  unfold digitValue? at h
  dsimp only at h
  split at h
  · split at h
    · next hdigit =>
      cases h
      have hhigh : c.toNat ≤ 0x39 := (Char.isDigit_iff_toNat.mp hdigit).2
      omega
    · cases h
  · obtain ⟨z, hz, rfl⟩ := Option.map_eq_some_iff.mp h
    have hbounds := Array.find?_some hz
    rw [Bool.and_eq_true, decide_eq_true_eq, decide_eq_true_eq] at hbounds
    omega

/-- How many of the characters are digits. -/
abbrev countDigits (cs : List Char) : Nat := cs.countP fun c ↦ (digitValue? c).isSome

theorem readDigits_lt {value n : Nat} {cs : List Char} (h : readDigits value cs = some n) :
    n < (value + 1) * 10 ^ countDigits cs := by
  fun_induction readDigits value cs with
  | case1 value =>
    cases h
    simp
  | case2 value c cs d hd ih =>
    have hline : (digitValue? '_').isSome = false := by decide +kernel
    have hcount : countDigits ('_' :: c :: cs) = countDigits cs + 1 := by
      simp [countDigits, hline, hd]
    rw [hcount]
    exact lt_mul_ten_pow_succ (digitValue?_lt hd) (ih h)
  | case3 => cases h
  | case4 value c cs _ d hd ih =>
    have hcount : countDigits (c :: cs) = countDigits cs + 1 := by simp [countDigits, hd]
    rw [hcount]
    exact lt_mul_ten_pow_succ (digitValue?_lt hd) (ih h)
  | case5 => cases h

theorem readNat?_lt {cs : List Char} {n : Nat} (h : readNat? cs = some n) : n < 10 ^ countDigits cs := by
  cases cs with
  | nil => cases h
  | cons c cs =>
    rw [readNat?] at h
    split at h
    · next d hd =>
      have hcount : countDigits (c :: cs) = countDigits cs + 1 := by simp [countDigits, hd]
      rw [hcount, Nat.pow_succ']
      exact Nat.lt_of_lt_of_le (readDigits_lt h) (Nat.mul_le_mul_right _ (digitValue?_lt hd))
    · cases h

/-- **The whole number of a text is short.** -/
theorem isShort_of_readInt? {cs : List Char} {n : Int} (h : readInt? cs = some n) : IsShort n := by
  obtain ⟨bare, -, h⟩ := Option.bind_eq_some_iff.mp h
  dsimp only at h
  split at h
  · cases h
  · next hshort =>
    obtain ⟨k, hk, rfl⟩ := Option.map_eq_some_iff.mp h
    have hcount : countDigits (takeSign bare).2 ≤ maxDigits := by simpa [exceedsDigits] using hshort
    have habs : (withSign (takeSign bare).1 k).natAbs = k := by
      unfold withSign
      split <;> simp
    rw [isShort_iff, habs]
    exact Nat.lt_of_lt_of_le (readNat?_lt hk) (Nat.pow_le_pow_right (by decide) hcount)

end Text

/-! ## Floating point numbers -/

namespace Binary64

theorem roundDiv_le (num den : Nat) : roundDiv num den ≤ num / den + 1 := by
  unfold roundDiv
  dsimp only
  repeat' split
  all_goals omega

/-- The whole part of a mantissa times a power of two. -/
def wholePart (m : Nat) (e : Int) : Nat := if e < 0 then m / 2 ^ e.natAbs else m * 2 ^ e.natAbs

theorem wholePart_zero (e : Int) : wholePart 0 e = 0 := by
  unfold wholePart
  split
  · exact Nat.zero_div _
  · exact Nat.zero_mul _

theorem natAbs_of_truncate? {negative : Bool} {m : Nat} {e n : Int}
    (h : (finite negative m e).truncate? = some n) : n.natAbs = wholePart m e := by
  obtain rfl := Option.some.inj h
  cases negative with
  | true => exact (Int.natAbs_neg _).trans (Int.natAbs_natCast _)
  | false => exact Int.natAbs_natCast _

theorem wholePart_half_le (m : Nat) (e : Int) : wholePart (m / 2) (e + 1) ≤ wholePart m e := by
  unfold wholePart
  by_cases hlow : e + 1 < 0
  · have habs : e.natAbs = (e + 1).natAbs + 1 := by omega
    refine Nat.le_of_eq ?_
    rw [if_pos hlow, if_pos (by omega), habs, Nat.div_div_eq_div_mul, Nat.pow_succ']
  · by_cases hhigh : e < 0
    · have habs : e.natAbs = 1 := by omega
      have hzero : (e + 1).natAbs = 0 := by omega
      refine Nat.le_of_eq ?_
      rw [if_neg hlow, if_pos hhigh, habs, hzero, Nat.pow_zero, Nat.mul_one, Nat.pow_one]
    · have habs : (e + 1).natAbs = e.natAbs + 1 := by omega
      rw [if_neg hlow, if_neg hhigh, habs, Nat.pow_succ', ← Nat.mul_assoc]
      exact Nat.mul_le_mul_right _ (Nat.div_mul_le_self m 2)

/-- A mantissa that is no more than one above a fraction at its scale. -/
theorem wholePart_le {f : Fraction} {bound m : Nat} {e : Int} (hf : f.1 ≤ bound * f.2)
    (hm : m ≤ (scale 2 f (-e)).1 / (scale 2 f (-e)).2 + 1) : wholePart m e ≤ bound + 2 ^ e.toNat := by
  have hquotient : f.1 / f.2 ≤ bound := Nat.div_le_of_le_mul (Nat.mul_comm bound f.2 ▸ hf)
  have hone : 1 ≤ 2 ^ e.toNat := Nat.one_le_two_pow
  unfold wholePart
  by_cases hneg : e < 0
  · have hscale : scale 2 f (-e) = (f.1 * 2 ^ e.natAbs, f.2) := by
      rw [scale, if_neg (by omega), Int.natAbs_neg]
      rfl
    have hpos : 0 < 2 ^ e.natAbs := Nat.two_pow_pos _
    have hm' : m ≤ bound * 2 ^ e.natAbs + 1 := by
      rw [hscale] at hm
      refine Nat.le_trans hm (Nat.succ_le_succ (Nat.div_le_of_le_mul ?_))
      calc f.1 * 2 ^ e.natAbs ≤ bound * f.2 * 2 ^ e.natAbs := Nat.mul_le_mul_right _ hf
        _ = f.2 * (bound * 2 ^ e.natAbs) := by rw [Nat.mul_comm bound, Nat.mul_assoc]
    rw [if_pos hneg]
    have hdiv : m / 2 ^ e.natAbs ≤ bound + 1 := by
      refine Nat.div_le_of_le_mul (Nat.le_trans hm' ?_)
      rw [Nat.mul_add, Nat.mul_one, Nat.mul_comm bound]
      exact Nat.add_le_add_left hpos _
    omega
  · have htoNat : e.toNat = e.natAbs := by omega
    have hm' : m ≤ f.1 / f.2 / 2 ^ e.natAbs + 1 := by
      by_cases hzero : e = 0
      · have hscale : scale 2 f (-e) = f := by
          rw [scale, if_neg (by omega), hzero]
          exact Prod.ext (Nat.mul_one _) rfl
        rw [hscale] at hm
        rwa [hzero, Int.natAbs_zero, Nat.pow_zero, Nat.div_one]
      · have hscale : scale 2 f (-e) = (f.1, f.2 * 2 ^ e.natAbs) := by
          rw [scale, if_pos (by omega), Int.natAbs_neg]
          rfl
        rw [hscale] at hm
        rwa [Nat.div_div_eq_div_mul]
    rw [if_neg hneg, htoNat]
    calc m * 2 ^ e.natAbs ≤ (f.1 / f.2 / 2 ^ e.natAbs + 1) * 2 ^ e.natAbs := Nat.mul_le_mul_right _ hm'
      _ = f.1 / f.2 / 2 ^ e.natAbs * 2 ^ e.natAbs + 2 ^ e.natAbs := Nat.succ_mul _ _
      _ ≤ bound + 2 ^ e.natAbs :=
        Nat.add_le_add_right (Nat.le_trans (Nat.div_mul_le_self _ _) hquotient) _

/-- The number nearest to a fraction that is no more than a bound. -/
theorem natAbs_truncate?_ofFraction_le {negative : Bool} {f : Fraction} {bound : Nat} {n : Int}
    (hf : f.1 ≤ bound * f.2) (h : (ofFraction negative f).truncate? = some n) :
    n.natAbs ≤ bound + 2 ^ maxExponent.toNat := by
  unfold ofFraction at h
  dsimp only at h
  -- which exponent is taken does not matter: the bound holds at every scale
  generalize max (floorLog2 f - (precision - 1 : Nat)) minExponent = e at h
  have hwhole := wholePart_le (m := roundDiv (scale 2 f (-e)).1 (scale 2 f (-e)).2) hf (roundDiv_le _ _)
  generalize roundDiv (scale 2 f (-e)).1 (scale 2 f (-e)).2 = m at h hwhole
  have hpow : ∀ e : Int, e ≤ maxExponent → 2 ^ e.toNat ≤ 2 ^ maxExponent.toNat := fun e he ↦
    Nat.pow_le_pow_right (by decide) (Int.toNat_le_toNat he)
  split at h
  · split at h
    · cases h
    · next he =>
      dsimp only at h he
      rw [natAbs_of_truncate? h]
      have hhalf := wholePart_half_le m e
      have hle := hpow e (by omega)
      omega
  · split at h
    · cases h
    · next he =>
      dsimp only at h he
      rw [natAbs_of_truncate? h]
      have hle := hpow e (by omega)
      omega

/-- A decimal of so many digits before the point is below that power of ten. -/
theorem scale_ten_le {digits bound : Nat} {exponent : Int}
    (h : (decimalLength digits : Int) + exponent ≤ bound) :
    (scale 10 (digits, 1) exponent).1 ≤ 10 ^ bound * (scale 10 (digits, 1) exponent).2 := by
  have hdigits : digits ≤ 10 ^ decimalLength digits :=
    Nat.le_of_lt ((Nat.length_toDigits_le_iff (by decide) Nat.length_toDigits_pos).mp (Nat.le_refl _))
  rw [scale]
  split
  · next hneg =>
    calc digits ≤ 10 ^ decimalLength digits := hdigits
      _ ≤ 10 ^ (bound + exponent.natAbs) := Nat.pow_le_pow_right (by decide) (by omega)
      _ = 10 ^ bound * (1 * 10 ^ exponent.natAbs) := by rw [Nat.one_mul, Nat.pow_add]
  · next hpos =>
    calc digits * 10 ^ exponent.natAbs ≤ 10 ^ decimalLength digits * 10 ^ exponent.natAbs :=
          Nat.mul_le_mul_right _ hdigits
      _ = 10 ^ (decimalLength digits + exponent.natAbs) := (Nat.pow_add _ _ _).symm
      _ ≤ 10 ^ bound := Nat.pow_le_pow_right (by decide) (by omega)
      _ = 10 ^ bound * 1 := (Nat.mul_one _).symm

theorem isShort_of_le {bound : Nat} {n : Int} (hbound : bound ≤ 1000)
    (h : n.natAbs ≤ 10 ^ bound + 2 ^ maxExponent.toNat) : IsShort n := by
  -- one digit less leaves room for both summands
  obtain ⟨k, hk, hlarge⟩ : ∃ k, Text.maxDigits = k + 1 ∧ 1000 ≤ k := ⟨4299, rfl, by decide⟩
  have hexponent : maxExponent.toNat ≤ 1000 := by decide
  have hpow : ∀ b ≤ k, 10 ^ b ≤ 10 ^ k := fun b hb ↦ Nat.pow_le_pow_right (by decide) hb
  have hdecimal : 10 ^ bound ≤ 10 ^ k := hpow _ (by omega)
  have hbinary : 2 ^ maxExponent.toNat ≤ 10 ^ k :=
    Nat.le_trans (Nat.pow_le_pow_left (by decide) _) (hpow _ (by omega))
  have hpos : 0 < 10 ^ k := Nat.pow_pos (by decide)
  rw [isShort_iff, hk, Nat.pow_succ]
  omega

/-- **What is left of a floating point number is short**, when it is cut towards zero. -/
theorem isShort_of_truncate?_ofDecimal {negative : Bool} {digits : Nat} {exponent n : Int}
    (h : (ofDecimal negative digits exponent).truncate? = some n) : IsShort n := by
  unfold ofDecimal at h
  dsimp only at h
  -- what is far below the range is zero, and what is far above it is infinite
  split at h
  · refine isShort_of_le (Nat.zero_le _) ?_
    rw [natAbs_of_truncate? h, wholePart_zero]
    exact Nat.zero_le _
  · split at h
    · cases h
    · next hmagnitude =>
      exact isShort_of_le (by decide)
        (natAbs_truncate?_ofFraction_le (scale_ten_le (Int.not_lt.mp hmagnitude)) h)

end Binary64

namespace Value

/-- Every whole number in the value is short, and so is what is left of a floating point number in it. -/
inductive IsModest : Value → Prop
  /-- No value. -/
  | null : IsModest .null
  /-- A truth value. -/
  | bool (b : Bool) : IsModest (.bool b)
  /-- A short number. -/
  | int {n : Int} (h : IsShort n) : IsModest (.int n)
  /-- A number of which something short is left. -/
  | float {x : Binary64} (h : ∀ n, x.truncate? = some n → IsShort n) : IsModest (.float x)
  /-- A text. -/
  | str (s : String) : IsModest (.str s)
  /-- Modest items. -/
  | arr {items : List Value} (h : ∀ v ∈ items, IsModest v) : IsModest (.arr items)
  /-- Modest fields. -/
  | obj {fields : List (String × Value)} (h : ∀ f ∈ fields, IsModest f.2) : IsModest (.obj fields)

/-! ## What a modest value holds -/

variable {v w : Value} {key : String}

theorem IsModest.of_mem_arr {items : List Value} (h : (Value.arr items).IsModest) :
    ∀ v ∈ items, v.IsModest := by
  cases h with
  | arr h => exact h

theorem IsModest.of_lookup {fields : List (String × Value)} (h : (Value.obj fields).IsModest)
    (hw : fields.lookup key = some w) : w.IsModest := by
  cases h with
  | obj h =>
    obtain ⟨before, after, rfl, -⟩ := List.lookup_eq_some_iff.mp hw
    exact h (key, w) (by simp)

theorem IsModest.field (h : v.IsModest) {default : Value} (hdefault : default.IsModest)
    (hw : v.field key default = .ok w) : w.IsModest := by
  cases v with
  | obj fields =>
    cases hw
    cases hlookup : fields.lookup key with
    | none => exact hdefault
    | some w => exact h.of_lookup hlookup
  | null | bool | int | float | str | arr => cases hw

theorem IsModest.of_mem_items (h : v.IsModest) {ws : List Value} (hws : v.items = .ok ws) (hw : w ∈ ws) :
    w.IsModest := by
  cases v with
  | arr items =>
    cases hws
    exact h.of_mem_arr w hw
  | obj fields =>
    cases hws
    obtain ⟨f, -, rfl⟩ := List.mem_map.mp hw
    exact .str f.1
  | str s =>
    cases hws
    obtain ⟨c, -, rfl⟩ := List.mem_map.mp hw
    exact .str _
  | null | bool | int | float => cases hws

/-- **The whole number that a modest value stands for is short.** -/
theorem isShort_of_whole? (h : v.IsModest) {n : Int} (hn : v.whole? = .ok (some n)) : IsShort n := by
  have hsmall : ∀ b : Bool, IsShort (if b then 1 else 0) := by
    simp only [isShort_iff]
    intro b
    refine Nat.lt_of_lt_of_le ?_ (Nat.pow_le_pow_right (by decide) (show 1 ≤ Text.maxDigits by decide))
    cases b <;> decide
  cases h with
  | int h =>
    cases hn
    exact h
  | bool b =>
    cases hn
    exact hsmall b
  | @float x h =>
    cases x with
    | nan => cases hn
    | infinite negative => cases hn
    | finite negative m e => exact h n (Except.ok.inj hn)
  | str s => exact Text.isShort_of_readInt? (Except.ok.inj hn)
  | null => cases hn
  | arr _ => cases hn
  | obj _ => cases hn

end Value

/-! ## Decoding -/

namespace Json

theorem isModest_setField {key : String} {v : Value} (hv : v.IsModest) {fields : List (String × Value)}
    (h : ∀ f ∈ fields, f.2.IsModest) : ∀ f ∈ Value.setField key v fields, f.2.IsModest := by
  induction fields with
  | nil => exact List.forall_mem_singleton.mpr hv
  | cons field fields ih =>
    obtain ⟨hfield, hfields⟩ := List.forall_mem_cons.mp h
    rw [Value.setField]
    split
    · exact List.forall_mem_cons.mpr ⟨hv, hfields⟩
    · exact List.forall_mem_cons.mpr ⟨hfield, ih hfields⟩

theorem isDigit_of_takeWhole? {cs whole rest : List Char} (h : takeWhole? cs = some (whole, rest)) :
    ∀ c ∈ whole, c.isDigit = true := by
  cases cs with
  | nil => cases h
  | cons c cs =>
    rw [takeWhole?] at h
    split at h
    · next hzero =>
      cases h
      exact List.forall_mem_singleton.mpr (hzero ▸ rfl)
    · split at h
      · cases h
        exact fun d hd ↦ List.all_eq_true.mp List.all_takeWhile d hd
      · cases h

theorem isModest_of_readUnsigned {negative : Bool} {cs rest : List Char} {v : Value}
    (h : readUnsigned negative cs = .ok (v, rest)) : v.IsModest := by
  unfold readUnsigned at h
  split at h
  · cases h
  · next whole afterWhole hwhole =>
    dsimp only at h
    split at h
    · cases h
      exact .float fun n ↦ Binary64.isShort_of_truncate?_ofDecimal
    · split at h
      · cases h
        exact .float fun n ↦ Binary64.isShort_of_truncate?_ofDecimal
      · split at h
        · cases h
        · next hlength =>
          cases h
          have hvalue : digitsValue whole < 10 ^ Text.maxDigits :=
            Nat.lt_of_lt_of_le (digitsValue_lt (isDigit_of_takeWhole? hwhole))
              (Nat.pow_le_pow_right (by decide) (Nat.not_lt.mp hlength))
          refine .int (isShort_iff.mpr ?_)
          cases negative with
          | false => exact hvalue
          | true =>
            rw [if_pos rfl, Int.natAbs_neg]
            exact hvalue

theorem isModest_of_readNumber {cs rest : List Char} {v : Value} (h : readNumber cs = .ok (v, rest)) :
    v.IsModest := by
  unfold readNumber at h
  have hread := mapError_eq_ok_iff.mp h
  split at hread
  · exact isModest_of_readUnsigned hread
  · exact isModest_of_readUnsigned hread

theorem isModest_of_readWord? {cs rest : List Char} {v : Value} (h : readWord? cs = some (v, rest)) :
    v.IsModest := by
  obtain ⟨w, hw, h⟩ := List.exists_of_findSome?_eq_some h
  have hwords : ∀ w ∈ words, w.2.IsModest := by
    have hfloat : ∀ x : Binary64, x.truncate? = none → (Value.float x).IsModest := fun x hx ↦
      .float fun n hn ↦ by
        rw [hx] at hn
        cases hn
    rw [words]
    simp only [List.forall_mem_cons]
    exact ⟨.null, .bool true, .bool false, hfloat _ rfl, hfloat _ rfl, hfloat _ rfl, by simp⟩
  split at h
  · cases h
    exact hwords w hw
  · cases h

/-- With so many steps, what is read is modest. -/
structure ReadsModest (steps : Nat) : Prop where
  value : ∀ {levels : Nat} {cs rest : List Char} {v : Value},
    readValue steps levels cs = .ok (v, rest) → v.IsModest
  items : ∀ {levels : Nat} {cs rest : List Char} {vs : List Value},
    readItems steps levels cs = .ok (vs, rest) → ∀ v ∈ vs, v.IsModest
  fields : ∀ {levels : Nat} {cs rest : List Char} {done fields : List (String × Value)},
    (∀ f ∈ done, f.2.IsModest) → readFields steps levels done cs = .ok (fields, rest) →
      ∀ f ∈ fields, f.2.IsModest

namespace ReadsModest

variable {steps levels : Nat} {cs rest : List Char}

theorem value_succ (ih : ReadsModest steps) {v : Value}
    (h : readValue (steps + 1) levels cs = .ok (v, rest)) : v.IsModest := by
  cases cs with
  | nil => cases h
  | cons c cs =>
    simp only [readValue] at h
    -- a text, an array, an object, and last a word or a number
    split at h
    · obtain ⟨r, -, hr⟩ := Fault.map_eq_ok_iff.mp h
      cases hr
      exact .str r.1
    split at h
    · split at h
      · cases h
      · cases h
        exact .arr fun v hv ↦ (List.not_mem_nil hv).elim
      · obtain ⟨r, hread, hr⟩ := Fault.map_eq_ok_iff.mp h
        cases hr
        exact .arr (ih.items hread)
    split at h
    · split at h
      · cases h
      · cases h
        exact .obj fun f hf ↦ (List.not_mem_nil hf).elim
      · obtain ⟨r, hread, hr⟩ := Fault.map_eq_ok_iff.mp h
        cases hr
        exact .obj (ih.fields (fun f hf ↦ (List.not_mem_nil hf).elim) hread)
    split at h
    · next hword =>
      cases h
      exact isModest_of_readWord? hword
    · exact isModest_of_readNumber h

theorem items_succ (ih : ReadsModest steps) {vs : List Value}
    (h : readItems (steps + 1) levels cs = .ok (vs, rest)) : ∀ v ∈ vs, v.IsModest := by
  rw [readItems] at h
  split at h
  · cases h
  · next v _ hv =>
    split at h
    · cases h
      exact List.forall_mem_singleton.mpr (ih.value hv)
    · obtain ⟨r, hread, hr⟩ := Fault.map_eq_ok_iff.mp h
      cases hr
      exact List.forall_mem_cons.mpr ⟨ih.value hv, ih.items hread⟩
    · cases h

theorem fields_succ (ih : ReadsModest steps) {done fields : List (String × Value)}
    (hdone : ∀ f ∈ done, f.2.IsModest) (h : readFields (steps + 1) levels done cs = .ok (fields, rest)) :
    ∀ f ∈ fields, f.2.IsModest := by
  rw [readFields.eq_def] at h
  dsimp only at h
  split at h
  · split at h
    · cases h
    · split at h
      · split at h
        · cases h
        · next v _ hv =>
          split at h
          · cases h
            exact isModest_setField (ih.value hv) hdone
          · exact ih.fields (isModest_setField (ih.value hv) hdone) h
          · cases h
      · cases h
  · cases h

end ReadsModest

theorem readsModest (steps : Nat) : ReadsModest steps := by
  induction steps with
  | zero =>
    constructor
    · intro levels cs rest v h
      cases h
    · intro levels cs rest vs h
      cases h
    · intro levels cs rest done fields _ h
      cases h
  | succ steps ih => exact ⟨ih.value_succ, ih.items_succ, ih.fields_succ⟩

/-- **What is decoded is modest.** -/
theorem isModest_of_decode {text : List Char} {v : Value} (h : decode text = .ok v) : v.IsModest := by
  unfold decode at h
  split at h
  · cases h
  · split at h
    · cases h
    · next hread =>
      split at h
      · cases h
        exact (readsModest _).value hread
      · cases h

end Json

end RefCheck
