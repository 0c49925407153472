import Mathlib.Data.List.TakeWhile
import Tenancy.Id.Text

namespace Tenancy

/-!
# Texts that name an id

An id is read from left to right, blanks first, with a check at each digit that the number has not
become too large.  Nothing of that shows from outside: a text names an id if it is a run of digits,
perhaps behind a plus and with white space around it, and the id is the number that the digits stand
for.

* `Text.isBlank_iff` — the characters that count as white space.
* `Text.exists_trim`, `Text.trim_append` — what is cut off at the two ends of a text.
* `Text.IsNumeral` — digits, of which there is at least one; `Text.readNat_eq_ok_iff` for the texts
  that are read as numbers, and `Text.readNat_toDigits` for those that are written.
* `TenantId.read_iff_numeral` — which texts name an id, and that the text of an id is one of them.
-/

namespace Text

variable {most acc n : Nat} {c : Char} {cs core before after digits : List Char}
    {excess : NumeralFault}

/-! ### White space -/

/-- The code points of the characters that Unicode counts as white space. -/
def whiteSpace : List Nat :=
  [0x09, 0x0a, 0x0b, 0x0c, 0x0d, 0x20, 0x85, 0xa0, 0x1680, 0x2000, 0x2001, 0x2002, 0x2003, 0x2004,
    0x2005, 0x2006, 0x2007, 0x2008, 0x2009, 0x200a, 0x2028, 0x2029, 0x202f, 0x205f, 0x3000]

/-- The blanks are the white space of Unicode, code point by code point. -/
theorem isBlank_iff : isBlank c = true ↔ c.toNat ∈ whiteSpace := by
  simp only [isBlank, whiteSpace, List.mem_cons, List.not_mem_nil, or_false, Bool.or_eq_true,
    Bool.and_eq_true, decide_eq_true_eq, beq_iff_eq]
  omega

/-- Nothing is cut off in the middle of a text. -/
theorem exists_trim (cs : List Char) : ∃ before after, cs = before ++ trim cs ++ after ∧
    (∀ c ∈ before, isBlank c = true) ∧ ∀ c ∈ after, isBlank c = true := by
  refine ⟨cs.takeWhile isBlank, ((cs.dropWhile isBlank).reverse.takeWhile isBlank).reverse, ?_,
    fun c hc => List.mem_takeWhile_imp hc,
    fun c hc => List.mem_takeWhile_imp (List.mem_reverse.1 hc)⟩
  have hend : trim cs ++ ((cs.dropWhile isBlank).reverse.takeWhile isBlank).reverse
      = cs.dropWhile isBlank := by
    rw [trim, trimEnd, ← List.reverse_append, List.takeWhile_append_dropWhile, List.reverse_reverse]
  rw [List.append_assoc, hend, List.takeWhile_append_dropWhile]

/-- Of a text without blanks nothing is dropped but what stands in front of it. -/
theorem dropWhile_isBlank_append (hbefore : ∀ c ∈ before, isBlank c = true)
    (hcore : ∀ c ∈ core, isBlank c = false) : (before ++ core).dropWhile isBlank = core := by
  rw [List.dropWhile_append_of_pos hbefore]
  cases core with
  | nil => rfl
  | cons c cs => exact List.dropWhile_cons_of_neg (by simp [hcore c List.mem_cons_self])

/-- A text without blanks is what is left of it with blanks around. -/
theorem trim_append (hbefore : ∀ c ∈ before, isBlank c = true)
    (hcore : ∀ c ∈ core, isBlank c = false)
    (hafter : ∀ c ∈ after, isBlank c = true) : trim (before ++ core ++ after) = core := by
  have hreversed : ((core ++ after).reverse.dropWhile isBlank) = core.reverse := by
    rw [List.reverse_append]
    exact dropWhile_isBlank_append (fun c hc => hafter c (List.mem_reverse.1 hc))
      fun c hc => hcore c (List.mem_reverse.1 hc)
  rw [trim, trimEnd, List.append_assoc, List.dropWhile_append_of_pos hbefore]
  -- a blank text is gone after the first cut already
  cases core with
  | nil => simp [List.dropWhile_eq_nil_iff.2 hafter]
  | cons c cs =>
    have hc : isBlank c = false := hcore c List.mem_cons_self
    rw [List.cons_append, List.dropWhile_cons_of_neg (by simp [hc]), ← List.cons_append, hreversed,
      List.reverse_reverse]

/-! ### Digits -/

/-- A number as its digits, of which there is at least one.  Zeros in front do not count. -/
def IsNumeral (digits : List Char) : Prop := digits ≠ [] ∧ ∀ c ∈ digits, c.isDigit = true

instance (digits : List Char) : Decidable (IsNumeral digits) :=
  decidable_of_iff (digits ≠ [] ∧
    digits.all Char.isDigit = true) (and_congr_right fun _ => List.all_eq_true)

theorem toNat_of_isDigit (h : c.isDigit = true) : 48 ≤ c.toNat ∧ c.toNat ≤ 57 := by
  simp only [Char.isDigit, Bool.and_eq_true, decide_eq_true_eq, ge_iff_le] at h
  exact ⟨UInt32.le_iff_toNat_le.1 h.1, UInt32.le_iff_toNat_le.1 h.2⟩

/-- A digit is no blank. -/
theorem isBlank_of_isDigit (h : c.isDigit = true) : isBlank c = false := by
  obtain ⟨hlow, hhigh⟩ := toNat_of_isDigit h
  rw [← Bool.not_eq_true, isBlank_iff]
  simp only [whiteSpace, List.mem_cons, List.not_mem_nil, or_false]
  omega

theorem digit?_of_isDigit (h : c.isDigit = true) : digit? c = some (c.toNat - '0'.toNat) := if_pos h

theorem digit?_of_not_isDigit (h : c.isDigit = false) : digit? c = none := if_neg (by simp [h])

/-- A number does not become smaller by more digits. -/
theorem le_ofDigitChars (acc : Nat) (cs : List Char) : acc ≤ Nat.ofDigitChars 10 cs acc := by
  rw [Nat.ofDigitChars_eq_ofDigitChars_zero]
  exact Nat.le_trans (Nat.le_mul_of_pos_left acc (Nat.pow_pos (by decide))) (Nat.le_add_right _ _)

/-- Digits are read to their end if the number stays small enough, and nothing else is. -/
theorem readDigits_eq_ok_iff (hacc : acc ≤ most) : readDigits most excess acc cs = .ok n ↔
    (∀ c ∈ cs, c.isDigit = true) ∧ Nat.ofDigitChars 10 cs acc = n ∧ n ≤ most := by
  -- the accumulator is within the bound at every step, or the reading has stopped
  induction cs generalizing acc with
  | nil =>
    simp only [readDigits, Except.ok.injEq, List.not_mem_nil, false_implies, implies_true, true_and,
      Nat.ofDigitChars_nil]
    constructor
    · rintro rfl
      exact ⟨rfl, hacc⟩
    · exact And.left
  | cons c cs ih =>
    rw [readDigits, List.forall_mem_cons, Nat.ofDigitChars_cons, Nat.mul_comm 10 acc]
    cases hc : c.isDigit with
    | false => simp [digit?_of_not_isDigit hc]
    | true =>
      rw [digit?_of_isDigit hc]
      dsimp only
      by_cases hnext : acc * 10 + (c.toNat - '0'.toNat) ≤ most
      · rw [if_pos hnext, ih hnext]
        simp
      · -- the number is too large by now, and does not become smaller
        rw [if_neg hnext]
        have hlarger := le_ofDigitChars (acc * 10 + (c.toNat - '0'.toNat)) cs
        refine iff_of_false (fun h => nomatch h) ?_
        rintro ⟨-, rfl, hle⟩
        exact hnext (Nat.le_trans hlarger hle)

/-- What is read as a numeral: digits, at least one, with a value in bounds. -/
theorem readNumeral_eq_ok_iff : readNumeral most excess cs = .ok n ↔
    IsNumeral cs ∧ Nat.ofDigitChars 10 cs 0 = n ∧ n ≤ most := by
  cases cs with
  | nil => exact iff_of_false (fun h => nomatch h) fun h => h.1.1 rfl
  | cons c cs =>
    show readDigits most excess 0 (c :: cs) = .ok n ↔ _
    rw [readDigits_eq_ok_iff (Nat.zero_le most), IsNumeral, and_iff_right (List.cons_ne_nil c cs)]

/-- **Numbers are read exactly.** The texts that are read as a number are its digits, alone or
    behind a plus. -/
theorem readNat_eq_ok_iff : readNat most cs = .ok n ↔ ∃ sign digits, cs = sign ++ digits ∧
    (sign = [] ∨ sign = ['+']) ∧ IsNumeral digits ∧ Nat.ofDigitChars 10 digits 0 = n ∧
      n ≤ most := by
  -- the cases are those of the reader: nothing at all, a plus in front, and neither
  fun_cases readNat most cs with
  | case1 =>
    refine iff_of_false (fun h => nomatch h) ?_
    rintro ⟨sign, digits, hcs, -, hdigits, -⟩
    exact hdigits.1 (List.append_eq_nil_iff.1 hcs.symm).2
  | case2 cs =>
    rw [readNumeral_eq_ok_iff]
    constructor
    · intro h
      exact ⟨['+'], cs, rfl, .inr rfl, h⟩
    · rintro ⟨sign, digits, hcs, rfl | rfl, h⟩
      · -- a plus is no digit
        rw [List.nil_append] at hcs
        subst hcs
        exact absurd (h.1.2 '+' List.mem_cons_self) (by decide)
      · rw [(List.cons.inj hcs).2]
        exact h
  | case3 cs hnil hplus =>
    rw [readNumeral_eq_ok_iff]
    constructor
    · intro h
      exact ⟨[], cs, rfl, .inl rfl, h⟩
    · rintro ⟨sign, digits, rfl, rfl | rfl, h⟩
      · exact h
      · exact absurd rfl (hplus digits)

/-! ### Numbers as they are written -/

theorem isNumeral_toDigits (n : Nat) : IsNumeral (Nat.toDigits 10 n) :=
  ⟨Nat.toDigits_ne_nil, fun _ hc => Nat.isDigit_of_mem_toDigits (by decide) (by decide) hc⟩

theorem toList_toString (n : Nat) : (toString n).toList = Nat.toDigits 10 n := by
  rw [Nat.toString_eq_ofList_toDigits, String.toList_ofList]

/-- What is written is read. -/
theorem readNat_toDigits (h : n ≤ most) : readNat most (Nat.toDigits 10 n) = .ok n :=
  readNat_eq_ok_iff.2
    ⟨[], _, rfl, .inl rfl, isNumeral_toDigits n, Nat.ofDigitChars_ten_toDigits, h⟩

end Text

/-! ### Ids -/

namespace TenantId

open Text

variable {s : String} {id : TenantId} {n : Nat}

/-- Reading an id is reading a number from the trimmed text. -/
theorem ofText?_eq_ok_iff :
    ofText? s = .ok id ↔ readNat (UInt64.size - 1) (trim s.toList) = .ok id.toNat := by
  rw [ofText?]
  cases h : readNat (UInt64.size - 1) (trim s.toList) with
  | error e => exact iff_of_false (fun h => nomatch h) fun h => nomatch h
  | ok n =>
    obtain ⟨-, -, -, -, -, -, hn⟩ := readNat_eq_ok_iff.1 h
    show Except.ok (ofNat n) = _ ↔ _
    rw [Except.ok.injEq, Except.ok.injEq]
    have hsize : n < UInt64.size := Nat.lt_of_le_of_lt hn (by decide)
    constructor
    · rintro rfl
      exact (toNat_ofNat hsize).symm
    · rintro rfl
      exact ext (toNat_ofNat hsize)

/-- White space and a sign do not count. -/
theorem ofText?_append {before sign digits after : List Char}
    (hbefore : ∀ c ∈ before, isBlank c = true) (hsign : sign = [] ∨ sign = ['+'])
    (hdigits : IsNumeral digits) (hafter : ∀ c ∈ after, isBlank c = true)
    (hid : Nat.ofDigitChars 10 digits 0 = id.toNat)
    (hs : s.toList = before ++ (sign ++ digits) ++ after) : ofText? s = .ok id := by
  have hcore : ∀ c ∈ sign ++ digits, isBlank c = false := by
    intro c hc
    rcases List.mem_append.1 hc with hc | hc
    · rcases hsign with rfl | rfl
      · cases hc
      · rw [List.mem_singleton.1 hc]
        decide
    · exact isBlank_of_isDigit (hdigits.2 c hc)
  rw [ofText?_eq_ok_iff, hs, trim_append hbefore hcore hafter]
  exact readNat_eq_ok_iff.2
    ⟨sign, digits, rfl, hsign, hdigits, hid, Nat.le_sub_one_of_lt id.toNat_lt⟩

/-- **Texts of ids.** A text is read as the id `n` just if it is white space, perhaps a plus, at
    least one digit, and white space again, and the digits stand for `n`, which is below 2^64: there
    can be any number of zeros in front, and no other character anywhere.  So the text of an id,
    with any white space around it, is read as this id. -/
theorem read_iff_numeral :
    (∀ (s : String) (n : Nat), (∃ id, ofText? s = .ok id ∧ id.toNat = n) ↔
      n < UInt64.size ∧ ∃ before sign digits after : List Char,
        s.toList = before ++ (sign ++ digits) ++ after ∧ (∀ c ∈ before, c.toNat ∈ whiteSpace) ∧
        (sign = [] ∨ sign = ['+']) ∧ IsNumeral digits ∧ Nat.ofDigitChars 10 digits 0 = n ∧
        ∀ c ∈ after, c.toNat ∈ whiteSpace) ∧
    ∀ (id : TenantId) (before after : List Char), (∀ c ∈ before, c.toNat ∈ whiteSpace) →
      (∀ c ∈ after, c.toNat ∈ whiteSpace) →
      ofText? (String.ofList (before ++ id.text.toList ++ after)) = .ok id := by
  simp only [← isBlank_iff]
  refine ⟨fun s n => ⟨?_, ?_⟩, fun id before after hbefore hafter => ?_⟩
  · rintro ⟨id, hid, rfl⟩
    obtain ⟨before, after, htrim, hbefore, hafter⟩ := exists_trim s.toList
    obtain ⟨sign, digits, hcore, hsign, hdigits, hvalue, -⟩ :=
      readNat_eq_ok_iff.1 (ofText?_eq_ok_iff.1 hid)
    rw [hcore] at htrim
    exact ⟨id.toNat_lt, before, sign, digits, after, htrim, hbefore, hsign, hdigits, hvalue, hafter⟩
  · rintro ⟨hn, before, sign, digits, after, hs, hbefore, hsign, hdigits, hvalue, hafter⟩
    have hid : (ofNat n).toNat = n := toNat_ofNat hn
    exact ⟨ofNat n, ofText?_append hbefore hsign hdigits hafter (hvalue.trans hid.symm) hs, hid⟩
  · have hsign : ([] : List Char) = [] ∨ ([] : List Char) = ['+'] := .inl rfl
    refine ofText?_append hbefore hsign (isNumeral_toDigits id.toNat) hafter
      Nat.ofDigitChars_ten_toDigits ?_
    rw [String.toList_ofList, text, toList_toString, List.nil_append]

/-- The largest id, with an ideographic space and zeros in front of it and a line end behind it; and
    the number that is larger by one, which names no id. -/
theorem read_iff_numeral_widest :
    (∃ id, ofText? "\u3000+00018446744073709551615\n" = .ok id ∧ id.toNat = UInt64.size - 1) ∧
      (¬∃ id, ofText? "18446744073709551616" = .ok id ∧ id.toNat = UInt64.size) ∧
      ofText? (String.ofList (['\t', '\u00a0'] ++ (ofNat 17).text.toList ++ ['\u2003']))
        = .ok (ofNat 17) := by
  have hideographic : ∀ c ∈ ['\u3000'], c.toNat ∈ whiteSpace :=
    List.forall_mem_singleton.2 (by decide)
  have hlineEnd : ∀ c ∈ ['\n'], c.toNat ∈ whiteSpace := List.forall_mem_singleton.2 (by decide)
  have hbefore : ∀ c ∈ ['\t', '\u00a0'], c.toNat ∈ whiteSpace :=
    List.forall_mem_cons.2 ⟨by decide, List.forall_mem_singleton.2 (by decide)⟩
  have hafter : ∀ c ∈ ['\u2003'], c.toNat ∈ whiteSpace := List.forall_mem_singleton.2 (by decide)
  refine ⟨(read_iff_numeral.1 _ _).2 ⟨by decide, ['\u3000'], ['+'],
      "00018446744073709551615".toList, ['\n'], by decide +kernel, hideographic,
        .inr rfl, by decide +kernel, by decide +kernel, hlineEnd⟩,
    fun h => ?_, read_iff_numeral.2 (ofNat 17) _ _ hbefore hafter⟩
  exact absurd ((read_iff_numeral.1 _ _).1 h).1 (by decide)

end TenantId

end Tenancy
