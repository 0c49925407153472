import Tenancy.Proofs.WellFormed

namespace Tenancy.Json

/-!
# Fields of records

What a field holds is read by other rules than what is skipped: a number has to be of use, and a
string has to spell something.  Where reading succeeds it ends in the same place as skipping, so
that a reader that gets past a well-formed value is in the right place behind it; and what is
written is read as itself.

* `skipNumber_of_read`, `skipString_of_read`, `skipScalar_of_read` — what is read could be skipped.
* `readField_rest` — a field that holds a well-formed value is read to the blanks behind it.
* `readField_render` — a value that its field admits is read as it was written.
-/

variable {rest cs ds mid value w : List Char} {c x : Char} {n : Option Nat} {s t dropped : Nat}
  {e sign : Int} {v : Scalar} {kind : Kind}

/-! ### What is read could be skipped -/

/-- Digits of an exponent that are read are skipped to the same place. -/
theorem skipDigits_of_read (h : readExponentDigits s e sign cs = .ok (n, rest)) :
    (if cs.head?.any Char.isDigit then Except.ok (cs.dropWhile Char.isDigit)
      else .error Fault.malformed) = .ok rest := by
  cases cs with
  | nil => cases h
  | cons c cs =>
    rw [readExponentDigits] at h
    split at h
    · rename_i hc
      rw [endReal_rest h]
      exact if_pos hc
    · cases h

/-- An exponent that is read is skipped to the same place. -/
theorem skipExponent_of_read (h : readExponent s e cs = .ok (n, rest)) :
    skipExponent cs = .ok rest := by
  unfold readExponent at h
  unfold skipExponent
  split at h
  · exact skipDigits_of_read h
  · exact skipDigits_of_read h
  · exact skipDigits_of_read h

/-- A fraction that is read is skipped to the same place. -/
theorem skipFraction_of_read (h : readFraction s e cs = .ok (n, rest)) :
    skipRest ('.' :: cs) = .ok rest := by
  unfold readFraction at h
  dsimp only at h
  split at h
  · cases h
  · rename_i hdigits
    have hfirst : cs.head?.any Char.isDigit = true := by
      cases cs with
      | nil => exact absurd rfl hdigits
      | cons c cs =>
        cases hc : c.isDigit with
        | true => exact hc
        | false => simp [hc] at hdigits
    rw [skipRest, if_pos hfirst]
    split at h
    · exact skipExponent_of_read h
    · exact skipExponent_of_read h
    · rw [endReal_rest h]

/-- What follows the integer part is read and skipped to the same place. -/
theorem skipRest_of_read (h : readRest s dropped cs = .ok (n, rest)) : skipRest cs = .ok rest := by
  unfold readRest at h
  split at h
  · exact skipFraction_of_read h
  · exact skipExponent_of_read h
  · exact skipExponent_of_read h
  · rename_i hpoint hlower hupper
    have hskip : skipRest cs = .ok cs := by
      unfold skipRest
      split
      · exact absurd rfl (hpoint _)
      · exact absurd rfl (hlower _)
      · exact absurd rfl (hupper _)
      · rfl
    split at h
    · cases h
      exact hskip
    · rw [endReal_rest h, hskip]

/-- A number that is read is skipped up to the same place. -/
theorem skipNumber_of_read (h : readNumber cs = .ok (n, rest)) : skipNumber cs = .ok rest := by
  cases cs with
  | nil => cases h
  | cons c cs =>
    rw [readNumber] at h
    rw [skipNumber]
    split at h
    · rename_i hzero
      split at h
      · cases h
      · rename_i hnext
        rw [if_pos hzero, if_neg hnext, skipRest_of_read h]
    · rename_i hzero
      split at h
      · rename_i hdigit
        rw [List.dropWhile_cons_of_pos hdigit] at h
        rw [if_neg hzero, if_pos hdigit, skipRest_of_read h]
      · cases h

/-- The second half of a pair of surrogates is an escape of its own for who skips. -/
theorem skipString_of_readLow {high : Nat} (h : readLowSurrogate high cs = .ok (x, mid)) :
    skipString cs = skipString mid := by
  revert h
  fun_cases readLowSurrogate high cs with
  | case3 cs =>
    intro h
    obtain ⟨⟨low, behind⟩, hlow, h⟩ := exists_of_bind h
    dsimp only at h
    split at h
    · obtain rfl : behind = mid := (Prod.mk.inj (Except.ok.inj h)).2
      have hskip : skipEscape ('u' :: cs) = .ok behind := by
        show Prod.snd <$> readHex cs = _
        rw [hlow]
        rfl
      rw [skipString_cons, if_neg (by decide), if_pos rfl, hskip]
      rfl
    · cases h
  | _ => intro h; cases h

/-- Behind an escape that is read, skipping goes on where reading does. -/
theorem skipEscape_of_read (h : readEscape cs = .ok (x, mid)) :
    (skipEscape cs >>= skipString) = skipString mid := by
  cases cs with
  | nil => cases h
  | cons c cs =>
    rw [readEscape] at h
    rw [skipEscape]
    split at h
    · cases h
      rfl
    · split at h
      · rename_i hcode
        obtain ⟨⟨code, behind⟩, hhex, h⟩ := exists_of_bind h
        rw [if_pos hcode, hhex]
        show skipString behind = _
        dsimp only at h
        split at h
        · cases h
        · split at h
          -- the first half of a pair of surrogates: the second half is skipped with the string
          -- behind it
          · exact skipString_of_readLow h
          · cases h
            rfl
      · cases h

/-- A string that is read is skipped up to the same place. -/
theorem skipString_of_read {xs : List Char} (h : readString cs = .ok (xs, rest)) :
    skipString cs = .ok rest := by
  fun_induction readString cs generalizing xs with
  | case1 => cases h
  | case2 cs =>
    cases h
    rw [skipString_cons, if_pos rfl]
  | case3 => cases h
  | case4 cs c mid hmid _ ih =>
    obtain ⟨⟨ys, behind⟩, hs, h⟩ := exists_of_bind h
    cases h
    rw [skipString_cons, if_neg (by decide), if_pos rfl, skipEscape_of_read hmid]
    exact ih hs
  | case5 => cases h
  | case6 c cs hquote hslash hlow ih =>
    obtain ⟨⟨ys, behind⟩, hs, h⟩ := exists_of_bind h
    cases h
    rw [skipString_cons, if_neg hquote, if_neg hslash, if_neg hlow]
    exact ih hs

/-- A value of a field could be skipped. -/
theorem skipScalar_of_read (h : readScalar c cs = .ok (v, rest)) : skipScalar c cs = .ok rest := by
  -- reader and skipper try the same first characters in the same order, so they are split together
  have word {v w : Scalar} {ds : List Char}
      (h : (fun rest => (v, rest)) <$> expect ds cs = .ok (w, rest)) : expect ds cs = .ok rest := by
    obtain ⟨behind, he, h⟩ := exists_of_map h
    cases h
    exact he
  unfold readScalar at h
  unfold skipScalar
  split at h
  · rw [if_pos ‹_›]
    exact word h
  rw [if_neg ‹_›]
  split at h
  · rw [if_pos ‹_›]
    exact word h
  rw [if_neg ‹_›]
  split at h
  · rw [if_pos ‹_›]
    exact word h
  rw [if_neg ‹_›]
  split at h
  · obtain ⟨p, hs, h⟩ := exists_of_map h
    cases h
    rw [if_pos ‹_›]
    exact skipString_of_read hs
  rw [if_neg ‹_›]
  split at h
  · obtain ⟨p, hn, h⟩ := exists_of_map h
    cases h
    rw [if_pos ‹_›]
    exact skipNumber_of_read hn
  rw [if_neg ‹_›]
  split at h
  · obtain ⟨p, hn, h⟩ := exists_of_map h
    cases h
    rw [if_pos ‹_›]
    exact skipNumber_of_read hn
  split at h <;> cases h

/-- A value of a field opens no bracket. -/
theorem ofOpening?_of_read (h : readScalar c cs = .ok (v, rest)) : Bracket.ofOpening? c = none := by
  unfold Bracket.ofOpening?
  split
  · rename_i hc
    rw [hc] at h
    cases h
  · split
    · rename_i hc
      rw [hc] at h
      cases h
    · rfl

/-- A field that is read with success has been read to the blanks behind its value. -/
theorem readField_rest (hvalue : Derives .padded value) (hends : Ends cs)
    (h : readField kind (value ++ cs) = .ok (v, rest)) :
    ∃ after, Blanks after ∧ rest = after ++ cs := by
  -- where the skipper ends is known from the grammar, and the reader ends where the skipper does
  obtain ⟨after, hafter, hskip⟩ := skipValue_append hvalue hends
  refine ⟨after, hafter, ?_⟩
  rw [readField] at h
  rw [skipValue, skipNext_eq] at hskip
  split at h
  · cases h
  · rename_i c ds hblanks
    rw [hblanks] at hskip
    obtain ⟨⟨u, behind⟩, hread, h⟩ := exists_of_bind h
    dsimp only at h hskip
    split at h
    · cases h
      rw [ofOpening?_of_read hread] at hskip
      dsimp only at hskip
      rw [skipScalar_of_read hread] at hskip
      have hend : skipBehind [] rest = .ok (after ++ cs) := hskip
      rw [skipBehind_nil] at hend
      exact Except.ok.inj hend
    · cases h

/-! ### What is written is read -/

/-- Digits are gathered to their end if the number fits 64 bits. -/
theorem gather_digits (h : Nat.ofDigitChars 10 ds s ≤ maxWord) :
    gather s t ds = (Nat.ofDigitChars 10 ds s, t + ds.length, 0) := by
  induction ds generalizing s t with
  | nil => rfl
  | cons c ds ih =>
    rw [Nat.ofDigitChars_cons, Nat.mul_comm 10 s, ← digitValue] at h ⊢
    have hnext : s * 10 + digitValue c ≤ maxWord := Nat.le_trans (Text.le_ofDigitChars _ ds) h
    rw [gather, if_pos hnext, ih h, List.length_cons, Nat.add_assoc, Nat.add_comm 1]

/-- Behind a whole number nothing more is read. -/
theorem readRest_ends (h : Ends rest) : readRest s 0 rest = .ok (some s, rest) := by
  unfold readRest
  split
  · exact absurd rfl (h '.' rfl).2.1
  · exact absurd rfl (h 'e' rfl).2.2.1
  · exact absurd rfl (h 'E' rfl).2.2.2
  · rw [if_pos rfl]

/-- Digits are taken up to something else. -/
theorem takeDigits_append (hds : ∀ c ∈ ds, c.isDigit = true) (hrest : Ends rest) :
    (ds ++ rest).takeWhile Char.isDigit = ds := by
  rw [List.takeWhile_append_of_pos hds]
  cases rest with
  | nil => exact List.append_nil ds
  | cons c rest =>
    rw [List.takeWhile_cons_of_neg (by simp [(hrest c rfl).1]), List.append_nil]

/-- A whole number of 64 bits is read as what its digits stand for. -/
theorem readNumber_whole (hw : Whole w) (hword : Nat.ofDigitChars 10 w 0 ≤ maxWord)
    (hrest : Ends rest) :
    readNumber (w ++ rest) = .ok (some (Nat.ofDigitChars 10 w 0), rest) := by
  cases hw with
  | zero =>
    have hnext : ¬rest.head?.any Char.isDigit = true := by
      rw [Option.any_eq_true]
      rintro ⟨c, hc, hdigit⟩
      exact absurd hdigit (by simp [(hrest c hc).1])
    rw [List.cons_append, readNumber, if_pos rfl, List.nil_append, if_neg hnext]
    exact readRest_ends hrest
  -- the digits are those up to the first character that is none
  | @digits d ds hd hzero hds =>
    have hall : ∀ c ∈ d :: ds, c.isDigit = true := by
      intro c hc
      rcases List.mem_cons.1 hc with rfl | hc
      · exact hd
      · exact hds c hc
    have hdrop : ((d :: ds) ++ rest).dropWhile Char.isDigit = rest :=
      dropDigits_append hall fun c hc => (hrest c hc).1
    have htake : ((d :: ds) ++ rest).takeWhile Char.isDigit = d :: ds :=
      takeDigits_append hall hrest
    rw [List.cons_append] at hdrop htake ⊢
    rw [readNumber, if_neg hzero, if_pos hd, htake, hdrop, gather_digits hword]
    exact readRest_ends hrest

/-- A digit starts a number. -/
theorem readScalar_digit (h : c.isDigit = true) :
    readScalar c cs = (fun p => (p.1.elim .otherNumber .whole, p.2)) <$> readNumber (c :: cs) := by
  obtain ⟨hn, ht, hf, hquote, hminus, -⟩ := isDigit_ne h
  rw [readScalar, if_neg hn, if_neg ht, if_neg hf, if_neg hquote, if_neg hminus, if_pos h]

/-- A scalar of the right kind is the value of its field. -/
theorem readField_cons (hblank : isBlank c = false) (h : readScalar c cs = .ok (v, rest))
    (hv : kind.admits v = true) : readField kind (c :: cs) = .ok (v, rest) := by
  rw [readField, skipBlanks_cons hblank]
  show readScalar c cs >>= _ = _
  rw [h]
  exact if_pos hv

/-- A number of 64 bits is read from its digits. -/
theorem readField_toDigits {k : Nat} (hk : k ≤ maxWord) (hv : kind.admits (.whole k) = true)
    (hrest : Ends rest) : readField kind (Nat.toDigits 10 k ++ rest) = .ok (.whole k, rest) := by
  have hdigits := Text.isNumeral_toDigits k
  have hread := readNumber_whole (whole_toDigits k) (by rwa [Nat.ofDigitChars_ten_toDigits]) hrest
  rw [Nat.ofDigitChars_ten_toDigits] at hread
  cases hcs : Nat.toDigits 10 k with
  | nil => exact absurd hcs hdigits.1
  | cons d ds =>
    rw [hcs] at hread hdigits
    have hd : d.isDigit = true := hdigits.2 d List.mem_cons_self
    rw [List.cons_append] at hread ⊢
    refine readField_cons (isBlank_of_isDigit hd) ?_ hv
    rw [readScalar_digit hd, hread]
    rfl

/-- A flag as it is written is read back. -/
theorem readField_flag (b : Bool) :
    readField .flag ((toString b).toList ++ rest) = .ok (.flag b, rest) := by
  cases b with
  | true =>
    show readField .flag ('t' :: (['r', 'u', 'e'] ++ rest)) = _
    refine readField_cons (by decide) ?_ rfl
    show (fun rest => (Scalar.flag true, rest)) <$> expect _ _ = _
    rw [expect_append]
    rfl
  | false =>
    show readField .flag ('f' :: (['a', 'l', 's', 'e'] ++ rest)) = _
    refine readField_cons (by decide) ?_ rfl
    show (fun rest => (Scalar.flag false, rest)) <$> expect _ _ = _
    rw [expect_append]
    rfl

/-- The numbers that the field may hold fit 64 bits. -/
def Kind.Narrow : Kind → Prop
  | .word most => most ≤ maxWord
  | .flag => True

/-- **Fields are read as they are written.** -/
theorem readField_render (hkind : kind.Narrow) (hv : kind.admits v = true) (hrest : Ends rest) :
    readField kind (v.value.render.toList ++ rest) = .ok (v, rest) := by
  cases kind with
  | flag =>
    cases v with
    | flag b =>
      rw [Scalar.value, Value.render]
      exact readField_flag b
    | _ => cases hv
  | word most =>
    cases v with
    | whole k =>
      have hk : k ≤ maxWord := Nat.le_trans (of_decide_eq_true hv) hkind
      rw [Scalar.value, Value.render, Text.toList_toString]
      exact readField_toDigits hk hv hrest
    | _ => cases hv

end Tenancy.Json
