import Tenancy.Json.Record
import Tenancy.Proofs.Numerals

namespace Tenancy.Json

/-!
# Well-formed JSON

The grammar of JSON, without a word about how it is read.  A phrase is a text that the grammar
derives; between the parts of a phrase there can be blanks.  A value that nobody asked for is
skipped from its first character to its last if it is well-formed, however deep its lists and
objects are nested and whatever its strings hold, and what is written is well-formed.

* `Body`, `Spells` — what stands between the quotes of a string, and the text that it stands for;
  `readString_append`, `skipString_append`.
* `Number` — the numbers; `skipNumber_append`.
* `Derives` — values, items of lists and members of objects; `Derives.skips`, `skipValue_append`.
* `Value.derives_render` — what is written is well-formed.
-/

open Text (IsNumeral)

/-! ### Strings and numbers -/

/-- Blanks, or nothing. -/
def Blanks (ws : List Char) : Prop := ∀ c ∈ ws, isBlank c = true

instance (ws : List Char) : Decidable (Blanks ws) := decidable_of_iff _ List.all_eq_true

/-- Four hexadecimal digits, and the number that they stand for. -/
inductive Code : List Char → Nat → Prop
  | digits {a b c d : Char} {i j k l : Nat} (ha : Text.hexValue? a = some i)
      (hb : Text.hexValue? b = some j) (hc : Text.hexValue? c = some k)
      (hd : Text.hexValue? d = some l) : Code [a, b, c, d] (((i * 16 + j) * 16 + k) * 16 + l)

/-- What stands between the quotes of a string.  A code may be any number. -/
inductive Body : List Char → Prop
  | nil : Body []
  | plain {c : Char} {cs : List Char} (hlow : 0x20 ≤ c.toNat) (hquote : c ≠ '"') (hslash : c ≠ '\\')
      (h : Body cs) : Body (c :: cs)
  | short {c : Char} {cs : List Char} (hc : c ∈ ['"', '\\', '/', 'b', 'f', 'n', 'r', 't'])
      (h : Body cs) : Body ('\\' :: c :: cs)
  | code {code cs : List Char} {n : Nat} (hcode : Code code n) (h : Body cs) :
      Body ('\\' :: 'u' :: (code ++ cs))

/-- The text that stands between the quotes spells a text.  A code that is half of a pair of
    surrogates spells nothing without the other half. -/
inductive Spells : List Char → List Char → Prop
  | nil : Spells [] []
  | plain {c : Char} {cs s : List Char} (hlow : 0x20 ≤ c.toNat) (hquote : c ≠ '"')
      (hslash : c ≠ '\\')
      (h : Spells cs s) : Spells (c :: cs) (c :: s)
  | short {c x : Char} {cs s : List Char} (hc : shortEscape? c = some x) (h : Spells cs s) :
      Spells ('\\' :: c :: cs) (x :: s)
  | code {code cs s : List Char} {n : Nat} (hcode : Code code n) (hhigh : isHighSurrogate n = false)
      (hlow : isLowSurrogate n = false) (h : Spells cs s) :
      Spells ('\\' :: 'u' :: (code ++ cs)) (.ofNat n :: s)
  | pair {high low cs s : List Char} {n m : Nat} (hcode : Code high n)
      (hhigh : isHighSurrogate n = true)
      (hcode' : Code low m) (hlow : isLowSurrogate m = true) (h : Spells cs s) :
      Spells ('\\' :: 'u' :: (high ++ '\\' :: 'u' :: (low ++ cs)))
        (.ofNat (0x10000 + (n - 0xd800) * 0x400 + (m - 0xdc00)) :: s)

/-- A number without sign, fraction and exponent: only 0 itself begins with a zero. -/
inductive Whole : List Char → Prop
  | zero : Whole ['0']
  | digits {d : Char} {ds : List Char} (hd : d.isDigit = true) (hzero : d ≠ '0')
      (hds : ∀ c ∈ ds, c.isDigit = true) : Whole (d :: ds)

/-- A fraction, or nothing. -/
inductive Fraction : List Char → Prop
  | none : Fraction []
  | some {ds : List Char} (hds : IsNumeral ds) : Fraction ('.' :: ds)

/-- An exponent, or nothing. -/
inductive Exponent : List Char → Prop
  | none : Exponent []
  | some {e : Char} {sign ds : List Char} (he : e = 'e' ∨ e = 'E')
      (hsign : sign = [] ∨ sign = ['+'] ∨ sign = ['-']) (hds : IsNumeral ds) :
      Exponent (e :: (sign ++ ds))

/-- A number. -/
inductive Number : List Char → Prop
  | unsigned {w f e : List Char} (hw : Whole w) (hf : Fraction f) (he : Exponent e) :
      Number (w ++ (f ++ e))
  | negative {w f e : List Char} (hw : Whole w) (hf : Fraction f) (he : Exponent e) :
      Number ('-' :: (w ++ (f ++ e)))

/-! ### Values -/

/-- The kinds of phrases that lists and objects are built of. -/
inductive Phrase
  | value
  /-- A value with blanks around it. -/
  | padded
  | items
  | member
  | members

/-- The grammar derives the text as a phrase of this kind. -/
inductive Derives : Phrase → List Char → Prop
  | null : Derives .value ['n', 'u', 'l', 'l']
  | yes : Derives .value ['t', 'r', 'u', 'e']
  | no : Derives .value ['f', 'a', 'l', 's', 'e']
  | string {body : List Char} (h : Body body) : Derives .value ('"' :: (body ++ ['"']))
  | number {cs : List Char} (h : Number cs) : Derives .value cs
  | emptyList {ws : List Char} (h : Blanks ws) : Derives .value ('[' :: (ws ++ [']']))
  | list {items : List Char} (h : Derives .items items) : Derives .value ('[' :: (items ++ [']']))
  | emptyObject {ws : List Char} (h : Blanks ws) : Derives .value ('\x7b' :: (ws ++ ['\x7d']))
  | object {members : List Char} (h : Derives .members members) :
      Derives .value ('\x7b' :: (members ++ ['\x7d']))
  | padded {before v after : List Char} (hbefore : Blanks before) (h : Derives .value v)
      (hafter : Blanks after) : Derives .padded (before ++ (v ++ after))
  | lastItem {v : List Char} (h : Derives .padded v) : Derives .items v
  | item {v items : List Char} (h : Derives .padded v) (hrest : Derives .items items) :
      Derives .items (v ++ ',' :: items)
  | member {lead key gap v : List Char} (hlead : Blanks lead) (hkey : Body key) (hgap : Blanks gap)
      (h : Derives .padded v) : Derives .member (lead ++ '"' :: (key ++ '"' :: (gap ++ ':' :: v)))
  | lastMember {m : List Char} (h : Derives .member m) : Derives .members m
  | moreMembers {m members : List Char} (h : Derives .member m) (hrest : Derives .members members) :
      Derives .members (m ++ ',' :: members)

variable {ws rest cs body s code ds w f e v : List Char} {c d : Char} {n : Nat}
  {opened : List Bracket} {b : Bracket} {p : Phrase}

/-! ### Skipping strings -/

/-- Blanks are skipped, all of them. -/
theorem skipBlanks_append (h : Blanks ws) : skipBlanks (ws ++ rest) = skipBlanks rest :=
  List.dropWhile_append_of_pos h

theorem skipBlanks_cons (h : isBlank c = false) : skipBlanks (c :: rest) = c :: rest :=
  List.dropWhile_cons_of_neg (by simp [h])

/-- The four digits of a code are read, and nothing behind them. -/
theorem readHex_append (h : Code code n) : readHex (code ++ rest) = .ok (n, rest) := by
  cases h with
  | digits ha hb hc hd =>
    show readHex (_ :: _ :: _ :: _ :: rest) = _
    simp only [readHex, ha, hb, hc, hd]

/-- A spelling of a text is a body of a string, whatever the text. -/
theorem Spells.toBody (h : Spells body s) : Body body := by
  induction h with
  | nil => exact .nil
  | plain hlow hquote hslash _ ih => exact .plain hlow hquote hslash ih
  | @short c _ _ _ hc _ ih =>
    refine .short ?_ ih
    revert hc
    fun_cases shortEscape? c <;> simp
  | code hcode _ _ _ ih => exact .code hcode ih
  | pair hcode _ hcode' _ _ ih => exact .code hcode (.code hcode' ih)

/-- A string is read as the text that it spells. -/
theorem readString_append (h : Spells body s) :
    readString (body ++ '"' :: rest) = .ok (s, rest) := by
  have hslash : ∀ cs, readString ('\\' :: cs)
      = readEscape cs >>= fun p => readString p.2 >>= fun q => .ok (p.1 :: q.1, q.2) := by
    intro cs
    rw [readString_cons, if_neg (by decide), if_pos rfl]
  have hcode : ∀ cs, readEscape ('u' :: cs) = readCode cs := fun cs => rfl
  induction h with
  | nil => rw [List.nil_append, readString_cons, if_pos rfl]
  | plain hlow hquote hplain _ ih =>
    rw [List.cons_append, readString_cons, if_neg hquote, if_neg hplain, if_neg (Nat.not_lt.2 hlow),
      ih]
    rfl
  | short hc _ ih =>
    rw [List.cons_append, List.cons_append, hslash, readEscape, hc]
    show readString _ >>= _ = _
    rw [ih]
    rfl
  | @code code cs s n hhex hhigh hlow _ ih =>
    rw [List.cons_append, List.cons_append, List.append_assoc, hslash, hcode, readCode,
      readHex_append hhex]
    simp only [bind, Except.bind, hhigh, hlow, Bool.false_eq_true, if_false, ih]
  | @pair high low cs s n m hhex hhigh hhex' hlow _ ih =>
    -- no number is both halves of a pair
    have hne : isLowSurrogate n = false := by
      simp only [isHighSurrogate, isLowSurrogate, Bool.and_eq_true, decide_eq_true_eq,
        Bool.and_eq_false_iff, decide_eq_false_iff_not] at hhigh ⊢
      omega
    rw [List.cons_append, List.cons_append, List.append_assoc, List.cons_append, List.cons_append,
      List.append_assoc, hslash, hcode, readCode, readHex_append hhex]
    simp only [bind, Except.bind, hhigh, hne, Bool.false_eq_true, if_false, if_true,
      readLowSurrogate, readHex_append hhex', hlow, ih]

/-- A string is skipped up to its closing quote. -/
theorem skipString_append (h : Body body) : skipString (body ++ '"' :: rest) = .ok rest := by
  have hslash : ∀ cs, skipString ('\\' :: cs) = skipEscape cs >>= skipString := by
    intro cs
    rw [skipString_cons, if_neg (by decide), if_pos rfl]
  induction h with
  | nil => rw [List.nil_append, skipString_cons, if_pos rfl]
  | plain hlow hquote hplain _ ih =>
    rw [List.cons_append, skipString_cons, if_neg hquote, if_neg hplain, if_neg (Nat.not_lt.2 hlow),
      ih]
  -- the eight letters that may stand behind a backslash, one by one
  | @short c cs hc _ ih =>
    have hescape : skipEscape (c :: (cs ++ '"' :: rest)) = .ok (cs ++ '"' :: rest) := by
      simp only [List.mem_cons, List.not_mem_nil, or_false] at hc
      rcases hc with rfl | rfl | rfl | rfl | rfl | rfl | rfl | rfl <;> rfl
    rw [List.cons_append, List.cons_append, hslash, hescape]
    exact ih
  | @code code cs n hcode _ ih =>
    have hescape : skipEscape ('u' :: (code ++ (cs ++ '"' :: rest))) = .ok (cs ++ '"' :: rest) := by
      show Prod.snd <$> readHex _ = _
      rw [readHex_append hcode]
      rfl
    rw [List.cons_append, List.cons_append, List.append_assoc, hslash, hescape]
    exact ih

/-! ### Skipping numbers -/

/-- The text does not go on with a number that ends before it. -/
def Ends (rest : List Char) : Prop :=
  ∀ c ∈ rest.head?, c.isDigit = false ∧ c ≠ '.' ∧ c ≠ 'e' ∧ c ≠ 'E'

/-- A character that belongs to no number ends one. -/
theorem ends_cons (h : c.isDigit = false ∧ c ≠ '.' ∧ c ≠ 'e' ∧ c ≠ 'E') : Ends (c :: rest) := by
  intro d hd
  cases hd
  exact h

theorem isDigit_of_isBlank (h : isBlank c = true) : c.isDigit = false := by
  simp only [isBlank, Bool.or_eq_true, beq_iff_eq] at h
  rcases h with ((rfl | rfl) | rfl) | rfl <;> decide

/-- A number ends before a blank, too. -/
theorem Ends.append (hrest : Ends rest) (h : Blanks ws) : Ends (ws ++ rest) := by
  cases ws with
  | nil => exact hrest
  | cons c ws =>
    have hc : isBlank c = true := h c List.mem_cons_self
    refine ends_cons ⟨isDigit_of_isBlank hc, ?_, ?_, ?_⟩ <;> rintro rfl <;> exact absurd hc
      (by decide)

/-- Digits are dropped up to something else. -/
theorem dropDigits_append (hds : ∀ c ∈ ds, c.isDigit = true)
    (hrest : ∀ c ∈ rest.head?, c.isDigit = false) :
    (ds ++ rest).dropWhile Char.isDigit = rest := by
  rw [List.dropWhile_append_of_pos hds]
  cases rest with
  | nil => rfl
  | cons c rest => exact List.dropWhile_cons_of_neg (by simp [hrest c rfl])

/-- A numeral starts with a digit, whatever follows it. -/
theorem head?_numeral (h : IsNumeral ds) : (ds ++ rest).head?.any Char.isDigit = true := by
  obtain ⟨hne, hds⟩ := h
  cases ds with
  | nil => exact absurd rfl hne
  | cons d ds => exact hds d List.mem_cons_self

/-- An exponent is skipped with or without a sign, up to the first character that is no digit. -/
theorem skipExponent_append {sign : List Char} (hsign : sign = [] ∨ sign = ['+'] ∨ sign = ['-'])
    (hds : IsNumeral ds) (hrest : Ends rest) : skipExponent (sign ++ ds ++ rest) = .ok rest := by
  have hend : ∀ c ∈ rest.head?, c.isDigit = false := fun c hc => (hrest c hc).1
  have hskip : (if (ds ++ rest).head?.any Char.isDigit then
      Except.ok ((ds ++ rest).dropWhile Char.isDigit) else .error Fault.malformed) = .ok rest := by
    rw [if_pos (head?_numeral hds), dropDigits_append hds.2 hend]
  rcases hsign with rfl | rfl | rfl
  · -- the first digit is no sign
    have hfirst : (ds ++ rest).head?.any Char.isDigit = true := head?_numeral hds
    rw [List.nil_append]
    unfold skipExponent
    split
    · rename_i heq
      rw [heq] at hfirst
      exact absurd hfirst (show ¬Char.isDigit '+' = true by decide)
    · rename_i heq
      rw [heq] at hfirst
      exact absurd hfirst (show ¬Char.isDigit '-' = true by decide)
    · exact hskip
  · exact hskip
  · exact hskip

/-- An exponent may be absent; behind it the number is over. -/
theorem skipRest_exponent (he : Exponent e) (hrest : Ends rest) :
    skipRest (e ++ rest) = .ok rest := by
  cases he with
  | none =>
    rw [List.nil_append]
    unfold skipRest
    split
    · exact absurd rfl (hrest '.' rfl).2.1
    · exact absurd rfl (hrest 'e' rfl).2.2.1
    · exact absurd rfl (hrest 'E' rfl).2.2.2
    · rfl
  | some hletter hsign hds =>
    rw [List.cons_append]
    rcases hletter with rfl | rfl
    · exact skipExponent_append hsign hds hrest
    · exact skipExponent_append hsign hds hrest

/-- Neither an exponent nor what follows a number starts with a digit or a point. -/
theorem head?_exponent (he : Exponent e) (hrest : Ends rest) :
    ∀ c ∈ (e ++ rest).head?, c.isDigit = false ∧ c ≠ '.' := by
  cases he with
  | none => exact fun c hc => ⟨(hrest c hc).1, (hrest c hc).2.1⟩
  | some hletter _ _ =>
    intro c hc
    cases hc
    rcases hletter with rfl | rfl <;> decide

/-- What follows the integer part is skipped to the end of the number. -/
theorem skipRest_append (hf : Fraction f) (he : Exponent e) (hrest : Ends rest) :
    skipRest (f ++ (e ++ rest)) = .ok rest := by
  cases hf with
  | none => exact skipRest_exponent he hrest
  | @some ds hds =>
    have hdrop : (ds ++ (e ++ rest)).dropWhile Char.isDigit = e ++ rest :=
      dropDigits_append hds.2 fun c hc => (head?_exponent he hrest c hc).1
    rw [List.cons_append, skipRest, if_pos (head?_numeral hds), hdrop]
    -- behind the fraction an exponent is looked for in the same way as without one
    have hskip := skipRest_exponent he hrest
    split
    · rename_i heq
      rwa [heq] at hskip
    · rename_i heq
      rwa [heq] at hskip
    · rename_i hlower hupper
      unfold skipRest at hskip
      split at hskip
      · rename_i heq
        exact absurd rfl (head?_exponent he hrest '.' (by rw [heq]; rfl)).2
      · rename_i heq
        exact absurd heq (hlower _)
      · rename_i heq
        exact absurd heq (hupper _)
      · exact hskip

/-- What follows the integer part does not start with a digit, so that the integer part ends
    there. -/
theorem head?_fraction (hf : Fraction f) (he : Exponent e) (hrest : Ends rest) :
    ∀ c ∈ (f ++ (e ++ rest)).head?, c.isDigit = false := by
  cases hf with
  | none => exact fun c hc => (head?_exponent he hrest c hc).1
  | some _ =>
    intro c hc
    cases hc
    decide

/-- A number is skipped up to where it ends. -/
theorem skipNumber_append (hw : Whole w) (hf : Fraction f) (he : Exponent e) (hrest : Ends rest) :
    skipNumber (w ++ (f ++ e) ++ rest) = .ok rest := by
  have hend := head?_fraction hf he hrest
  have hskip := skipRest_append hf he hrest
  rw [List.append_assoc, List.append_assoc]
  cases hw with
  | zero =>
    show skipNumber ('0' :: (f ++ (e ++ rest))) = _
    rw [skipNumber, if_pos rfl, if_neg, hskip]
    rw [Option.any_eq_true]
    rintro ⟨c, hc, hdigit⟩
    rw [hend c hc] at hdigit
    cases hdigit
  | digits hd hzero hds =>
    rw [List.cons_append, skipNumber, if_neg hzero, if_pos hd, dropDigits_append hds hend, hskip]

/-- A number starts with a minus sign or a digit. -/
theorem Number.head (h : Number cs) : ∃ c ds, cs = c :: ds ∧ (c = '-' ∨ c.isDigit = true) := by
  cases h with
  | unsigned hw _ _ =>
    cases hw with
    | zero => exact ⟨_, _, rfl, .inr (by decide)⟩
    | digits hd _ _ => exact ⟨_, _, rfl, .inr hd⟩
  | negative _ _ _ => exact ⟨_, _, rfl, .inl rfl⟩

/-! ### Skipping values -/

/-- No digit is one of the other characters that matter at the beginning of a value. -/
theorem isDigit_ne (h : c.isDigit = true) :
    c ≠ 'n' ∧ c ≠ 't' ∧ c ≠ 'f' ∧ c ≠ '"' ∧ c ≠ '-' ∧ c ≠ '[' ∧ c ≠ '\x7b' ∧ c ≠ ']' := by
  refine ⟨?_, ?_, ?_, ?_, ?_, ?_, ?_, ?_⟩ <;> rintro rfl <;> exact absurd h (by decide)

theorem isBlank_of_isDigit (h : c.isDigit = true) : isBlank c = false :=
  Bool.eq_false_iff.2 fun hblank => absurd (h.symm.trans (isDigit_of_isBlank hblank)) (by decide)

/-- A value begins with a character that is neither blank nor the end of a list. -/
theorem Derives.value_head (h : Derives .value v) :
    ∃ c cs, v = c :: cs ∧ isBlank c = false ∧ c ≠ ']' := by
  cases h with
  | number h =>
    obtain ⟨c, cs, rfl, rfl | hdigit⟩ := h.head
    · exact ⟨_, _, rfl, by decide, by decide⟩
    · exact ⟨_, _, rfl, isBlank_of_isDigit hdigit, (isDigit_ne hdigit).2.2.2.2.2.2.2⟩
  | _ => exact ⟨_, _, rfl, by decide, by decide⟩

/-- A padded value starts with a character other than a closing bracket: a list that starts so is
    not empty. -/
theorem Derives.padded_head (h : Derives .padded v) :
    ∃ c cs, skipBlanks (v ++ rest) = c :: cs ∧ c ≠ ']' := by
  cases h with
  | padded hbefore h _ =>
    obtain ⟨c, cs, rfl, hblank, hne⟩ := h.value_head
    rw [List.append_assoc, skipBlanks_append hbefore, List.append_assoc, List.cons_append,
      skipBlanks_cons hblank]
    exact ⟨_, _, rfl, hne⟩

/-- The items of a list do not start with its closing bracket. -/
theorem Derives.items_head (h : Derives .items v) (rest : List Char) :
    ∃ c cs, skipBlanks (v ++ rest) = c :: cs ∧ c ≠ ']' := by
  cases h with
  | lastItem h => exact h.padded_head
  | item h _ =>
    rw [List.append_assoc]
    exact h.padded_head

/-- The members of an object start with a quotation mark. -/
theorem Derives.members_head (h : Derives .members v) (rest : List Char) :
    ∃ cs, skipBlanks (v ++ rest) = '"' :: cs := by
  have hmember : ∀ {m rest : List Char}, Derives .member m →
      ∃ cs, skipBlanks (m ++ rest) = '"' :: cs := by
    intro m rest hm
    cases hm with
    | member hlead _ _ _ =>
      rw [List.append_assoc, skipBlanks_append hlead, List.cons_append, skipBlanks_cons (by decide)]
      exact ⟨_, rfl⟩
  cases h with
  | lastMember h => exact hmember h
  | moreMembers h _ =>
    rw [List.append_assoc]
    exact hmember h

theorem skipNext_append (h : Blanks ws) : skipNext opened (ws ++ rest) = skipNext opened rest := by
  rw [skipNext_eq, skipBlanks_append h, ← skipNext_eq]

/-- Blanks behind a value are skipped as long as a bracket is open. -/
theorem skipBehind_append (h : Blanks ws) :
    skipBehind (b :: opened) (ws ++ rest) = skipBehind (b :: opened) rest := by
  rw [skipBehind_cons, skipBlanks_append h, ← skipBehind_cons]

/-- A closing bracket takes the innermost open one away. -/
theorem skipBehind_closing :
    skipBehind (b :: opened) (b.closing :: rest) = skipBehind opened rest := by
  have hb : isBlank b.closing = false := by cases b <;> decide
  rw [skipBehind_cons, skipBlanks_cons hb]
  exact if_pos rfl

/-- A comma leads to the next item, or to the key of the next member. -/
theorem skipBehind_comma :
    skipBehind (b :: opened) (',' :: rest) = b.lead rest >>= skipNext (b :: opened) := by
  have hb : ',' ≠ b.closing := by cases b <;> decide
  rw [skipBehind_cons, skipBlanks_cons (by decide)]
  exact (if_neg hb).trans (if_pos rfl)

/-- A bracket that is closed at once. -/
theorem skipNext_closing (hopen : Bracket.ofOpening? c = some b) (hc : isBlank c = false)
    (h : Blanks ws) :
    skipNext opened (c :: (ws ++ b.closing :: rest)) = skipBehind opened rest := by
  have hb : isBlank b.closing = false := by cases b <;> decide
  rw [skipNext_eq, skipBlanks_cons hc]
  simp only [hopen, skipBlanks_append h, skipBlanks_cons hb, if_true]

/-- A bracket with something in it. -/
theorem skipNext_opening (hopen : Bracket.ofOpening? c = some b) (hc : isBlank c = false)
    {cs : List Char} (hd : skipBlanks rest = d :: cs) (hne : d ≠ b.closing) :
    skipNext opened (c :: rest) = b.lead rest >>= skipNext (b :: opened) := by
  rw [skipNext_eq, skipBlanks_cons hc]
  simp only [hopen, hd, if_neg hne]

/-- A value that is neither a list nor an object. -/
theorem skipNext_scalar (hopen : Bracket.ofOpening? c = none) (hc : isBlank c = false)
    (h : skipScalar c cs = .ok rest) : skipNext opened (c :: cs) = skipBehind opened rest := by
  rw [skipNext_eq, skipBlanks_cons hc]
  simp only [hopen, h]
  rfl

/-- A word that is there is found. -/
theorem expect_append (word : List Char) : expect word (word ++ rest) = .ok rest := by
  induction word with
  | nil => rfl
  | cons c word ih => rw [List.cons_append, expect, if_pos rfl, ih]

theorem skipScalar_digit (h : c.isDigit = true) : skipScalar c cs = skipNumber (c :: cs) := by
  obtain ⟨hn, ht, hf, hquote, hminus, -⟩ := isDigit_ne h
  rw [skipScalar, if_neg hn, if_neg ht, if_neg hf, if_neg hquote, if_neg hminus, if_pos h]

theorem ofOpening?_digit (h : c.isDigit = true) : Bracket.ofOpening? c = none := by
  obtain ⟨-, -, -, -, -, hlist, hobject, -⟩ := isDigit_ne h
  rw [Bracket.ofOpening?, if_neg hlist, if_neg hobject]

/-- **Numbers.** The whole of a number is skipped, if what follows ends it. -/
theorem skipNext_number (h : Number v) (hrest : Ends rest) :
    skipNext opened (v ++ rest) = skipBehind opened rest := by
  have hscalar : ∀ {w f e : List Char}, Whole w → Fraction f → Exponent e →
      ∃ c cs, w ++ (f ++ e) ++ rest = c :: cs ∧ c.isDigit = true ∧
        skipNumber (c :: cs) = .ok rest := by
    intro w f e hw hf he
    have hskip := skipNumber_append hw hf he hrest
    cases hw with
    | zero => exact ⟨_, _, rfl, by decide, hskip⟩
    | digits hd _ _ => exact ⟨_, _, rfl, hd, hskip⟩
  cases h with
  | unsigned hw hf he =>
    obtain ⟨c, cs, heq, hdigit, hskip⟩ := hscalar hw hf he
    rw [heq]
    exact skipNext_scalar (ofOpening?_digit hdigit) (isBlank_of_isDigit hdigit)
      ((skipScalar_digit hdigit).trans hskip)
  | negative hw hf he =>
    exact skipNext_scalar (by decide) (by decide) (skipNumber_append hw hf he hrest)

/-- The key of a member and its colon are skipped. -/
theorem skipKey_append {lead key gap : List Char} (hlead : Blanks lead) (hkey : Body key)
    (hgap : Blanks gap) :
    skipKey (lead ++ '"' :: (key ++ '"' :: (gap ++ ':' :: rest))) = .ok rest := by
  have hcolon : skipColon (gap ++ ':' :: rest) = .ok rest := by
    rw [skipColon, skipBlanks_append hgap, skipBlanks_cons (by decide)]
    exact if_pos rfl
  rw [skipKey, skipBlanks_append hlead, skipBlanks_cons (by decide)]
  show skipString _ >>= skipColon = _
  rw [skipString_append hkey]
  exact hcolon

/-- What it is for a phrase to be skipped, in any brackets and before any text that does not go on
    with a number.  A list or an object ends with its bracket, and a value with blanks around it
    only where a bracket is open, because at the end of a text nobody looks for blanks. -/
def Skips : Phrase → List Char → Prop
  | .value, v => ∀ opened rest, Ends rest → skipNext opened (v ++ rest) = skipBehind opened rest
  | .padded, v => ∀ b opened rest, Ends rest →
      skipNext (b :: opened) (v ++ rest) = skipBehind (b :: opened) rest
  | .items, v => ∀ opened rest, skipNext (.list :: opened) (v ++ ']' :: rest)
      = skipBehind opened rest
  | .member, v => ∀ opened rest, Ends rest →
      (skipKey (v ++ rest) >>= skipNext (.object :: opened)) = skipBehind (.object :: opened) rest
  | .members, v => ∀ opened rest,
      (skipKey (v ++ '\x7d' :: rest) >>= skipNext (.object :: opened)) = skipBehind opened rest

/-- **Skipping.** Whatever the grammar derives is skipped. -/
theorem Derives.skips (h : Derives p v) : Skips p v := by
  have hcomma : ∀ {rest}, Ends (',' :: rest) := ends_cons (by decide)
  induction h with
  | null =>
    intro opened rest _
    exact skipNext_scalar (by decide) (by decide) (expect_append _)
  | yes =>
    intro opened rest _
    exact skipNext_scalar (by decide) (by decide) (expect_append _)
  | no =>
    intro opened rest _
    exact skipNext_scalar (by decide) (by decide) (expect_append _)
  | string h =>
    intro opened rest _
    rw [List.cons_append, List.append_assoc]
    exact skipNext_scalar (by decide) (by decide) (skipString_append h)
  | number h =>
    intro opened rest hrest
    exact skipNext_number h hrest
  | emptyList h =>
    intro opened rest _
    rw [List.cons_append, List.append_assoc]
    exact skipNext_closing (b := .list) rfl (by decide) h
  -- an opening bracket is taken for that of an empty list only if its closing one is next
  | list h ih =>
    intro opened rest _
    obtain ⟨c, cs, hc, hne⟩ := h.items_head (']' :: rest)
    rw [List.cons_append, List.append_assoc]
    exact (skipNext_opening (b := .list) rfl (by decide) hc hne).trans (ih opened rest)
  | emptyObject h =>
    intro opened rest _
    rw [List.cons_append, List.append_assoc]
    exact skipNext_closing (b := .object) rfl (by decide) h
  | object h ih =>
    intro opened rest _
    obtain ⟨cs, hc⟩ := h.members_head ('\x7d' :: rest)
    rw [List.cons_append, List.append_assoc]
    exact (skipNext_opening (b := .object) rfl (by decide) hc (by decide)).trans (ih opened rest)
  -- the phrases below are read inside a bracket, so that what comes behind them depends on it
  | padded hbefore _ hafter ih =>
    intro b opened rest hrest
    rw [List.append_assoc, List.append_assoc, skipNext_append hbefore,
      ih (b :: opened) _ (hrest.append hafter), skipBehind_append hafter]
  | lastItem _ ih =>
    intro opened rest
    rw [ih .list opened _ (ends_cons (by decide))]
    exact skipBehind_closing
  | item _ _ ih ihrest =>
    intro opened rest
    rw [List.append_assoc, List.cons_append, ih .list opened _ hcomma, skipBehind_comma]
    exact ihrest opened rest
  | member hlead hkey hgap _ ih =>
    intro opened rest hrest
    simp only [List.append_assoc, List.cons_append]
    rw [skipKey_append hlead hkey hgap]
    exact ih .object opened rest hrest
  | lastMember _ ih =>
    intro opened rest
    rw [ih opened _ (ends_cons (by decide))]
    exact skipBehind_closing
  | moreMembers _ _ ih ihrest =>
    intro opened rest
    rw [List.append_assoc, List.cons_append, ih opened _ hcomma, skipBehind_comma]
    exact ihrest opened rest

/-- A value with blanks around it is skipped, up to the blanks behind it. -/
theorem skipValue_append (h : Derives .padded v) (hrest : Ends rest) :
    ∃ after, Blanks after ∧ skipValue (v ++ rest) = .ok (after ++ rest) := by
  cases h with
  | @padded before v after hbefore h hafter =>
    refine ⟨after, hafter, ?_⟩
    rw [List.append_assoc, List.append_assoc, skipValue, skipNext_append hbefore,
      h.skips [] _ (hrest.append hafter), skipBehind_nil]

/-! ### Writing -/

/-- The digit written for a value below sixteen is read as that value. -/
theorem hexValue?_hexDigit : ∀ i < 16, Text.hexValue? (hexDigit i) = some i := by decide +kernel

/-- The code of a control character. -/
theorem code_hexDigit {n : Nat} (hn : n < 0x20) :
    Code ['0', '0', hexDigit (n / 16), hexDigit (n % 16)] n := by
  have hhigh := hexValue?_hexDigit (n / 16) (by omega)
  have hlow := hexValue?_hexDigit (n % 16) (by omega)
  have hzero : Text.hexValue? '0' = some 0 := rfl
  have hcode := Code.digits hzero hzero hhigh hlow
  have hparts : ((0 * 16 + 0) * 16 + n / 16) * 16 + n % 16 = n := by omega
  rwa [hparts] at hcode

/-- A character is written so that it spells itself. -/
theorem spells_escape_append (c : Char) (h : Spells cs s) : Spells (escape c ++ cs) (c :: s) := by
  have hshort : ∀ {d : Char}, shortEscape? d = some c → Spells (['\\', d] ++ cs) (c :: s) :=
    fun hd => .short hd h
  fun_cases escape c with
  | case1 hc => exact hshort (congrArg some hc.symm)
  | case2 _ hc => exact hshort (congrArg some hc.symm)
  | case3 _ _ hc => exact hshort (congrArg some hc.symm)
  | case4 _ _ _ hc => exact hshort (congrArg some hc.symm)
  | case5 _ _ _ _ hc => exact hshort (congrArg some hc.symm)
  | case6 _ _ _ _ _ hc =>
    refine hshort (congrArg some ?_)
    rw [← Char.ofNat_toNat c, hc]
  | case7 _ _ _ _ _ _ hc =>
    refine hshort (congrArg some ?_)
    rw [← Char.ofNat_toNat c, hc]
  | case8 _ _ _ _ _ _ _ hc =>
    -- a control character is no half of a pair
    have hhigh : isHighSurrogate c.toNat = false := by
      simp only [isHighSurrogate, Bool.and_eq_false_iff, decide_eq_false_iff_not]
      omega
    have hlow : isLowSurrogate c.toNat = false := by
      simp only [isLowSurrogate, Bool.and_eq_false_iff, decide_eq_false_iff_not]
      omega
    have hspells := Spells.code (code_hexDigit hc) hhigh hlow h
    rw [Char.ofNat_toNat] at hspells
    exact hspells
  | case9 hquote hslash _ _ _ _ _ hlow => exact .plain (Nat.not_lt.1 hlow) hquote hslash h

/-- Escaping every character spells the text, by induction on the text. -/
theorem spells_escape (s : List Char) : Spells (s.flatMap escape) s := by
  induction s with
  | nil => exact .nil
  | cons c s ih => exact spells_escape_append c ih

/-- A quoted text, as the characters that are written. -/
theorem toList_quote (t : String) :
    (quote t).toList = '"' :: (t.toList.flatMap escape ++ ['"']) := by
  have hbody : (String.ofList (t.toList.flatMap escape)).toList = t.toList.flatMap escape :=
    String.toList_ofList
  rw [quote, String.toList_append, String.toList_append, hbody]
  rfl

/-- Only the digits of 0 begin with a zero. -/
theorem whole_toDigits (n : Nat) : Whole (Nat.toDigits 10 n) := by
  suffices h : 0 < n → ∃ d ds, Nat.toDigits 10 n = d :: ds ∧ d ≠ '0' by
    have hdigits := (Text.isNumeral_toDigits n).2
    rcases Nat.eq_zero_or_pos n with rfl | hpos
    · exact .zero
    · obtain ⟨d, ds, heq, hzero⟩ := h hpos
      rw [heq] at hdigits ⊢
      exact .digits (hdigits d List.mem_cons_self) hzero
        fun c hc => hdigits c (List.mem_cons_of_mem d hc)
  -- the first digit is that of the number without its last one
  induction n using Nat.strongRecOn with
  | ind n ih =>
    intro hpos
    by_cases hn : n < 10
    · have hone : ∀ n < 10, 0 < n → n.digitChar ≠ '0' := by decide
      exact ⟨_, [], Nat.toDigits_of_lt_base hn, hone n hn hpos⟩
    · obtain ⟨d, ds, heq, hzero⟩ := ih (n / 10) (by omega) (by omega)
      rw [Nat.toDigits_of_base_le (by decide) (Nat.not_lt.1 hn), heq]
      exact ⟨d, _, rfl, hzero⟩

theorem number_toDigits (n : Nat) : Number (Nat.toDigits 10 n) := by
  have h := Number.unsigned (whole_toDigits n) .none .none
  rwa [List.append_nil, List.append_nil] at h

/-- A value needs no blanks around it. -/
theorem Derives.pad (h : Derives .value v) : Derives .padded v := by
  have hnil : Blanks [] := List.forall_mem_nil _
  have hpadded := Derives.padded hnil h hnil
  rwa [List.append_nil] at hpadded

/-- A member of an object as it is written. -/
theorem derives_member (key : String) (h : Derives .value v) :
    Derives .member ((quote key).toList ++ ':' :: v) := by
  have hnil : Blanks [] := List.forall_mem_nil _
  have hmember := Derives.member hnil (spells_escape key.toList).toBody hnil h.pad
  rw [toList_quote, List.cons_append, List.append_assoc]
  exact hmember

theorem toList_append_comma (s t : String) :
    (s ++ "," ++ t).toList = s.toList ++ ',' :: t.toList := by
  rw [String.toList_append, String.toList_append, List.append_assoc]
  rfl

theorem toList_append_colon (s t : String) :
    (s ++ ":" ++ t).toList = s.toList ++ ':' :: t.toList := by
  rw [String.toList_append, String.toList_append, List.append_assoc]
  rfl

/-- A list is written between brackets, its items with commas between them. -/
theorem toList_render_list (vs : List Value) : (Value.list vs).render.toList
    = '[' :: ((",".intercalate (renderItems vs)).toList ++ [']']) := by
  rw [Value.render, String.toList_append, String.toList_append]
  rfl

/-- A record is written between braces, its members with commas between them. -/
theorem toList_render_record (fields : List (String × Value)) : (Value.record fields).render.toList
    = '\x7b' :: ((",".intercalate (renderFields fields)).toList ++ ['\x7d']) := by
  rw [Value.render, String.toList_append, String.toList_append]
  rfl

mutual

/-- **What is written is well-formed.** -/
theorem Value.derives_render : ∀ v : Value, Derives .value v.render.toList
  | .null => by
    rw [Value.render]
    exact .null
  | .flag true => by
    rw [Value.render]
    exact .yes
  | .flag false => by
    rw [Value.render]
    exact .no
  | .number n => by
    rw [Value.render, Text.toList_toString]
    exact .number (number_toDigits n)
  | .text t => by
    rw [Value.render, toList_quote]
    exact .string (spells_escape t.toList).toBody
  -- an empty list has a rule of its own: the items of the grammar are at least one
  | .list [] => by
    have hempty : Blanks [] := List.forall_mem_nil _
    rw [toList_render_list]
    exact .emptyList hempty
  | .list (v :: vs) => by
    rw [toList_render_list]
    exact .list (derives_renderItems (v :: vs) (List.cons_ne_nil v vs))
  | .record [] => by
    have hempty : Blanks [] := List.forall_mem_nil _
    rw [toList_render_record]
    exact .emptyObject hempty
  | .record (field :: fields) => by
    rw [toList_render_record]
    exact .object (derives_renderFields (field :: fields) (List.cons_ne_nil field fields))

/-- Items that are written follow the grammar; the recursion is that of the writer. -/
theorem derives_renderItems : ∀ vs : List Value, vs ≠ [] →
    Derives .items (",".intercalate (renderItems vs)).toList
  | [], h => absurd rfl h
  | [v], _ => by
    rw [renderItems, renderItems, String.intercalate_singleton]
    exact .lastItem v.derives_render.pad
  | v :: w :: vs, _ => by
    have hrest := derives_renderItems (w :: vs) (List.cons_ne_nil w vs)
    rw [renderItems, renderItems, String.intercalate_cons_cons, ← renderItems, toList_append_comma]
    exact .item v.derives_render.pad hrest

/-- Members that are written follow the grammar; the recursion is that of the writer. -/
theorem derives_renderFields : ∀ fields : List (String × Value), fields ≠ [] →
    Derives .members (",".intercalate (renderFields fields)).toList
  | [], h => absurd rfl h
  | [(key, v)], _ => by
    rw [renderFields, renderFields, String.intercalate_singleton, toList_append_colon]
    exact .lastMember (derives_member key v.derives_render)
  | (key, v) :: field :: fields, _ => by
    have hrest := derives_renderFields (field :: fields) (List.cons_ne_nil field fields)
    rw [renderFields, renderFields, String.intercalate_cons_cons, ← renderFields,
      toList_append_comma, toList_append_colon]
    exact .moreMembers (derives_member key v.derives_render) hrest

end

end Tenancy.Json
