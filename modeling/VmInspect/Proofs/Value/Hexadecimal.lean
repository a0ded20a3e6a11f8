import Mathlib.Data.Int.ModEq
import Mathlib.Data.List.Basic
import Mathlib.Data.Nat.Digits.Defs
import VmInspect.Value.Integer

/-!
# Hexadecimal numerals

A hexadecimal numeral may have any number of digits, while the integer it is read as has 64 bits.  The
reader keeps a word of 64 bits, which wraps around at every digit, reads it as an integer with a sign, and
negates that, which may wrap around once more.  None of this matters modulo `2 ^ 64`:

* `Value.hexValue`, `Value.hexSum` — what a digit, and a row of digits, stands for.
* `Value.hexDigit?_eq` — the reader takes the digits of both cases, and nothing else.
* `Value.hexWord?_ofNat`, `Value.hexNumber?_eq` — the word is the number that the digits spell, wrapped.
* `Value.readHexInteger?_eq` — so is the integer, with its sign.
* `Value.hexSum_toDigits` — the spelling of a number spells it.
* `Value.toInteger?_hexadecimal` — what texts with the mark of a hexadecimal numeral convert to.
-/

namespace VmInspect

namespace Text

/-! ## Blanks around a text -/

theorem dropWhile_blanks {left body : List Char} (hleft : ∀ c ∈ left, isBlank c = true)
    (hbody : ∀ c ∈ body.head?, isBlank c = false) : (left ++ body).dropWhile isBlank = body := by
  induction left with
  | nil =>
    cases body with
    | nil => rfl
    | cons c body =>
      have hc : ¬ isBlank c = true := by
        rw [hbody c rfl]
        exact Bool.false_ne_true
      exact List.dropWhile_cons_of_neg hc
  | cons c left ih =>
    rw [List.cons_append, List.dropWhile_cons_of_pos (hleft c List.mem_cons_self)]
    exact ih fun d hd => hleft d (List.mem_cons_of_mem c hd)

/-- Blanks at the two ends are taken off, up to what is no blank. -/
theorem trim_surrounded {left body right : List Char} (hleft : ∀ c ∈ left, isBlank c = true)
    (hright : ∀ c ∈ right, isBlank c = true) (hne : body ≠ [])
    (hfirst : ∀ c ∈ body.head?, isBlank c = false)
    (hlast : ∀ c ∈ body.getLast?, isBlank c = false) : trim (left ++ body ++ right) = body := by
  have hhead : ∀ c ∈ (body ++ right).head?, isBlank c = false := by
    cases body with
    | nil => exact absurd rfl hne
    | cons c body => exact hfirst
  have htail : ∀ c ∈ body.reverse.head?, isBlank c = false := by
    rw [List.head?_reverse]
    exact hlast
  unfold trim
  rw [List.append_assoc, dropWhile_blanks hleft hhead, List.reverse_append,
    dropWhile_blanks (fun c hc => hright c (List.mem_reverse.1 hc)) htail, List.reverse_reverse]

end Text

namespace Value

/-! ## Digits -/

/-- The digits in ascending order. -/
def hexDigits : List Char := "0123456789abcdef".toList

/-- Whether a character is a digit, in either case. -/
def isHexDigit (c : Char) : Bool := (hexDigits ++ "ABCDEF".toList).contains c

/-- What a digit stands for: its place among the digits. -/
def hexValue (c : Char) : Nat := hexDigits.idxOf c.toLower

/-- What a row of digits stands for: the last one for units, each other for sixteen times as much as it would
stand for one place further on. -/
def hexSum (cs : List Char) : Nat := Nat.ofDigits 16 (cs.reverse.map hexValue)

/-- A hexadecimal digit has what can be checked of all of them. -/
theorem check_isHexDigit {p : Char → Bool} (hall : (hexDigits ++ "ABCDEF".toList).all p = true)
    {c : Char} (h : isHexDigit c = true) : p c = true :=
  List.all_eq_true.1 hall c (List.contains_iff_mem.1 h)

theorem hexDigit?_of_isHexDigit {c : Char} (h : isHexDigit c = true) :
    hexDigit? c = some (hexValue c) :=
  beq_iff_eq.1 (check_isHexDigit (p := fun c => hexDigit? c == some (hexValue c)) (by decide) h)

/-- The three ranges of codes hold no other characters. -/
theorem isHexDigit_of_hexDigit? {c : Char} {d : Nat} (h : hexDigit? c = some d) :
    isHexDigit c = true := by
  have hranges : 48 ≤ c.toNat ∧ c.toNat ≤ 57 ∨ 97 ≤ c.toNat ∧ c.toNat ≤ 102 ∨
      65 ≤ c.toNat ∧ c.toNat ≤ 70 := by
    unfold hexDigit? at h
    split at h
    · rename_i hdigit
      exact Or.inl (by simpa [Char.isDigit, UInt32.le_iff_toNat_le] using hdigit)
    · split at h
      · rename_i hlower
        exact Or.inr (Or.inl hlower)
      · split at h
        · rename_i hupper
          exact Or.inr (Or.inr hupper)
        · cases h
  have hall : ∀ n < 103, 48 ≤ n ∧ n ≤ 57 ∨ 97 ≤ n ∧ n ≤ 102 ∨ 65 ≤ n ∧ n ≤ 70 →
      isHexDigit (Char.ofNat n) = true := by decide
  have hcode := hall c.toNat (by omega) hranges
  rw [Char.ofNat_toNat] at hcode
  exact hcode

theorem hexDigit?_eq (c : Char) :
    hexDigit? c = if isHexDigit c then some (hexValue c) else none := by
  by_cases h : isHexDigit c = true
  · rw [if_pos h, hexDigit?_of_isHexDigit h]
  · rw [if_neg h, Option.eq_none_iff_forall_ne_some]
    intro d hd
    exact h (isHexDigit_of_hexDigit? hd)

/-! ## Rows of digits -/

@[simp] theorem hexSum_nil : hexSum [] = 0 := rfl

theorem hexSum_cons (c : Char) (cs : List Char) :
    hexSum (c :: cs) = hexValue c * 16 ^ cs.length + hexSum cs := by
  unfold hexSum
  rw [List.reverse_cons, List.map_append, Nat.ofDigits_append, List.length_map, List.length_reverse,
    List.map_singleton, Nat.ofDigits_singleton]
  ring

/-- The last digit stands for units. -/
theorem hexSum_append_singleton (cs : List Char) (c : Char) :
    hexSum (cs ++ [c]) = 16 * hexSum cs + hexValue c := by
  unfold hexSum
  rw [List.reverse_append, List.reverse_singleton, List.singleton_append, List.map_cons,
    Nat.ofDigits_cons, Nat.add_comm]

/-- Zeros in front stand for nothing. -/
theorem hexSum_zeros (zeros : Nat) (cs : List Char) :
    hexSum (List.replicate zeros '0' ++ cs) = hexSum cs := by
  induction zeros with
  | zero => rfl
  | succ zeros ih =>
    have hzero : hexValue '0' = 0 := by decide
    rw [List.replicate_succ, List.cons_append, hexSum_cons, hzero, Nat.zero_mul, Nat.zero_add, ih]

/-- Digits may be written in upper case. -/
theorem hexSum_toUpper {cs : List Char} (h : cs.all isHexDigit = true) :
    hexSum (cs.map Char.toUpper) = hexSum cs := by
  unfold hexSum
  rw [← List.map_reverse, List.map_map]
  refine congrArg (Nat.ofDigits 16) (List.map_congr_left fun c hc => beq_iff_eq.1 ?_)
  exact check_isHexDigit (p := fun c => hexValue c.toUpper == hexValue c) (by decide)
    (List.all_eq_true.1 h c (List.mem_reverse.1 hc))

theorem all_isHexDigit_toUpper {cs : List Char} (h : cs.all isHexDigit = true) :
    (cs.map Char.toUpper).all isHexDigit = true := by
  rw [List.all_map, List.all_eq_true]
  intro c hc
  exact check_isHexDigit (p := fun c => isHexDigit c.toUpper) (by decide) (List.all_eq_true.1 h c hc)

/-- What is read, if all characters are digits, is what they stand for behind what was already read. -/
theorem hexNumber?_eq (n : Nat) (cs : List Char) :
    hexNumber? n cs =
      if cs.all isHexDigit then some (n * 16 ^ cs.length + hexSum cs) else none := by
  induction cs generalizing n with
  | nil => simp [hexNumber?]
  | cons c cs ih =>
    have hread : hexNumber? n (c :: cs) =
        (hexDigit? c).bind fun d => hexNumber? (16 * n + d) cs := rfl
    rw [hread, hexDigit?_eq, List.all_cons]
    cases hc : isHexDigit c with
    | false => rfl
    | true =>
      rw [if_pos rfl, Option.bind_some, ih, Bool.true_and, hexSum_cons, List.length_cons]
      have hsum : (16 * n + hexValue c) * 16 ^ cs.length + hexSum cs =
          n * 16 ^ (cs.length + 1) + (hexValue c * 16 ^ cs.length + hexSum cs) := by ring
      rw [hsum]

/-- A word that wraps around at every digit is the number, wrapped around once. -/
theorem hexWord?_ofNat (n : Nat) (cs : List Char) :
    hexWord? (UInt64.ofNat n) cs = (hexNumber? n cs).map UInt64.ofNat := by
  induction cs generalizing n with
  | nil => rfl
  | cons c cs ih =>
    have hword : hexWord? (UInt64.ofNat n) (c :: cs) =
        (hexDigit? c).bind fun d => hexWord? (UInt64.ofNat n * 16 + UInt64.ofNat d) cs := rfl
    have hread : hexNumber? n (c :: cs) =
        (hexDigit? c).bind fun d => hexNumber? (16 * n + d) cs := rfl
    rw [hword, hread]
    cases hexDigit? c with
    | none => rfl
    | some d =>
      have hstep : UInt64.ofNat n * 16 + UInt64.ofNat d = UInt64.ofNat (16 * n + d) := by
        rw [UInt64.ofNat_add, UInt64.ofNat_mul, UInt64.mul_comm]
        rfl
      rw [Option.bind_some, Option.bind_some, hstep]
      exact ih (16 * n + d)

/-! ## Spelled numbers -/

theorem all_isHexDigit_toDigits (n : Nat) : (Nat.toDigits 16 n).all isHexDigit = true := by
  have hall : ∀ d < 16, isHexDigit d.digitChar = true := by decide
  induction n using Nat.strongRecOn with
  | ind n ih =>
    by_cases hlt : n < 16
    · rw [Nat.toDigits_of_lt_base hlt, List.all_cons, hall n hlt]
      rfl
    · rw [Nat.toDigits_of_base_le (by decide) (by omega), List.all_append, ih (n / 16) (by omega),
        List.all_cons, hall (n % 16) (by omega)]
      rfl

/-- The spelling of a number stands for it. -/
theorem hexSum_toDigits (n : Nat) : hexSum (Nat.toDigits 16 n) = n := by
  have hall : ∀ d < 16, hexValue d.digitChar = d := by decide
  induction n using Nat.strongRecOn with
  | ind n ih =>
    by_cases hlt : n < 16
    · rw [Nat.toDigits_of_lt_base hlt, hexSum_cons, hall n hlt, hexSum_nil]
      simp
    · rw [Nat.toDigits_of_base_le (by decide) (by omega), hexSum_append_singleton,
        ih (n / 16) (by omega), hall (n % 16) (by omega)]
      omega

/-! ## Numerals -/

/-- What may stand in front of the mark of a hexadecimal numeral. -/
def signs : List (List Char) := [[], ['+'], ['-']]

/-- A sign, a mark, and what stands behind it. -/
def hexNumeral (sign : List Char) (x : Char) (digits : List Char) : List Char :=
  sign ++ '0' :: x :: digits

/-- A number with a sign in front. -/
def withSign (sign : List Char) (n : Nat) : Int := if sign = ['-'] then -(n : Int) else n

variable {sign digits : List Char} {x : Char}

theorem signed_hexNumeral (hsign : sign ∈ signs) :
    Decimal.signed (hexNumeral sign x digits) = (decide (sign = ['-']), '0' :: x :: digits) := by
  simp only [signs, List.mem_cons, List.not_mem_nil, or_false] at hsign
  rcases hsign with rfl | rfl | rfl
  · rfl
  · rfl
  · rfl

/-- The integer is the number with its sign, wrapped around. -/
theorem readHexInteger?_eq (hsign : sign ∈ signs) (hx : x = 'x' ∨ x = 'X') :
    readHexInteger? (hexNumeral sign x digits) =
      if digits ≠ [] ∧ digits.all isHexDigit = true then
        some (Int64.ofInt (withSign sign (hexSum digits)))
      else none := by
  have hword : hexWord? 0 digits = (hexNumber? 0 digits).map UInt64.ofNat := hexWord?_ofNat 0 digits
  have hread : readHexInteger? (hexNumeral sign x digits) =
      if digits ≠ [] then
        (hexWord? 0 digits).map fun n => if sign = ['-'] then -n.toInt64 else n.toInt64
      else none := by
    unfold readHexInteger?
    rw [signed_hexNumeral hsign]
    simp only [hx, true_and, decide_eq_true_eq]
  have hwrap : ∀ n : Nat, (if sign = ['-'] then -(UInt64.ofNat n).toInt64 else (UInt64.ofNat n).toInt64) =
      Int64.ofInt (withSign sign n) := by
    intro n
    rw [UInt64.toInt64_ofNat', withSign]
    split
    · rw [Int64.ofInt_neg]
      rfl
    · rfl
  rw [hread, hword, hexNumber?_eq, Nat.zero_mul, Nat.zero_add]
  by_cases hne : digits = []
  · rw [if_neg fun h => h hne, if_neg fun h => h.1 hne]
  · cases hall : digits.all isHexDigit with
    | false =>
      rw [if_pos hne, if_neg Bool.false_ne_true, if_neg fun h => Bool.false_ne_true h.2]
      rfl
    | true =>
      rw [if_pos hne, if_pos rfl, if_pos ⟨hne, rfl⟩, Option.map_some, Option.map_some]
      exact congrArg some (hwrap (hexSum digits))

/-- A text with the mark of a hexadecimal numeral is no decimal integer. -/
theorem readDecimalInteger?_hexNumeral (hsign : sign ∈ signs) (hx : x = 'x' ∨ x = 'X') :
    readDecimalInteger? (hexNumeral sign x digits) = none := by
  have hmark : x.isDigit = false := by
    rcases hx with rfl | rfl
    · decide
    · decide
  unfold readDecimalInteger?
  rw [signed_hexNumeral hsign]
  simp [hmark]

/-- Nor is it a decimal numeral with a point or an exponent, nor a word for infinity or NaN. -/
theorem read?_hexNumeral (hsign : sign ∈ signs) (hx : x = 'x' ∨ x = 'X') :
    Double.read? (hexNumeral sign x digits) = none := by
  have hbody : Decimal.read? ('0' :: x :: digits) = none := by
    rcases hx with rfl | rfl
    · simp [Decimal.read?, Decimal.readExponent?]
    · simp [Decimal.read?, Decimal.readExponent?]
  have hword : ∀ (c : Char) (cs : List Char), c ≠ '0' →
      String.ofList (('0' :: x :: digits).map Char.toLower) ≠ String.ofList (c :: cs) := by
    intro c cs hc heq
    have hlists := String.ofList_injective heq
    rw [List.map_cons, List.cons.injEq] at hlists
    exact hc hlists.1.symm
  unfold Double.read?
  rw [signed_hexNumeral hsign]
  simp only
  rw [if_neg, if_neg, hbody]
  · rfl
  · exact hword 'n' "an".toList (by decide)
  · rintro (hinf | hinf)
    · exact hword 'i' "nf".toList (by decide) hinf
    · exact hword 'i' "nfinity".toList (by decide) hinf

theorem head?_hexNumeral (hsign : sign ∈ signs) :
    ∀ c ∈ (hexNumeral sign x digits).head?, Text.isBlank c = false := by
  intro c hc
  simp only [signs, List.mem_cons, List.not_mem_nil, or_false] at hsign
  rcases hsign with rfl | rfl | rfl
  · obtain rfl : '0' = c := Option.some.inj hc
    decide
  · obtain rfl : '+' = c := Option.some.inj hc
    decide
  · obtain rfl : '-' = c := Option.some.inj hc
    decide

theorem getLast?_hexNumeral (hx : x = 'x' ∨ x = 'X')
    (hlast : ∀ c ∈ digits.getLast?, Text.isBlank c = false) :
    ∀ c ∈ (hexNumeral sign x digits).getLast?, Text.isBlank c = false := by
  intro c hc
  have hmem : c ∈ (x :: digits).getLast? := by
    rw [hexNumeral, List.getLast?_append_cons, List.getLast?_cons_cons] at hc
    exact hc
  cases digits with
  | nil =>
    obtain rfl := Option.some.inj hmem
    rcases hx with rfl | rfl
    · decide
    · decide
  | cons d digits =>
    rw [List.getLast?_cons_cons] at hmem
    exact hlast c hmem

/-- Such a text, with blanks around it, converts as a hexadecimal numeral or not at all. -/
theorem toInteger?_hexNumeral {left right : List Char} (hleft : ∀ c ∈ left, Text.isBlank c = true)
    (hright : ∀ c ∈ right, Text.isBlank c = true) (hsign : sign ∈ signs) (hx : x = 'x' ∨ x = 'X')
    (hlast : ∀ c ∈ digits.getLast?, Text.isBlank c = false) :
    toInteger? (.string (String.ofList (left ++ hexNumeral sign x digits ++ right))) =
      readHexInteger? (hexNumeral sign x digits) := by
  have hne : hexNumeral sign x digits ≠ [] := by
    rw [hexNumeral]
    simp
  have htrim := Text.trim_surrounded hleft hright hne (head?_hexNumeral hsign)
    (getLast?_hexNumeral hx hlast)
  unfold toInteger? integerOfText?
  simp only
  rw [String.toList_ofList, htrim, readDecimalInteger?_hexNumeral hsign hx, read?_hexNumeral hsign hx]
  cases readHexInteger? (hexNumeral sign x digits) with
  | none => rfl
  | some n => rfl

/-- Digits are no blanks. -/
theorem getLast?_of_all_isHexDigit (h : digits.all isHexDigit = true) :
    ∀ c ∈ digits.getLast?, Text.isBlank c = false := by
  intro c hc
  rw [← Bool.not_eq_true']
  exact check_isHexDigit (p := fun c => !Text.isBlank c) (by decide)
    (List.all_eq_true.1 h c (List.mem_of_getLast? hc))

/-- **Hexadecimal numerals wrap around.**  A text is a hexadecimal mark with digits behind it, perhaps with a
sign in front of it and blanks around all that.  It converts to the integer that is the number with its sign
modulo `2 ^ 64`, however many digits there are.  So every integer comes back from the digits of its word, in
either case and behind any number of zeros.  Without digits, or with anything else among them, the text is
not taken for a hexadecimal numeral, nor for any other one. -/
theorem toInteger?_hexadecimal {left right : List Char} (hleft : ∀ c ∈ left, Text.isBlank c = true)
    (hright : ∀ c ∈ right, Text.isBlank c = true) (hsign : sign ∈ signs) (hx : x = 'x' ∨ x = 'X') :
    let text (digits : List Char) : Value :=
      .string (String.ofList (left ++ hexNumeral sign x digits ++ right))
    (∀ digits, digits ≠ [] → digits.all isHexDigit = true → ∃ n : Int64,
      toInteger? (text digits) = some n ∧ n.toInt ≡ withSign sign (hexSum digits) [ZMOD 2 ^ 64]) ∧
    (∀ (n : Int64) (zeros : Nat), sign ≠ ['-'] →
      let digits := List.replicate zeros '0' ++ Nat.toDigits 16 n.toUInt64.toNat
      toInteger? (text digits) = some n ∧ toInteger? (text (digits.map Char.toUpper)) = some n) ∧
    ∀ digits, digits = [] ∨ digits.all isHexDigit = false →
      readHexInteger? (hexNumeral sign x digits) = none ∧
        ((∀ c ∈ digits.getLast?, Text.isBlank c = false) → toInteger? (text digits) = none) := by
  intro text
  have hconverts : ∀ digits, digits ≠ [] → digits.all isHexDigit = true →
      toInteger? (text digits) = some (Int64.ofInt (withSign sign (hexSum digits))) := by
    intro digits hne hall
    rw [toInteger?_hexNumeral hleft hright hsign hx (getLast?_of_all_isHexDigit hall),
      readHexInteger?_eq hsign hx, if_pos ⟨hne, hall⟩]
  refine ⟨fun digits hne hall => ?wraps, fun n zeros hplus => ?spelled, fun digits hbad => ?refused⟩
  case wraps =>
    refine ⟨_, hconverts digits hne hall, ?_⟩
    rw [Int64.toInt_ofInt]
    exact Int.bmod_emod
  case spelled =>
    intro digits
    have hne : digits ≠ [] := List.append_ne_nil_of_right_ne_nil _ Nat.toDigits_ne_nil
    have hall : digits.all isHexDigit = true := by
      have hzeros : (List.replicate zeros '0').all isHexDigit = true :=
        List.all_eq_true.2 fun c hc => by rw [List.eq_of_mem_replicate hc]; rfl
      rw [List.all_append, hzeros, all_isHexDigit_toDigits]
      rfl
    have hsum : Int64.ofInt (withSign sign (hexSum digits)) = n := by
      rw [hexSum_zeros, hexSum_toDigits, withSign, if_neg hplus]
      calc Int64.ofInt (n.toUInt64.toNat : Int)
          = (UInt64.ofNat n.toUInt64.toNat).toInt64 := UInt64.toInt64_ofNat'.symm
        _ = n.toUInt64.toInt64 := by rw [UInt64.ofNat_toNat]
        _ = n := n.toInt64_toUInt64
    refine ⟨?_, ?_⟩
    · rw [hconverts digits hne hall, hsum]
    · have hupper : digits.map Char.toUpper ≠ [] := fun h => hne (List.map_eq_nil_iff.1 h)
      rw [hconverts _ hupper (all_isHexDigit_toUpper hall), hexSum_toUpper hall, hsum]
  case refused =>
    have hnone : readHexInteger? (hexNumeral sign x digits) = none := by
      rw [readHexInteger?_eq hsign hx, if_neg]
      rintro ⟨hne, hall⟩
      rcases hbad with hnil | hother
      · exact hne hnil
      · exact Bool.false_ne_true (hother.symm.trans hall)
    refine ⟨hnone, fun hlast => ?_⟩
    rw [toInteger?_hexNumeral hleft hright hsign hx hlast, hnone]

/-- The digits of the least integer, behind a sixteenth place that does not count, are negated to the least
integer again.  A letter behind them is no digit. -/
theorem toInteger?_hexadecimal_least :
    toInteger? (.string "\t-0Xf8000000000000000 ") = some Int64.minValue ∧
      toInteger? (.string "\t-0Xf8000000000000000g ") = none ∧
      toInteger? (.string "\t+0x0008000000000000000 ") = some Int64.minValue := by
  have hleft : ∀ c ∈ ['\t'], Text.isBlank c = true := List.all_eq_true.1 (by decide)
  have hright : ∀ c ∈ [' '], Text.isBlank c = true := List.all_eq_true.1 (by decide)
  obtain ⟨hwraps, -, hrefused⟩ := toInteger?_hexadecimal hleft hright
    (show ['-'] ∈ signs by decide) (Or.inr rfl)
  obtain ⟨-, hspelled, -⟩ := toInteger?_hexadecimal hleft hright
    (show ['+'] ∈ signs by decide) (Or.inl rfl)
  obtain ⟨n, hn, hmod⟩ := hwraps "f8000000000000000".toList (by decide) (by decide)
  have hleast : n = Int64.minValue := by
    have hlow := n.le_toInt
    have hhigh := n.toInt_lt
    have hsum : hexSum "f8000000000000000".toList = 0xf8000000000000000 := by decide
    rw [hsum, withSign, if_pos rfl, Int.ModEq] at hmod
    refine Int64.toInt_inj.1 ?_
    rw [Int64.toInt_minValue]
    omega
  refine ⟨hleast ▸ hn, ?_, (hspelled Int64.minValue 3 (by decide)).1⟩
  have hlast : "f8000000000000000g".toList.getLast? = some 'g' := by decide
  refine (hrefused "f8000000000000000g".toList (Or.inr (by decide))).2 fun c hc => ?_
  obtain rfl : 'g' = c := Option.some.inj (hlast.symm.trans hc)
  decide

end Value

end VmInspect
