import Mathlib.Data.List.TakeWhile
import Mathlib.Data.Nat.Digits.Lemmas

/-!
# Signed decimal numbers as bytes

`printInt` writes an integer the way every C library does: a minus sign if it is negative, then
the digits, most significant first, `0` as one digit.  `scanInt` reads one from the start of a
text: an optional sign, then digits as far as they go.  Scanning undoes printing as long as
what follows is no digit (`scanInt_printInt_append`).
-/

namespace Decimal

/-! ## Digits -/

/-- The character of a digit. -/
def digitChar (d : ℕ) : UInt8 := UInt8.ofNat (48 + d)

def isDigit (c : UInt8) : Bool := 48 ≤ c.toNat && c.toNat ≤ 57

def digitValue (c : UInt8) : ℕ := c.toNat - 48

variable {d n : ℕ} {x : ℤ} {rest : List UInt8}

theorem toNat_digitChar (h : d < 10) : (digitChar d).toNat = 48 + d := by
  rw [digitChar, UInt8.toNat_ofNat']
  omega

theorem isDigit_digitChar (h : d < 10) : isDigit (digitChar d) = true := by
  rw [isDigit, toNat_digitChar h, Bool.and_eq_true, decide_eq_true_eq, decide_eq_true_eq]
  omega

theorem digitValue_digitChar (h : d < 10) : digitValue (digitChar d) = d := by
  rw [digitValue, toNat_digitChar h, Nat.add_sub_cancel_left]

/-! ## Natural numbers -/

/-- The digits, most significant first. -/
def printNat (n : ℕ) : List UInt8 :=
  if n = 0 then [digitChar 0] else (Nat.digits 10 n).reverse.map digitChar

/-- What digits denote. -/
def readNat (digits : List UInt8) : ℕ :=
  digits.foldl (fun value c => value * 10 + digitValue c) 0

theorem readNat_concat (digits : List UInt8) (c : UInt8) :
    readNat (digits ++ [c]) = readNat digits * 10 + digitValue c := by
  rw [readNat, List.foldl_append]
  rfl

/-- Read backwards, digits denote what `Nat.ofDigits` makes of them. -/
theorem readNat_map_reverse {digits : List ℕ} (h : ∀ d ∈ digits, d < 10) :
    readNat (digits.reverse.map digitChar) = Nat.ofDigits 10 digits := by
  induction digits with
  | nil => rfl
  | cons d digits ih =>
      rw [List.reverse_cons, List.map_append, List.map_singleton, readNat_concat,
        ih fun e he => h e (List.mem_cons_of_mem d he),
        digitValue_digitChar (h d List.mem_cons_self), Nat.ofDigits_cons]
      ring

/-- **Reading undoes printing.** -/
theorem readNat_printNat (n : ℕ) : readNat (printNat n) = n := by
  unfold printNat
  split
  · rename_i hzero
    rw [hzero]
    rfl
  · rw [readNat_map_reverse fun d hd => Nat.digits_lt_base (by decide) hd, Nat.ofDigits_digits]

theorem isDigit_of_mem_printNat {c : UInt8} (h : c ∈ printNat n) : isDigit c = true := by
  unfold printNat at h
  split at h
  · rw [List.mem_singleton.mp h]
    rfl
  · obtain ⟨d, hd, rfl⟩ := List.mem_map.mp h
    exact isDigit_digitChar (Nat.digits_lt_base (by decide) (List.mem_reverse.mp hd))

/-- The length of a number. -/
theorem length_printNat (n : ℕ) : (printNat n).length = Nat.log 10 n + 1 := by
  unfold printNat
  split
  · rename_i hzero
    rw [hzero, Nat.log_zero_right, List.length_singleton]
  · rename_i hpos
    rw [List.length_map, List.length_reverse, Nat.length_digits 10 n (by decide) hpos]

theorem printNat_ne_nil (n : ℕ) : printNat n ≠ [] := by
  intro hnil
  have hlength := length_printNat n
  rw [hnil, List.length_nil] at hlength
  omega

/-! ## Integers -/

/-- `-` -/
def minus : UInt8 := 45

/-- `+` -/
def plus : UInt8 := 43

def printInt (x : ℤ) : List UInt8 :=
  if x < 0 then minus :: printNat x.natAbs else printNat x.natAbs

/-- Take a sign off the start of a text. -/
def takeSign : List UInt8 → Bool × List UInt8
  | [] => (false, [])
  | c :: rest =>
      if c = minus then (true, rest)
      else if c = plus then (false, rest)
      else (false, c :: rest)

/-- Read an integer off the start of a text; `none` when there is no digit. -/
def scanInt (text : List UInt8) : Option ℤ × List UInt8 :=
  let (negative, text) := takeSign text
  let digits := text.takeWhile isDigit
  let value : ℤ := readNat digits
  (if digits = [] then none else some (if negative then -value else value),
    text.dropWhile isDigit)

/-- How many characters an integer takes. -/
def width (x : ℤ) : ℕ := (if x < 0 then 1 else 0) + Nat.log 10 x.natAbs + 1

theorem length_printInt (x : ℤ) : (printInt x).length = width x := by
  unfold printInt width
  split
  · rw [List.length_cons, length_printNat]
    omega
  · rw [length_printNat, Nat.zero_add]

/-- The characters of an integer. -/
theorem of_mem_printInt {c : UInt8} (h : c ∈ printInt x) : c = minus ∨ isDigit c = true := by
  unfold printInt at h
  split at h
  · rcases List.mem_cons.mp h with rfl | hdigit
    · exact .inl rfl
    · exact .inr (isDigit_of_mem_printNat hdigit)
  · exact .inr (isDigit_of_mem_printNat h)

theorem printInt_ne_nil (x : ℤ) : printInt x ≠ [] := by
  intro hnil
  have hlength := length_printInt x
  rw [hnil, List.length_nil, width] at hlength
  omega

/-- A number is not taken for a sign. -/
theorem takeSign_printNat_append (n : ℕ) (rest : List UInt8) :
    takeSign (printNat n ++ rest) = (false, printNat n ++ rest) := by
  obtain ⟨c, digits, hcons⟩ := List.exists_cons_of_ne_nil (printNat_ne_nil n)
  have hdigit : isDigit c = true := isDigit_of_mem_printNat (hcons ▸ List.mem_cons_self)
  rw [hcons, List.cons_append, takeSign, if_neg, if_neg]
  · rintro rfl
    exact absurd hdigit (by decide)
  · rintro rfl
    exact absurd hdigit (by decide)

theorem takeSign_printInt_append (x : ℤ) (rest : List UInt8) :
    takeSign (printInt x ++ rest) = (decide (x < 0), printNat x.natAbs ++ rest) := by
  unfold printInt
  split
  · rename_i hneg
    rw [List.cons_append, takeSign, if_pos rfl, decide_eq_true hneg]
  · rename_i hneg
    rw [takeSign_printNat_append, decide_eq_false hneg]

/-- Digits are read up to the first character that is none. -/
theorem takeWhile_printNat_append (n : ℕ) (hrest : ∀ c ∈ rest.head?, isDigit c = false) :
    (printNat n ++ rest).takeWhile isDigit = printNat n ∧
      (printNat n ++ rest).dropWhile isDigit = rest := by
  have hdigits : ∀ c ∈ printNat n, isDigit c = true := fun c => isDigit_of_mem_printNat
  rw [List.takeWhile_append_of_pos hdigits, List.dropWhile_append_of_pos hdigits]
  cases rest with
  | nil => exact ⟨List.append_nil _, rfl⟩
  | cons c rest =>
      have hstop : ¬ isDigit c = true := by
        rw [hrest c rfl]
        exact Bool.false_ne_true
      rw [List.takeWhile_cons, if_neg hstop, List.dropWhile_cons, if_neg hstop, List.append_nil]
      exact ⟨rfl, rfl⟩

/-- **Scanning undoes printing.** -/
theorem scanInt_printInt_append (x : ℤ) (hrest : ∀ c ∈ rest.head?, isDigit c = false) :
    scanInt (printInt x ++ rest) = (some x, rest) := by
  obtain ⟨htake, hdrop⟩ := takeWhile_printNat_append x.natAbs hrest
  have hvalue : (if decide (x < 0) = true then -(x.natAbs : ℤ) else x.natAbs) = x := by
    by_cases hneg : x < 0
    · rw [if_pos (decide_eq_true hneg)]
      omega
    · rw [if_neg (by simpa using hneg)]
      omega
  unfold scanInt
  rw [takeSign_printInt_append]
  dsimp only
  rw [htake, hdrop, if_neg (printNat_ne_nil _), readNat_printNat, hvalue]

end Decimal
