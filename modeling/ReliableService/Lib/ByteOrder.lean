import Mathlib.Data.Nat.Digits.Defs
import Mathlib.Data.Vector.Basic

/-!
# Numbers and fields in memory

A number of `width` bytes stands in the memory of a host with its least significant byte first or
last, as the host has it.  On the network the most significant byte comes first, and `swap` is
what makes a number of the host's one whose bytes stand that way (`store_swap`).  So a number that
is swapped, sent as bytes and swapped again arrives between any two hosts (`swap_load`).

A structure in memory is its bytes.  `poke` writes a field and leaves the others alone, and what is
never written keeps what the memory held before.
-/

/-! ## Numbers -/

/-- The order of the bytes of a number in memory. -/
inductive ByteOrder
  | little
  | big
  deriving DecidableEq, Repr

/-- The last `width` digits to base `256`, the least significant first. -/
def bytesOf : ℕ → ℕ → List UInt8
  | 0, _ => []
  | width + 1, n => UInt8.ofNat n :: bytesOf width (n / 256)

/-- The number with these digits. -/
def ofBytes (bytes : List UInt8) : ℕ := Nat.ofDigits 256 (bytes.map UInt8.toNat)

@[simp] theorem length_bytesOf (width n : ℕ) : (bytesOf width n).length = width := by
  induction width generalizing n with
  | zero => rfl
  | succ width ih => rw [bytesOf, List.length_cons, ih]

theorem ofBytes_cons (byte : UInt8) (bytes : List UInt8) :
    ofBytes (byte :: bytes) = byte.toNat + 256 * ofBytes bytes := by
  rw [ofBytes, List.map_cons, Nat.ofDigits_cons]
  rfl

theorem ofBytes_bytesOf (width n : ℕ) : ofBytes (bytesOf width n) = n % 256 ^ width := by
  induction width generalizing n with
  | zero => exact (Nat.mod_one n).symm
  | succ width ih =>
      rw [bytesOf, ofBytes_cons, ih, UInt8.toNat_ofNat', pow_succ' 256 width]
      exact Nat.mod_mul.symm

theorem bytesOf_ofBytes (bytes : List UInt8) : bytesOf bytes.length (ofBytes bytes) = bytes := by
  induction bytes with
  | nil => rfl
  | cons byte bytes ih =>
      have hlow : UInt8.ofNat (byte.toNat + 256 * ofBytes bytes) = byte := by
        apply UInt8.toNat_inj.mp
        rw [UInt8.toNat_ofNat', Nat.add_mul_mod_self_left, Nat.mod_eq_of_lt byte.toNat_lt]
      have hhigh : (byte.toNat + 256 * ofBytes bytes) / 256 = ofBytes bytes := by
        rw [Nat.add_mul_div_left _ _ (by decide), Nat.div_eq_of_lt byte.toNat_lt, Nat.zero_add]
      rw [ofBytes_cons, List.length_cons, bytesOf, hlow, hhigh, ih]

theorem ofBytes_lt (bytes : List UInt8) : ofBytes bytes < 256 ^ bytes.length := by
  have hmod := ofBytes_bytesOf bytes.length (ofBytes bytes)
  rw [bytesOf_ofBytes] at hmod
  rw [hmod]
  exact Nat.mod_lt _ (Nat.pow_pos (by decide))

namespace ByteOrder

/-- Digits as they stand in memory, or memory as digits. -/
def arrange : ByteOrder → List UInt8 → List UInt8
  | little, bytes => bytes
  | big, bytes => bytes.reverse

variable (order : ByteOrder) {width n : ℕ}

@[simp] theorem length_arrange (bytes : List UInt8) :
    (order.arrange bytes).length = bytes.length := by
  cases order with
  | little => rfl
  | big => exact List.length_reverse

@[simp] theorem arrange_arrange (bytes : List UInt8) :
    order.arrange (order.arrange bytes) = bytes := by
  cases order with
  | little => rfl
  | big => exact List.reverse_reverse bytes

/-- The bytes of a number in memory. -/
def store (width n : ℕ) : List UInt8 := order.arrange (bytesOf width n)

/-- The number that stands in memory. -/
def load (bytes : List UInt8) : ℕ := ofBytes (order.arrange bytes)

@[simp] theorem length_store : (order.store width n).length = width := by
  rw [store, length_arrange, length_bytesOf]

theorem load_store : order.load (order.store width n) = n % 256 ^ width := by
  rw [load, store, arrange_arrange, ofBytes_bytesOf]

theorem store_load (bytes : List UInt8) : order.store bytes.length (order.load bytes) = bytes := by
  have hdigits := bytesOf_ofBytes (order.arrange bytes)
  rw [length_arrange] at hdigits
  rw [store, load, hdigits, arrange_arrange]

theorem load_lt (bytes : List UInt8) : order.load bytes < 256 ^ bytes.length := by
  have hlt := ofBytes_lt (order.arrange bytes)
  rwa [length_arrange] at hlt

/-- The number with the bytes the other way round, unless the host has them as the network has
them. -/
def swap (width n : ℕ) : ℕ :=
  match order with
  | little => ofBytes (bytesOf width n).reverse
  | big => n

/-- **A swapped number stands in memory as the network wants it.** -/
theorem store_swap : order.store width (order.swap width n) = big.store width n := by
  cases order with
  | little =>
      have hdigits := bytesOf_ofBytes (bytesOf width n).reverse
      rw [List.length_reverse, length_bytesOf] at hdigits
      exact hdigits
  | big => rfl

/-- **What stands in memory as the network wants it is read right when it is swapped.** -/
theorem swap_load {bytes : List UInt8} (hwidth : bytes.length = width) :
    order.swap width (order.load bytes) = big.load bytes := by
  cases order with
  | little =>
      subst hwidth
      show ofBytes (bytesOf bytes.length (ofBytes bytes)).reverse = ofBytes bytes.reverse
      rw [bytesOf_ofBytes]
  | big => rfl

theorem swap_lt (hn : n < 256 ^ width) : order.swap width n < 256 ^ width := by
  cases order with
  | little =>
      have hlt := ofBytes_lt (bytesOf width n).reverse
      rwa [List.length_reverse, length_bytesOf] at hlt
  | big => exact hn

/-- A number arrives, whatever the order of the sender and of the receiver. -/
theorem swap_load_store_swap (sender receiver : ByteOrder) (hn : n < 256 ^ width) :
    receiver.swap width (receiver.load (sender.store width (sender.swap width n))) = n := by
  rw [store_swap, swap_load receiver (length_store _), load_store, Nat.mod_eq_of_lt hn]

end ByteOrder

/-! ## Fields -/

/-- A field is written. -/
def poke (memory : List UInt8) (offset : ℕ) (bytes : List UInt8) : List UInt8 :=
  memory.take offset ++ bytes ++ memory.drop (offset + bytes.length)

/-- A field is read. -/
def peek (memory : List UInt8) (offset width : ℕ) : List UInt8 := (memory.drop offset).take width

section Fields

variable {memory bytes : List UInt8} {offset offset' width : ℕ}

@[simp] theorem length_poke : (poke memory offset bytes).length =
    min offset memory.length + bytes.length + (memory.length - (offset + bytes.length)) := by
  rw [poke, List.length_append, List.length_append, List.length_take, List.length_drop]

theorem length_poke_of_fits (hfits : offset + bytes.length ≤ memory.length) :
    (poke memory offset bytes).length = memory.length := by
  rw [length_poke]
  omega

theorem peek_poke_self (hfits : offset + bytes.length ≤ memory.length)
    (hwidth : bytes.length = width) : peek (poke memory offset bytes) offset width = bytes := by
  have hlength : (memory.take offset).length = offset := by
    rw [List.length_take]
    omega
  rw [peek, poke, List.append_assoc, List.drop_left' hlength, List.take_left' hwidth]

theorem peek_poke_before (hfits : offset + bytes.length ≤ memory.length)
    (hbefore : offset' + width ≤ offset) :
    peek (poke memory offset bytes) offset' width = peek memory offset' width := by
  have hlength : (memory.take offset).length = offset := by
    rw [List.length_take]
    omega
  rw [peek, peek, poke, List.append_assoc, List.drop_append_of_le_length (by omega),
    List.take_append_of_le_length (by rw [List.length_drop]; omega), List.drop_take,
    List.take_take, Nat.min_eq_left (by omega)]

theorem peek_poke_behind (hfits : offset + bytes.length ≤ memory.length)
    (hbehind : offset + bytes.length ≤ offset') :
    peek (poke memory offset bytes) offset' width = peek memory offset' width := by
  have hlength : (memory.take offset ++ bytes).length = offset + bytes.length := by
    rw [List.length_append, List.length_take]
    omega
  obtain ⟨more, rfl⟩ := Nat.exists_eq_add_of_le hbehind
  rw [peek, peek, poke, ← hlength, List.drop_length_add_append, hlength, List.drop_drop]

end Fields
