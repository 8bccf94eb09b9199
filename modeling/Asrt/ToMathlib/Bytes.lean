import Mathlib.Algebra.Group.Nat.Defs
import Mathlib.Data.Nat.Init

/-!
# Words in memory

A word of `w` bytes is a `BitVec (8 * w)`. `store` gives the bytes that it occupies in the memory of
a host of either byte order, and `load` reads a word back from its bytes. `byteswap` reverses the
bytes of a word.

## Main results

- `load_store`, `store_load`: storing and loading are inverse to each other.
- `store_byteswap_littleEndian`, `byteswap_load_littleEndian`: swapping the bytes of a word on a
  little-endian host has the effect of storing or loading it on a big-endian one.
-/

namespace ToMathlib

/-! ## Bytes of a number -/

/-- The `w` low-order bytes of a number, the least significant first. -/
def lowBytes : ℕ → ℕ → List UInt8
  | 0, _ => []
  | w + 1, x => UInt8.ofNat x :: lowBytes w (x / 256)

/-- The number with the given bytes, the least significant first. -/
def ofLowBytes : List UInt8 → ℕ
  | [] => 0
  | b :: bs => b.toNat + 256 * ofLowBytes bs

@[simp]
theorem length_lowBytes (w x : ℕ) : (lowBytes w x).length = w := by
  induction w generalizing x with
  | zero => rfl
  | succ w ih => simp [lowBytes, ih]

theorem ofLowBytes_lt (bs : List UInt8) : ofLowBytes bs < 256 ^ bs.length := by
  induction bs with
  | nil => simp [ofLowBytes]
  | cons b bs ih =>
    have hb : b.toNat < 256 := b.toNat_lt
    rw [ofLowBytes, List.length_cons, Nat.pow_succ]
    omega

theorem ofLowBytes_lowBytes (w x : ℕ) : ofLowBytes (lowBytes w x) = x % 256 ^ w := by
  induction w generalizing x with
  | zero => simp [lowBytes, ofLowBytes, Nat.mod_one]
  | succ w ih =>
    have hlow : (UInt8.ofNat x).toNat = x % 256 := UInt8.toNat_ofNat'
    rw [lowBytes, ofLowBytes, ih, hlow, Nat.pow_succ', Nat.mod_mul]

theorem lowBytes_ofLowBytes (bs : List UInt8) : lowBytes bs.length (ofLowBytes bs) = bs := by
  induction bs with
  | nil => rfl
  | cons b bs ih =>
    have hb : b.toNat < 256 := b.toNat_lt
    -- the lowest byte and the others are remainder and quotient by `256`
    have hmod : UInt8.ofNat (b.toNat + 256 * ofLowBytes bs) = b := by
      apply UInt8.toNat_inj.mp
      rw [UInt8.toNat_ofNat']
      omega
    have hdiv : (b.toNat + 256 * ofLowBytes bs) / 256 = ofLowBytes bs := by omega
    rw [List.length_cons, ofLowBytes, lowBytes, hmod, hdiv, ih]

/-! ## Words -/

/-- The byte order of a host. -/
inductive ByteOrder
  | littleEndian
  | bigEndian
deriving DecidableEq, Repr

/-- The bytes in memory, given those of the word from the least significant on; and the other way
round. -/
def ByteOrder.arrange : ByteOrder → List UInt8 → List UInt8
  | littleEndian, bs => bs
  | bigEndian, bs => bs.reverse

@[simp]
theorem ByteOrder.arrange_arrange (order : ByteOrder) (bs : List UInt8) :
    order.arrange (order.arrange bs) = bs := by
  cases order with
  | littleEndian => rfl
  | bigEndian => exact List.reverse_reverse bs

@[simp]
theorem ByteOrder.length_arrange (order : ByteOrder) (bs : List UInt8) :
    (order.arrange bs).length = bs.length := by
  cases order with
  | littleEndian => rfl
  | bigEndian => exact List.length_reverse

variable {w : ℕ}

/-- The bytes that a word occupies in memory. -/
def store (order : ByteOrder) (x : BitVec (8 * w)) : List UInt8 :=
  order.arrange (lowBytes w x.toNat)

/-- The word that some bytes in memory make up. -/
def load (order : ByteOrder) (w : ℕ) (bs : List UInt8) : BitVec (8 * w) :=
  BitVec.ofNat _ (ofLowBytes (order.arrange bs))

/-- The word with its bytes in reverse. -/
def byteswap (x : BitVec (8 * w)) : BitVec (8 * w) := load .bigEndian w (store .littleEndian x)

@[simp]
theorem length_store (order : ByteOrder) (x : BitVec (8 * w)) : (store order x).length = w := by
  simp [store]

private theorem two_pow_eight_mul (w : ℕ) : 2 ^ (8 * w) = 256 ^ w := Nat.pow_mul 2 8 w

@[simp]
theorem load_store (order : ByteOrder) (x : BitVec (8 * w)) : load order w (store order x) = x := by
  apply BitVec.eq_of_toNat_eq
  rw [load, store, ByteOrder.arrange_arrange, ofLowBytes_lowBytes, BitVec.toNat_ofNat,
    two_pow_eight_mul, Nat.mod_mod, ← two_pow_eight_mul, Nat.mod_eq_of_lt x.isLt]

theorem store_load {order : ByteOrder} {bs : List UInt8} (h : bs.length = w) :
    store order (load order w bs) = bs := by
  -- the bytes make up a number that fits into the word, so nothing is cut off
  have hlt : ofLowBytes (order.arrange bs) < 2 ^ (8 * w) := by
    have := ofLowBytes_lt (order.arrange bs)
    rwa [ByteOrder.length_arrange, h, ← two_pow_eight_mul] at this
  have hbytes : lowBytes w (ofLowBytes (order.arrange bs)) = order.arrange bs := by
    rw [← h, ← ByteOrder.length_arrange order bs, lowBytes_ofLowBytes]
  rw [store, load, BitVec.toNat_ofNat, Nat.mod_eq_of_lt hlt, hbytes, ByteOrder.arrange_arrange]

/-- A word swapped on a little-endian host lies in its memory as on a big-endian one. -/
theorem store_byteswap_littleEndian (x : BitVec (8 * w)) :
    store .littleEndian (byteswap x) = store .bigEndian x := by
  -- it makes no difference which of the two orders the word is read in
  have hswap : byteswap x = load .littleEndian w (store .bigEndian x) := rfl
  rw [hswap, store_load (length_store _ _)]

/-- A word read on a little-endian host and swapped is what a big-endian one reads. -/
theorem byteswap_load_littleEndian {bs : List UInt8} (h : bs.length = w) :
    byteswap (load .littleEndian w bs) = load .bigEndian w bs := by
  rw [byteswap, store_load h]

end ToMathlib
