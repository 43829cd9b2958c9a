import Mathlib.Data.Nat.Defs
import Mathlib.Algebra.Group.Int

/-!
# Byte orders

A multi-byte value sits in memory as bytes, least significant first on a little-endian host and
most significant first on a big-endian one. The headers travel in network order (big-endian);
audio samples travel in the order the sending port list writes them.

`toBytesLE w n` is the `w` little-endian bytes of `n` and `ofBytesLE` reads them back. A
`ByteOrder` reverses them or not. The `BitVec`s of the code enter through `toNat`.
-/

namespace JackNet

/-- A byte of memory. -/
abbrev Byte := BitVec 8

/-- The `w` little-endian bytes of `n`; bits above `8 * w` are dropped. -/
def toBytesLE : Nat → Nat → List Byte
  | 0, _ => []
  | w + 1, n => BitVec.ofNat 8 n :: toBytesLE w (n / 256)

/-- The natural number whose little-endian bytes are `bs`. -/
def ofBytesLE : List Byte → Nat
  | [] => 0
  | b :: bs => b.toNat + 256 * ofBytesLE bs

@[simp] theorem toBytesLE_zero (n : Nat) : toBytesLE 0 n = [] := rfl

@[simp] theorem toBytesLE_succ (w n : Nat) :
    toBytesLE (w + 1) n = BitVec.ofNat 8 n :: toBytesLE w (n / 256) := rfl

@[simp] theorem ofBytesLE_nil : ofBytesLE [] = 0 := rfl

@[simp] theorem ofBytesLE_cons (b : Byte) (bs : List Byte) :
    ofBytesLE (b :: bs) = b.toNat + 256 * ofBytesLE bs := rfl

@[simp] theorem length_toBytesLE (w n : Nat) : (toBytesLE w n).length = w := by
  induction w generalizing n <;> simp_all

theorem ofBytesLE_toBytesLE (w n : Nat) : ofBytesLE (toBytesLE w n) = n % 256 ^ w := by
  induction w generalizing n with
  | zero => simp [Nat.mod_one]
  | succ w ih =>
    rw [toBytesLE_succ, ofBytesLE_cons, ih, BitVec.toNat_ofNat, Nat.pow_succ' (m := 256),
      Nat.mod_mul]

theorem ofBytesLE_lt (bs : List Byte) : ofBytesLE bs < 256 ^ bs.length := by
  induction bs with
  | nil => simp
  | cons b bs ih =>
    have hb : b.toNat < 256 := b.isLt
    rw [ofBytesLE_cons, List.length_cons, Nat.pow_succ']
    omega

theorem toBytesLE_ofBytesLE (bs : List Byte) : toBytesLE bs.length (ofBytesLE bs) = bs := by
  induction bs with
  | nil => rfl
  | cons b bs ih =>
    have hb : b.toNat < 256 := b.isLt
    rw [List.length_cons, toBytesLE_succ, ofBytesLE_cons]
    congr 1
    · apply BitVec.eq_of_toNat_eq
      rw [BitVec.toNat_ofNat]
      omega
    · rw [show (b.toNat + 256 * ofBytesLE bs) / 256 = ofBytesLE bs by omega, ih]

/-- A wide value's bytes: those of its low `a` bytes, then those of what is above them. -/
theorem toBytesLE_add (a b n : Nat) :
    toBytesLE (a + b) n = toBytesLE a n ++ toBytesLE b (n / 256 ^ a) := by
  induction a generalizing n with
  | zero => simp
  | succ a ih =>
    rw [Nat.add_right_comm, toBytesLE_succ, ih, toBytesLE_succ, List.cons_append,
      Nat.div_div_eq_div_mul, Nat.pow_succ']

theorem toBytesLE_mod (w n : Nat) : toBytesLE w (n % 256 ^ w) = toBytesLE w n := by
  induction w generalizing n with
  | zero => rfl
  | succ w ih =>
    rw [toBytesLE_succ, toBytesLE_succ, Nat.pow_succ', Nat.mod_mul_right_div_self, ih]
    congr 1
    apply BitVec.eq_of_toNat_eq
    simp only [BitVec.toNat_ofNat]
    rw [Nat.mod_mul_right_mod]

theorem toBytesLE_injective {w m n : Nat} (hm : m < 256 ^ w) (hn : n < 256 ^ w)
    (h : toBytesLE w m = toBytesLE w n) : m = n := by
  have := congrArg ofBytesLE h
  rwa [ofBytesLE_toBytesLE, ofBytesLE_toBytesLE, Nat.mod_eq_of_lt hm, Nat.mod_eq_of_lt hn] at this

/-- The byte order of a host. -/
inductive ByteOrder
  | little
  | big
  deriving DecidableEq, Repr

namespace ByteOrder

/-- The `w` bytes of `n` as a host of this order lays them out in memory. -/
def encode : ByteOrder → Nat → Nat → List Byte
  | little, w, n => toBytesLE w n
  | big, w, n => (toBytesLE w n).reverse

/-- The value a host of this order reads from the bytes `bs`. -/
def decode : ByteOrder → List Byte → Nat
  | little, bs => ofBytesLE bs
  | big, bs => ofBytesLE bs.reverse

@[simp] theorem length_encode (o : ByteOrder) (w n : Nat) : (o.encode w n).length = w := by
  cases o <;> simp [encode]

theorem big_encode (w n : Nat) : big.encode w n = (little.encode w n).reverse := rfl

theorem decode_encode (o : ByteOrder) (w n : Nat) : o.decode (o.encode w n) = n % 256 ^ w := by
  cases o <;> simp [encode, decode, ofBytesLE_toBytesLE]

theorem encode_decode (o : ByteOrder) (bs : List Byte) : o.encode bs.length (o.decode bs) = bs := by
  cases o
  · exact toBytesLE_ofBytesLE bs
  · simpa [encode, decode] using congrArg List.reverse (toBytesLE_ofBytesLE bs.reverse)

theorem decode_lt (o : ByteOrder) (bs : List Byte) : o.decode bs < 256 ^ bs.length := by
  cases o
  · exact ofBytesLE_lt bs
  · simpa using ofBytesLE_lt bs.reverse

theorem encode_injective (o : ByteOrder) {w m n : Nat} (hm : m < 256 ^ w) (hn : n < 256 ^ w)
    (h : o.encode w m = o.encode w n) : m = n := by
  cases o
  · exact toBytesLE_injective hm hn h
  · exact toBytesLE_injective hm hn (List.reverse_inj.mp h)

/-- The four bytes of a 32-bit value in memory. -/
def bytes32 (o : ByteOrder) (x : BitVec 32) : List Byte := o.encode 4 x.toNat

/-- The 32-bit value a host reads from four bytes. -/
def word32 (o : ByteOrder) (bs : List Byte) : BitVec 32 := BitVec.ofNat 32 (o.decode bs)

@[simp] theorem length_bytes32 (o : ByteOrder) (x : BitVec 32) : (o.bytes32 x).length = 4 :=
  length_encode o 4 x.toNat

@[simp] theorem word32_bytes32 (o : ByteOrder) (x : BitVec 32) : o.word32 (o.bytes32 x) = x := by
  apply BitVec.eq_of_toNat_eq
  rw [word32, bytes32, decode_encode, BitVec.toNat_ofNat]
  have := x.isLt
  omega

theorem bytes32_word32 (o : ByteOrder) {bs : List Byte} (h : bs.length = 4) :
    o.bytes32 (o.word32 bs) = bs := by
  have hlt : o.decode bs < 2 ^ 32 := by simpa [h] using o.decode_lt bs
  rw [bytes32, word32, BitVec.toNat_ofNat, Nat.mod_eq_of_lt hlt, ← h, encode_decode]

end ByteOrder

end JackNet
