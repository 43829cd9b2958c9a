import JackNet.Wire.Encoding

/-!
# Host and network order

`htonl` and `ntohl` come from the C library. `htonll` and `ntohll` are the header's macros: the
identity under `__BIG_ENDIAN__`, and otherwise two `htonl` calls on the halves of the value, the
low half moved up. `swapFloat` is `JackPortList::SwapFloat`, the union-based byte swap the
big-endian build applies to every sample it sends or receives.
-/

namespace JackNet

/-- `htonl`: the value whose bytes, as this host lays them out, are the network-order
(big-endian) bytes of `x`. -/
def htonl (host : ByteOrder) (x : BitVec 32) : BitVec 32 :=
  BitVec.ofNat 32 (host.decode (ByteOrder.big.encode 4 x.toNat))

/-- `ntohl`: the value whose network-order bytes are this host's bytes of `x`. -/
def ntohl (host : ByteOrder) (x : BitVec 32) : BitVec 32 :=
  BitVec.ofNat 32 (ByteOrder.big.decode (host.encode 4 x.toNat))

/-- `htonll(x)`. Passing the 64-bit `x` to `htonl` keeps its low half. -/
def htonll : ByteOrder → BitVec 64 → BitVec 64
  | .big, x => x
  | .little, x => ((htonl .little (x.setWidth 32)).setWidth 64 <<< 32) +
      (htonl .little ((x >>> 32).setWidth 32)).setWidth 64

/-- `ntohll(x)`, the same with `ntohl`. -/
def ntohll : ByteOrder → BitVec 64 → BitVec 64
  | .big, x => x
  | .little, x => ((ntohl .little (x.setWidth 32)).setWidth 64 <<< 32) +
      (ntohl .little ((x >>> 32).setWidth 32)).setWidth 64

/-- `SwapFloat`: the float's four bytes in memory, reversed, read back as a float. Only the
big-endian build has it, so its memory is big-endian. -/
def swapFloat (f : BitVec 32) : BitVec 32 :=
  ByteOrder.big.word32 (ByteOrder.big.bytes32 f).reverse

/-- On a little-endian host `htonl` reverses the four bytes of its argument. -/
theorem htonl_little_toNat (y : BitVec 32) :
    (htonl .little y).toNat = ofBytesLE (toBytesLE 4 y.toNat).reverse := by
  have hlt := ofBytesLE_lt (toBytesLE 4 y.toNat).reverse
  simp only [List.length_reverse, length_toBytesLE] at hlt
  exact Nat.mod_eq_of_lt hlt

theorem ntohll_little : ntohll .little = htonll .little := rfl

/-- The bytes of `htonll x` in this host's memory are the big-endian bytes of `x`. -/
theorem encode_htonll (host : ByteOrder) (x : BitVec 64) :
    host.encode 8 (htonll host x).toNat = ByteOrder.big.encode 8 x.toNat := by
  cases host
  case big => rfl
  case little =>
    have swap (y : BitVec 32) : toBytesLE 4 (htonl .little y).toNat = (toBytesLE 4 y.toNat).reverse := by
      simpa [htonl_little_toNat] using toBytesLE_ofBytesLE (toBytesLE 4 y.toNat).reverse
    -- the halves of `x` as numbers
    have hlo : (x.setWidth 32).toNat = x.toNat % 256 ^ 4 := by
      have := BitVec.toNat_setWidth 32 x
      omega
    have hhi : ((x >>> 32).setWidth 32).toNat = x.toNat / 256 ^ 4 := by
      have h := BitVec.toNat_setWidth 32 (x >>> 32)
      rw [BitVec.toNat_ushiftRight, Nat.shiftRight_eq_div_pow] at h
      have := x.isLt
      omega
    have lo_lt := (htonl .little (x.setWidth 32)).isLt
    have hi_lt := (htonl .little ((x >>> 32).setWidth 32)).isLt
    have hval : (htonll .little x).toNat = (htonl .little ((x >>> 32).setWidth 32)).toNat +
        256 ^ 4 * (htonl .little (x.setWidth 32)).toNat := by
      simp only [htonll, BitVec.toNat_add, BitVec.toNat_shiftLeft, BitVec.toNat_setWidth,
        Nat.shiftLeft_eq]
      omega
    have hmod : ((htonl .little ((x >>> 32).setWidth 32)).toNat +
        256 ^ 4 * (htonl .little (x.setWidth 32)).toNat) % 256 ^ 4 =
        (htonl .little ((x >>> 32).setWidth 32)).toNat := by omega
    have hdiv : ((htonl .little ((x >>> 32).setWidth 32)).toNat +
        256 ^ 4 * (htonl .little (x.setWidth 32)).toNat) / 256 ^ 4 =
        (htonl .little (x.setWidth 32)).toNat := by omega
    show toBytesLE 8 _ = (toBytesLE 8 x.toNat).reverse
    rw [hval, toBytesLE_add 4 4, hdiv, ← toBytesLE_mod 4, hmod, swap, swap, hhi, hlo,
      toBytesLE_mod, toBytesLE_add 4 4 x.toNat, List.reverse_append]

theorem ntohll_htonll (host : ByteOrder) (x : BitVec 64) : ntohll host (htonll host x) = x := by
  cases host
  case big => rfl
  case little =>
    rw [ntohll_little]
    apply BitVec.eq_of_toNat_eq
    refine ByteOrder.encode_injective .little (w := 8) (BitVec.isLt _) x.isLt ?_
    rw [encode_htonll, ByteOrder.big_encode, encode_htonll, ByteOrder.big_encode,
      List.reverse_reverse]

theorem htonll_ntohll (host : ByteOrder) (x : BitVec 64) : htonll host (ntohll host x) = x := by
  cases host
  case big => rfl
  case little => rw [ntohll_little]; exact ntohll_htonll .little x

/-- `htonll` reverses the bytes of `x` on a little-endian host and is the identity on a big-endian
one, so on either host its bytes in memory are the big-endian bytes of `x`; `ntohll` undoes it. -/
theorem htonll_network_order (x : BitVec 64) :
    ByteOrder.little.encode 8 (htonll .little x).toNat =
      (ByteOrder.little.encode 8 x.toNat).reverse ∧
    htonll .big x = x ∧
    (∀ host : ByteOrder, host.encode 8 (htonll host x).toNat = ByteOrder.big.encode 8 x.toNat) ∧
    ∀ host, ntohll host (htonll host x) = x ∧ htonll host (ntohll host x) = x :=
  ⟨encode_htonll .little x, rfl, fun host => encode_htonll host x,
    fun host => ⟨ntohll_htonll host x, htonll_ntohll host x⟩⟩

/-- A big-endian host writes `swapFloat f` as the little-endian bytes of `f`. -/
theorem bytes32_swapFloat (f : BitVec 32) :
    ByteOrder.big.bytes32 (swapFloat f) = ByteOrder.little.bytes32 f := by
  rw [swapFloat, ByteOrder.bytes32_word32 _ (by simp)]
  exact List.reverse_reverse _

/-- A big-endian host that reads four bytes and swaps them gets what a little-endian host reads. -/
theorem swapFloat_word32 {bs : List Byte} (h : bs.length = 4) :
    swapFloat (ByteOrder.big.word32 bs) = ByteOrder.little.word32 bs := by
  rw [swapFloat, ByteOrder.bytes32_word32 _ h]
  simp [ByteOrder.word32, ByteOrder.decode]

end JackNet
