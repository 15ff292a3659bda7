import Mathlib.Data.Nat.Digits

/-!
# Bytes, big numbers and TEE results

The DSA driver moves key material between the TEE's big numbers and the CAAM's fixed-width
buffers with three calls of the big-integer library: `crypto_bignum_num_bytes`,
`crypto_bignum_bn2bin`, which writes a value's minimal big-endian bytes, and
`crypto_bignum_bin2bn`, which reads a big-endian byte string back. The library is not part of
the driver; the three calls are modelled from the spec's interface (`byte_length`,
`to_bytes_big_endian`, `from_bytes_big_endian`) over `Nat.digits 256`.

A driver buffer is filled by storing bytes at an offset of a zeroed buffer (`writeAt`), which is
what `crypto_bignum_bn2bin(s, buf.data + off)` does to `buf`.

Both drivers report a GlobalPlatform `TEE_Result`, a `uint32_t`, and round sizes up with
`ROUNDUP`.
-/

namespace CryptoDrivers

/-- The contents of a buffer. -/
abbrev Bytes := List UInt8

/-- `TEE_Result`. -/
abbrev TeeResult := UInt32

/-- `TEE_SUCCESS`. -/
def teeSuccess : TeeResult := 0x00000000

/-- `TEE_ERROR_GENERIC`. -/
def teeErrorGeneric : TeeResult := 0xFFFF0000

/-- `TEE_ERROR_BAD_PARAMETERS`. -/
def teeErrorBadParameters : TeeResult := 0xFFFF0006

/-- `TEE_ERROR_OUT_OF_MEMORY`. -/
def teeErrorOutOfMemory : TeeResult := 0xFFFF000C

/-- `TEE_ERROR_SIGNATURE_INVALID`. -/
def teeErrorSignatureInvalid : TeeResult := 0xFFFF3072

@[simp] theorem teeErrorGeneric_ne_success : teeErrorGeneric ≠ teeSuccess := by decide
@[simp] theorem teeErrorOutOfMemory_ne_success : teeErrorOutOfMemory ≠ teeSuccess := by decide
@[simp] theorem teeErrorSignatureInvalid_ne_success : teeErrorSignatureInvalid ≠ teeSuccess := by
  decide
@[simp] theorem teeErrorGeneric_ne_signatureInvalid :
    teeErrorGeneric ≠ teeErrorSignatureInvalid := by
  decide
@[simp] theorem teeErrorOutOfMemory_ne_signatureInvalid :
    teeErrorOutOfMemory ≠ teeErrorSignatureInvalid := by
  decide
@[simp] theorem teeSuccess_ne_signatureInvalid : teeSuccess ≠ teeErrorSignatureInvalid := by decide

/-- Modelled from the spec: `crypto_bignum_bin2bn` (`from_bytes_big_endian`) reads a
big-endian byte string as an unsigned number. -/
def cryptoBignumBin2bn (bs : Bytes) : Nat :=
  Nat.ofDigits 256 (bs.reverse.map UInt8.toNat)

/-- Modelled from the spec: `crypto_bignum_num_bytes` (`byte_length`), the number of bytes of
the value's minimal big-endian form; `0` for zero. -/
def cryptoBignumNumBytes (v : Nat) : Nat :=
  (Nat.digits 256 v).length

/-- Modelled from the spec: `crypto_bignum_bn2bin` (`to_bytes_big_endian`), the
`cryptoBignumNumBytes v` bytes of `v`, most significant first. -/
def cryptoBignumBn2bin (v : Nat) : Bytes :=
  ((Nat.digits 256 v).map UInt8.ofNat).reverse

/-- `ROUNDUP(v, size)` of `util.h` on a `w`-bit unsigned value: `(v + (size - 1)) & ~(size - 1)`,
wrapping. -/
def roundup (w v size : Nat) : Nat :=
  ((v + (size - 1)) % 2 ^ w) &&& (2 ^ w - 1 - (size - 1))

/-- Storing `src` at offset `off` of `buf`, as `memcpy(buf + off, src, len)` does to `buf`: a
byte of `src` lands in `buf` where `buf` has a byte at that place. The others lie outside `buf`,
in memory the model does not hold, so results about what a buffer holds are stated for stores
that stay inside it. -/
def writeAt : Bytes → Int → Bytes → Bytes
  | [], _, _ => []
  | b :: bs, off, src =>
    (if off ≤ 0 then src[(-off).toNat]?.getD b else b) :: writeAt bs (off - 1) src

@[simp]
theorem length_writeAt (buf : Bytes) (off : Int) (src : Bytes) :
    (writeAt buf off src).length = buf.length := by
  induction buf generalizing off with
  | nil => rfl
  | cons b bs ih => simp [writeAt, ih]

/-- Bytes before the offset are left as they were. -/
theorem writeAt_append_of_nonneg (pre rest src : Bytes) {off : Int} (h : 0 ≤ off) :
    writeAt (pre ++ rest) (pre.length + off) src = pre ++ writeAt rest off src := by
  induction pre with
  | nil => simp
  | cons b pre ih =>
    have hpos : ¬ ((pre.length + 1 : Nat) : Int) + off ≤ 0 := by omega
    simp only [List.cons_append, List.length_cons, writeAt, hpos, if_false]
    congr 1
    rw [← ih]
    congr 1
    omega

/-- From offset `-k`, the buffer receives the bytes of `src` from the `k`-th on. -/
theorem writeAt_neg (buf src : Bytes) (k : Nat) (h : k + buf.length ≤ src.length) :
    writeAt buf (-(k : Int)) src = (src.drop k).take buf.length := by
  induction buf generalizing k with
  | nil => simp [writeAt]
  | cons b bs ih =>
    have hk : k < src.length := by simp at h; omega
    have hrec := ih (k + 1) (by simp at h; omega)
    have hoff : -(k : Int) - 1 = -((k + 1 : Nat) : Int) := by omega
    rw [List.drop_eq_getElem_cons hk, List.length_cons, List.take_succ_cons, ← hrec, writeAt,
      hoff, if_pos (by omega), neg_neg, Int.toNat_ofNat, List.getElem?_eq_getElem hk,
      Option.getD_some]

@[simp]
theorem length_cryptoBignumBn2bin (v : Nat) :
    (cryptoBignumBn2bin v).length = cryptoBignumNumBytes v := by
  simp [cryptoBignumBn2bin, cryptoBignumNumBytes]

@[simp]
theorem cryptoBignumBin2bn_nil : cryptoBignumBin2bn [] = 0 := rfl

theorem cryptoBignumBin2bn_append (xs ys : Bytes) :
    cryptoBignumBin2bn (xs ++ ys) =
      cryptoBignumBin2bn xs * 256 ^ ys.length + cryptoBignumBin2bn ys := by
  simp only [cryptoBignumBin2bn, List.reverse_append, List.map_append, Nat.ofDigits_append,
    List.length_map, List.length_reverse]
  ring

@[simp]
theorem cryptoBignumBin2bn_cons (b : UInt8) (bs : Bytes) :
    cryptoBignumBin2bn (b :: bs) = b.toNat * 256 ^ bs.length + cryptoBignumBin2bn bs := by
  simpa [cryptoBignumBin2bn, Nat.ofDigits] using cryptoBignumBin2bn_append [b] bs

/-- Leading zero bytes do not change the value read. -/
@[simp]
theorem cryptoBignumBin2bn_replicate_zero_append (k : Nat) (bs : Bytes) :
    cryptoBignumBin2bn (List.replicate k 0 ++ bs) = cryptoBignumBin2bn bs := by
  induction k with
  | zero => rfl
  | succ k ih => simpa [List.replicate_succ] using ih

theorem cryptoBignumBin2bn_lt (bs : Bytes) : cryptoBignumBin2bn bs < 256 ^ bs.length := by
  have h := Nat.ofDigits_lt_base_pow_length (b := 256) (l := bs.reverse.map UInt8.toNat)
    (by norm_num) (by simp [UInt8.toNat_lt_size])
  simpa [cryptoBignumBin2bn] using h

/-- At a fixed length, `crypto_bignum_bin2bn` tells byte strings apart. -/
theorem cryptoBignumBin2bn_injective {xs ys : Bytes} (hlen : xs.length = ys.length)
    (h : cryptoBignumBin2bn xs = cryptoBignumBin2bn ys) : xs = ys := by
  induction xs generalizing ys with
  | nil => exact (List.length_eq_zero.1 hlen.symm).symm
  | cons b bs ih =>
    obtain _ | ⟨c, cs⟩ := ys
    · simp at hlen
    · have hn : bs.length = cs.length := Nat.succ.inj hlen
      have hv := cryptoBignumBin2bn_lt bs
      have hv' := cryptoBignumBin2bn_lt cs
      have hP : 0 < 256 ^ cs.length := by positivity
      rw [cryptoBignumBin2bn_cons, cryptoBignumBin2bn_cons, hn, Nat.mul_comm b.toNat,
        Nat.mul_comm c.toNat] at h
      rw [hn] at hv
      have hb : b.toNat = c.toNat := by
        have hdiv := congrArg (· / 256 ^ cs.length) h
        simp only [Nat.mul_add_div hP, Nat.div_eq_of_lt hv, Nat.div_eq_of_lt hv',
          Nat.add_zero] at hdiv
        exact hdiv
      rw [UInt8.toNat.inj hb, ih hn (by rw [hb] at h; omega)]

/-- `crypto_bignum_bin2bn` undoes `crypto_bignum_bn2bin`. -/
@[simp]
theorem cryptoBignumBin2bn_bn2bin (v : Nat) : cryptoBignumBin2bn (cryptoBignumBn2bin v) = v := by
  have hd : ∀ d ∈ Nat.digits 256 v, d % 256 = d :=
    fun d hd => Nat.mod_eq_of_lt (Nat.digits_lt_base (by norm_num) hd)
  have hmap : (Nat.digits 256 v).map (fun d => d % 256) = Nat.digits 256 v := by
    conv_rhs => rw [← List.map_id (Nat.digits 256 v)]
    exact List.map_congr_left hd
  simp only [cryptoBignumBin2bn, cryptoBignumBn2bin, List.reverse_reverse, List.map_map]
  exact (congrArg (Nat.ofDigits 256) hmap).trans (Nat.ofDigits_digits 256 v)

theorem cryptoBignumNumBytes_pow (k : Nat) : cryptoBignumNumBytes (256 ^ k) = k + 1 := by
  rw [cryptoBignumNumBytes, Nat.digits_len 256 _ (by norm_num) (by positivity),
    Nat.log_pow (by norm_num)]

/-- A value fits `w` bytes exactly when it is below `256 ^ w`. -/
theorem cryptoBignumNumBytes_le_iff (v w : Nat) :
    cryptoBignumNumBytes v ≤ w ↔ v < 256 ^ w := by
  constructor
  · intro h
    exact (Nat.lt_base_pow_length_digits (by norm_num)).trans_le
      (Nat.pow_le_pow_right (by norm_num) h)
  · intro h
    by_contra hlt
    have hv : v ≠ 0 := by
      rintro rfl
      simp [cryptoBignumNumBytes] at hlt
    have hle := Nat.base_pow_length_digits_le 256 v (by norm_num) hv
    have hw : 256 ^ (w + 1) ≤ 256 ^ cryptoBignumNumBytes v :=
      Nat.pow_le_pow_right (by norm_num) (by omega)
    rw [pow_succ] at hw
    unfold cryptoBignumNumBytes at hw
    omega

end CryptoDrivers
