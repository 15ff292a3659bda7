import CryptoDrivers.Dcp.Utils

/-!
# The loops of the DCP utilities

`left_shift_buffer` computes, from the last byte to the first, each byte shifted left by one with
the top bit of the byte after it carried in. Read from the front, that is `shiftLeftOne`, and
`shiftLeftOne` doubles the big-endian value, the top bit falling out (`shiftLeftOne_value`).

The loop refines `shiftLeftOne`: after `k` passes the counter is `k`, the carried bit is the one
`shiftLeftOne` carries out of the last `k` input bytes, and `result` ends with their doubled
bytes (`leftShiftStep_shiftInv`). With its `unsigned int` counter the loop does so only while the
buffer has fewer than `2 ^ 32` bytes, where it makes exactly `buffer_size` passes
(`leftShiftLoop_iterations`); from `2 ^ 32` bytes on the counter wraps before reaching
`buffer_size` and the loop never exits (`leftShiftLoop_wraps`).

`dcp_udelay` spins `time * 500` times, a product taken in `uint32_t`: the delay is the one asked
for only below `8589935` microseconds, and from there on it wraps to a shorter one
(`dcpUdelay_passes`).
-/

namespace CryptoDrivers.Dcp

/-- Doubling a big-endian byte string: the doubled bytes, and the bit carried out of the first
byte. -/
def shiftLeftOne : Bytes → Bytes × Nat
  | [] => ([], 0)
  | b :: bs =>
    (UInt8.ofNat (2 * b.toNat % 256 + (shiftLeftOne bs).2) :: (shiftLeftOne bs).1, b.toNat / 128)

section Bytes

theorem toNat_lt_256 (b : UInt8) : b.toNat < 256 := UInt8.toNat_lt_size b

theorem shiftLeftOne_carry_le (bs : Bytes) : (shiftLeftOne bs).2 ≤ 1 := by
  cases bs with
  | nil => simp [shiftLeftOne]
  | cons b bs =>
    have := toNat_lt_256 b
    simp only [shiftLeftOne]
    omega

@[simp]
theorem length_shiftLeftOne (bs : Bytes) : (shiftLeftOne bs).1.length = bs.length := by
  induction bs with
  | nil => rfl
  | cons b bs ih => simp [shiftLeftOne, ih]

theorem shiftLeftOne_byte (b : UInt8) (bs : Bytes) :
    (UInt8.ofNat (2 * b.toNat % 256 + (shiftLeftOne bs).2)).toNat =
      2 * b.toNat % 256 + (shiftLeftOne bs).2 := by
  have := shiftLeftOne_carry_le bs
  show (2 * b.toNat % 256 + (shiftLeftOne bs).2) % 256 = _
  omega

/-- The doubled bytes and the carried bit make twice the value. -/
theorem shiftLeftOne_value (bs : Bytes) :
    cryptoBignumBin2bn (shiftLeftOne bs).1 + (shiftLeftOne bs).2 * 256 ^ bs.length =
      2 * cryptoBignumBin2bn bs := by
  induction bs with
  | nil => simp [shiftLeftOne]
  | cons b bs ih =>
    have key : 2 * b.toNat = 2 * b.toNat % 256 + 256 * (b.toNat / 128) := by
      have := toNat_lt_256 b
      omega
    simp only [shiftLeftOne, cryptoBignumBin2bn_cons, shiftLeftOne_byte, length_shiftLeftOne,
      List.length_cons, pow_succ]
    calc (2 * b.toNat % 256 + (shiftLeftOne bs).2) * 256 ^ bs.length
          + cryptoBignumBin2bn (shiftLeftOne bs).1 + b.toNat / 128 * (256 ^ bs.length * 256)
        = (2 * b.toNat % 256 + 256 * (b.toNat / 128)) * 256 ^ bs.length
          + (cryptoBignumBin2bn (shiftLeftOne bs).1 + (shiftLeftOne bs).2 * 256 ^ bs.length) := by
          ring
      _ = 2 * (b.toNat * 256 ^ bs.length + cryptoBignumBin2bn bs) := by rw [← key, ih]; ring

theorem cryptoBignumBin2bn_shiftLeftOne (bs : Bytes) :
    cryptoBignumBin2bn (shiftLeftOne bs).1 = 2 * cryptoBignumBin2bn bs % 256 ^ bs.length := by
  have hlt := cryptoBignumBin2bn_lt (shiftLeftOne bs).1
  rw [length_shiftLeftOne] at hlt
  rw [← shiftLeftOne_value, Nat.add_mul_mod_self_right, Nat.mod_eq_of_lt hlt]

end Bytes

section Loop

variable (input result : Bytes)

/-- The shifted byte `left_shift_buffer` stores, for an input byte `b` and a carried bit. -/
theorem shifted_byte (b c : Nat) (hc : c ≤ 1) :
    (if c ≠ 0 then ((b <<< 1) &&& 0xFF) ||| c else (b <<< 1) &&& 0xFF) = 2 * b % 256 + c := by
  have hshl : (b <<< 1) &&& 0xFF = 2 * b % 256 := by
    rw [Nat.shiftLeft_eq, show (0xFF : Nat) = 2 ^ 8 - 1 by rfl, Nat.and_pow_two_sub_one_eq_mod]
    omega
  rw [hshl]
  rcases (show c = 0 ∨ c = 1 by omega) with rfl | rfl
  · simp
  · have h1 : 2 * b % 256 = Nat.bit false (2 * b % 256 / 2) := by simp [Nat.bit]; omega
    simp only [ne_eq, one_ne_zero, not_false_eq_true, if_true]
    rw [h1, show (1 : Nat) = Nat.bit true 0 from rfl, Nat.lor_bit]
    simp [Nat.bit]

/-- The bit `left_shift_buffer` carries out of an input byte: its top bit. -/
theorem carried_bit (b : Nat) (hb : b < 256) : (b &&& 0x80) >>> 7 = b / 128 := by
  rw [show (0x80 : Nat) = 2 ^ 7 by rfl, Nat.and_two_pow, Nat.shiftRight_eq_div_pow,
    Nat.mul_div_cancel _ (Nat.two_pow_pos 7), Nat.testBit_to_div_mod,
    show (2 : Nat) ^ 7 = 128 by rfl]
  rcases (show b / 128 = 0 ∨ b / 128 = 1 by omega) with h | h <;> simp [h]

/-- The loop state after `k` passes over an `n`-byte buffer. -/
def shiftInv (n k : Nat) : ShiftState where
  i := k
  msb := (shiftLeftOne (input.drop (n - k))).2
  result := result.take (n - k) ++ (shiftLeftOne (input.drop (n - k))).1

/-- Before the first pass the state is the one the loop starts in. -/
theorem shiftInv_start {n : Nat} (hin : input.length = n) (hres : result.length = n) :
    shiftInv input result n (n - n) = ⟨0, 0, result⟩ := by
  simp [shiftInv, shiftLeftOne, List.drop_of_length_le (le_of_eq hin),
    List.take_of_length_le (le_of_eq hres)]

theorem take_succ_set (l : Bytes) (j : Nat) (v : UInt8) (r : Bytes) (hj : j < l.length) :
    (l.take (j + 1) ++ r).set j v = l.take j ++ v :: r := by
  rw [List.take_succ, List.getElem?_eq_getElem hj, Option.toList_some, List.append_assoc,
    List.singleton_append, List.set_append_right _ _ (by simp)]
  simp [Nat.min_eq_left hj.le]

/-- One pass keeps the correspondence with `shiftLeftOne`. -/
theorem leftShiftStep_shiftInv {n k : Nat} (hin : input.length = n) (hres : result.length = n)
    (hn : n < 2 ^ 32) (hk : k < n) :
    leftShiftStep input n (shiftInv input result n k) = shiftInv input result n (k + 1) := by
  have hj : n - 1 - k < input.length := by omega
  have hdrop : input.drop (n - (k + 1)) = input[n - 1 - k] :: input.drop (n - k) := by
    rw [show n - (k + 1) = n - 1 - k by omega, List.drop_eq_getElem_cons hj]
    congr 2
    omega
  simp only [leftShiftStep, shiftInv, hdrop, shiftLeftOne, List.getD_eq_getElem?_getD,
    List.getElem?_eq_getElem hj, Option.getD_some,
    shifted_byte _ _ (shiftLeftOne_carry_le _), carried_bit _ (toNat_lt_256 _)]
  rw [show n - k = n - 1 - k + 1 by omega, take_succ_set _ _ _ _ (by omega),
    Nat.mod_eq_of_lt (by omega : k + 1 < 2 ^ 32), show n - (k + 1) = n - 1 - k by omega]

/-- From the state after `n - m` passes, `m + 1` tests of the condition end the loop in the state
after `n` passes. -/
theorem leftShiftLoop_shiftInv {n : Nat} (hin : input.length = n) (hres : result.length = n)
    (hn : n < 2 ^ 32) :
    ∀ m ≤ n, leftShiftLoop input n (m + 1) (shiftInv input result n (n - m)) =
      some (shiftInv input result n n)
  | 0, _ => by simp [leftShiftLoop, shiftInv]
  | m + 1, hm => by
    rw [leftShiftLoop, if_pos (by simp only [shiftInv]; omega),
      leftShiftStep_shiftInv input result hin hres hn (by omega),
      show n - (m + 1) + 1 = n - m by omega]
    exact leftShiftLoop_shiftInv hin hres hn m (by omega)

/-- For every buffer the counter can index, `left_shift_buffer` exits with the input doubled:
as big-endian numbers, the result is twice the input modulo `256 ^ n`. -/
theorem leftShiftBuffer_doubles (n : Nat) (hn : n < 2 ^ 32) (hin : input.length = n)
    (hres : result.length = n) :
    ∃ r, leftShiftBuffer input result n = some r ∧ r.length = n ∧
      cryptoBignumBin2bn r = 2 * cryptoBignumBin2bn input % 256 ^ n := by
  have hrun := leftShiftLoop_shiftInv input result hin hres hn n le_rfl
  rw [shiftInv_start input result hin hres] at hrun
  refine ⟨_, by rw [leftShiftBuffer, hrun]; rfl, ?_, ?_⟩
  · simp [shiftInv, hin]
  · simp [shiftInv, cryptoBignumBin2bn_shiftLeftOne, hin]

theorem leftShiftBuffer_doubles_three :
    3 < 2 ^ 32 ∧ [0x80, 0x01, 0xFF].length = 3 ∧ [0, 0, 0].length = 3 ∧
      ∃ r, leftShiftBuffer [0x80, 0x01, 0xFF] [0, 0, 0] 3 = some r ∧ r.length = 3 ∧
        cryptoBignumBin2bn r = 2 * cryptoBignumBin2bn [0x80, 0x01, 0xFF] % 256 ^ 3 :=
  ⟨by decide, rfl, rfl, leftShiftBuffer_doubles _ _ 3 (by decide) rfl rfl⟩

/-- Once the counter is below `2 ^ 32` and `buffer_size` is at least `2 ^ 32`, the condition
`i < buffer_size` holds at every test: the loop never exits, whatever the fuel. -/
theorem leftShiftLoop_none_of_le {n : Nat} (hn : 2 ^ 32 ≤ n) :
    ∀ (fuel : Nat) (s : ShiftState), s.i < 2 ^ 32 → leftShiftLoop input n fuel s = none
  | 0, _, _ => rfl
  | fuel + 1, s, hs => by
    rw [leftShiftLoop, if_pos (by omega)]
    exact leftShiftLoop_none_of_le hn fuel _ (Nat.mod_lt _ (by norm_num))

/-- On a 64-bit build a `buffer_size` of `2 ^ 32` is a `size_t`; the `unsigned int` counter wraps
to `0` after `UINT_MAX` and `left_shift_buffer` loops forever. -/
theorem leftShiftLoop_wraps :
    ∀ (input result : Bytes) (fuel : Nat),
      2 ^ 32 < 2 ^ Abi.arm64.bits ∧ leftShiftLoop input (2 ^ 32) fuel ⟨0, 0, result⟩ = none :=
  fun input result fuel =>
    ⟨by decide, leftShiftLoop_none_of_le input le_rfl fuel _ (by norm_num)⟩

/-- Below `2 ^ 32` bytes the loop tests its condition exactly `buffer_size + 1` times: it has
not exited after `buffer_size` tests, and exits at the next one with the counter at
`buffer_size`. -/
theorem leftShiftLoop_iterations (n : Nat) (hn : n < 2 ^ 32) (hin : input.length = n)
    (hres : result.length = n) :
    leftShiftLoop input n n ⟨0, 0, result⟩ = none ∧
      ∃ s, leftShiftLoop input n (n + 1) ⟨0, 0, result⟩ = some s ∧ s.i = n := by
  have hnone : ∀ m ≤ n, leftShiftLoop input n m (shiftInv input result n (n - m)) = none := by
    intro m
    induction m with
    | zero => intro _; rfl
    | succ m ih =>
      intro hm
      rw [leftShiftLoop, if_pos (by simp only [shiftInv]; omega),
        leftShiftStep_shiftInv input result hin hres hn (by omega),
        show n - (m + 1) + 1 = n - m by omega]
      exact ih (by omega)
  rw [← shiftInv_start input result hin hres]
  exact ⟨hnone n le_rfl, _, leftShiftLoop_shiftInv input result hin hres hn n le_rfl, rfl⟩

theorem leftShiftLoop_iterations_three :
    3 < 2 ^ 32 ∧ [0x80, 0x01, 0xFF].length = 3 ∧ [0, 0, 0].length = 3 ∧
      (leftShiftLoop [0x80, 0x01, 0xFF] 3 3 ⟨0, 0, [0, 0, 0]⟩ = none ∧
        ∃ s, leftShiftLoop [0x80, 0x01, 0xFF] 3 (3 + 1) ⟨0, 0, [0, 0, 0]⟩ = some s ∧ s.i = 3) :=
  ⟨by decide, rfl, rfl, leftShiftLoop_iterations _ _ 3 (by decide) rfl rfl⟩

end Loop

section Udelay

/-- From a counter below `2 ^ 32`, the busy-wait makes as many passes as the counter holds. -/
theorem udelayLoop_eq : ∀ (c fuel : Nat), c < fuel → c < 2 ^ 32 → udelayLoop fuel c = some c
  | _, 0, h, _ => absurd h (Nat.not_lt_zero _)
  | 0, _ + 1, _, _ => rfl
  | c + 1, fuel + 1, h, hc => by
    rw [udelayLoop, if_neg (by omega), show (c + 1 + 2 ^ 32 - 1) % 2 ^ 32 = c by omega,
      udelayLoop_eq c fuel (by omega) (by omega)]
    rfl

/-- `dcp_udelay(time)` ends after `time * 500` passes taken modulo `2 ^ 32`: the `time * 500`
asked for exactly when `time` is below `8589935`, and fewer from there on. -/
theorem dcpUdelay_passes (time : UInt32) :
    dcpUdelay time = some (time.toNat * 500 % 2 ^ 32) ∧
      (dcpUdelay time = some (time.toNat * 500) ↔ time.toNat < 8589935) := by
  have hpass : dcpUdelay time = some (time.toNat * 500 % 2 ^ 32) :=
    udelayLoop_eq _ _ (Nat.mod_lt _ (by norm_num)) (Nat.mod_lt _ (by norm_num))
  refine ⟨hpass, ?_⟩
  rw [hpass, Option.some.injEq]
  have : time.toNat < 2 ^ 32 := time.toNat_lt_size
  omega

end Udelay

end CryptoDrivers.Dcp
