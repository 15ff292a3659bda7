import CryptoDrivers.Dcp.Utils

/-!
# The aligned allocator's layout

`ROUNDUP` masks with `~(size - 1)`, which for a power of two clears the low bits
(`roundup_eq`): the result is always a multiple of the cache line, and when `v + size - 1`
fits a `size_t` it is `v` rounded up. The cache line `read_cacheline_size` returns is
`4 << k` with `k < 16`, a power of two, and so is `MEM_HDR_SIZE`.

When the request leaves room for two cache lines and the header below `2 ^ w`, every sum
fits, `calloc` is asked for `cl + ROUNDUP(size + MEM_HDR_SIZE, cl)` bytes (a line more when
`size` is one line), and on a block aligned as `calloc` aligns it the returned address is a
line boundary, the header lies in the block below it, every cache line of the buffer lies in
the block, and `dcp_free_memalign` frees the block (`dcpAllocMemalign_layout`). The block is
never lost by `dcp_calloc_align_buf`: the caller gets a buffer whose `dcp_free` frees it, or it
was handed to `free` when `virt_to_phys` failed (`dcpCallocAlignBuf_owns_block`).

Near `SIZE_MAX` the `ROUNDUP` itself wraps, which neither `ADD_OVERFLOW` sees: a request of
`SIZE_MAX - MEM_HDR_SIZE` bytes is served from a block of one cache line
(`dcpAllocMemalign_roundup_wraps`).
-/

namespace CryptoDrivers.Dcp

section Roundup

/-- Masking with `~(2 ^ k - 1)` in `w` bits clears the low `k` bits. -/
theorem and_not_mask {w k x : Nat} (hk : k ≤ w) (hx : x < 2 ^ w) :
    x &&& (2 ^ w - 1 - (2 ^ k - 1)) = x / 2 ^ k * 2 ^ k := by
  have hm : 2 ^ w - 1 - (2 ^ k - 1) = (2 ^ (w - k) - 1) <<< k := by
    have h1 := Nat.one_le_two_pow (n := k)
    have h2 : 2 ^ w = 2 ^ (w - k) * 2 ^ k := by rw [← Nat.pow_add, Nat.sub_add_cancel hk]
    have h3 := Nat.one_le_two_pow (n := w - k)
    rw [Nat.shiftLeft_eq, h2, Nat.sub_mul, Nat.one_mul]
    omega
  rw [hm, ← Nat.shiftRight_eq_div_pow, ← Nat.shiftLeft_eq]
  apply Nat.eq_of_testBit_eq
  intro i
  simp only [Nat.testBit_land, Nat.testBit_shiftLeft, Nat.testBit_two_pow_sub_one,
    Nat.testBit_shiftRight]
  by_cases hik : k ≤ i
  · rw [show k + (i - k) = i by omega]
    by_cases hiw : i < w
    · simp [hik, show i - k < w - k by omega]
    · have : x < 2 ^ i := lt_of_lt_of_le hx (Nat.pow_le_pow_right (by decide) (by omega))
      simp [hik, Nat.testBit_lt_two_pow this]
  · simp [show ¬ i ≥ k by omega]

/-- `ROUNDUP` to a power of two: the wrapped sum with its low bits cleared. -/
theorem roundup_eq {w k : Nat} (hk : k ≤ w) (v : Nat) :
    roundup w v (2 ^ k) = (v + (2 ^ k - 1)) % 2 ^ w / 2 ^ k * 2 ^ k :=
  and_not_mask hk (Nat.mod_lt _ (Nat.two_pow_pos w))

/-- Without wrapping, `ROUNDUP` is the least multiple of `size` at or above `v`. -/
theorem roundup_of_lt {w k v : Nat} (hk : k ≤ w) (hv : v + (2 ^ k - 1) < 2 ^ w) :
    roundup w v (2 ^ k) = (v + (2 ^ k - 1)) / 2 ^ k * 2 ^ k := by
  rw [roundup_eq hk, Nat.mod_eq_of_lt hv]

theorem le_roundUp (v c : Nat) (hc : 0 < c) : v ≤ (v + (c - 1)) / c * c := by
  have := Nat.div_add_mod (v + (c - 1)) c
  have := Nat.mod_lt (v + (c - 1)) hc
  rw [Nat.mul_comm]
  omega

theorem roundUp_lt (v c : Nat) (hc : 0 < c) : (v + (c - 1)) / c * c < v + c := by
  have := Nat.div_mul_le_self (v + (c - 1)) c
  omega

theorem roundUp_mono {v v' : Nat} (c : Nat) (h : v ≤ v') :
    (v + (c - 1)) / c * c ≤ (v' + (c - 1)) / c * c :=
  Nat.mul_le_mul_right _ (Nat.div_le_div_right (by omega))

/-- Adding a multiple of `c` commutes with rounding up to `c`. -/
theorem roundUp_add_dvd {v a c : Nat} (hc : 0 < c) (ha : c ∣ a) :
    (a + v + (c - 1)) / c * c = a + (v + (c - 1)) / c * c := by
  obtain ⟨m, rfl⟩ := ha
  rw [Nat.add_assoc, Nat.mul_add_div hc, Nat.add_mul, Nat.mul_comm m c]

/-- Below a multiple `M` of `c`, a line `[a / c * c, a / c * c + c)` ends at `M` or before. -/
theorem line_end_le {a c M : Nat} (hc : 0 < c) (hM : c ∣ M) (ha : a < M) :
    a / c * c + c ≤ M := by
  obtain ⟨m, rfl⟩ := hM
  have : a / c < m := (Nat.div_lt_iff_lt_mul hc).2 (by rwa [Nat.mul_comm] at ha)
  calc a / c * c + c = (a / c + 1) * c := by ring
    _ ≤ m * c := Nat.mul_le_mul_right _ this
    _ = c * m := Nat.mul_comm _ _

/-- Of two multiples of `h` below a multiple `c` of `h`, apart by less than `c`, the gap is at
most `c - h`. -/
theorem gap_le {d c h : Nat} (hd : h ∣ d) (hc : h ∣ c) (hlt : d < c) :
    d ≤ c - h := by
  obtain ⟨a, rfl⟩ := hd
  obtain ⟨b, rfl⟩ := hc
  have : a < b := Nat.lt_of_mul_lt_mul_left hlt
  have : h * (a + 1) ≤ h * b := Nat.mul_le_mul_left _ this
  rw [Nat.mul_add, Nat.mul_one] at this
  omega

end Roundup

section Sizes

theorem readCachelineSize_eq (ctr : Nat) :
    ∃ k, 2 ≤ k ∧ k ≤ 17 ∧ readCachelineSize ctr = 2 ^ k := by
  have hj : (ctr >>> ctrDminlineShift) &&& ctrDminlineMask < 16 := by
    rw [show ctrDminlineMask = 2 ^ 4 - 1 from rfl, Nat.and_pow_two_sub_one_eq_mod]
    exact Nat.mod_lt _ (by decide)
  refine ⟨((ctr >>> ctrDminlineShift) &&& ctrDminlineMask) + 2, by omega, by omega, ?_⟩
  rw [readCachelineSize, Nat.shiftLeft_eq, ctrWordSize, Nat.pow_add, Nat.mul_comm]

theorem memHdrSize_eq (abi : Abi) :
    ∃ h, memHdrSize abi = 2 ^ h ∧ h ≤ 4 ∧ 32 ≤ abi.bits := by
  cases abi
  · exact ⟨3, by decide, by decide, by decide⟩
  · exact ⟨4, by decide, by decide, by decide⟩

end Sizes

section Layout

variable {abi : Abi} {ctr size : Nat}

/-- With room for two cache lines and the header, every `ADD_OVERFLOW` passes and `ROUNDUP`
does not wrap: `calloc` is asked for a line more than the buffer and header rounded up to a
line, and a line more again when `size` is one line. -/
theorem dcpAllocSize_of_room {k : Nat} (hk : k ≤ 17) (hcl : readCachelineSize ctr = 2 ^ k)
    (hsize : size + memHdrSize abi + 2 * 2 ^ k < 2 ^ abi.bits) :
    ∃ a2, size + memHdrSize abi ≤ a2 ∧
      dcpAllocSize abi ctr size = some (2 ^ k + (a2 + (2 ^ k - 1)) / 2 ^ k * 2 ^ k) := by
  obtain ⟨h, hH, hh, hw⟩ := memHdrSize_eq abi
  have hkw : k ≤ abi.bits := by omega
  have hcl17 : 2 ^ k ≤ 2 ^ 17 := Nat.pow_le_pow_right (by decide) hk
  have hw32 : 2 ^ 32 ≤ 2 ^ abi.bits := Nat.pow_le_pow_right (by decide) hw
  have hH16 : 2 ^ h ≤ 2 ^ 4 := Nat.pow_le_pow_right (by decide) hh
  have hpos := Nat.two_pow_pos k
  refine ⟨if size = 2 ^ k then size + memHdrSize abi + 2 ^ k else size + memHdrSize abi,
    by split <;> omega, ?_⟩
  have hlt := roundUp_lt (if size = 2 ^ k then size + memHdrSize abi + 2 ^ k
    else size + memHdrSize abi) (2 ^ k) hpos
  by_cases hs : size = 2 ^ k
  · simp only [hs, if_true] at hlt ⊢
    rw [dcpAllocSize, hcl, addOverflow, if_pos (by omega)]
    simp only [Option.pure_def, Option.bind_eq_bind, Option.some_bind, if_true, addOverflow]
    rw [if_pos (by omega), Option.some_bind, roundup_of_lt hkw (by omega), if_pos (by omega)]
  · simp only [hs, if_false] at hlt ⊢
    rw [dcpAllocSize, hcl, addOverflow, if_pos (by omega)]
    simp only [Option.pure_def, Option.bind_eq_bind, Option.some_bind, hs, if_false, addOverflow]
    rw [roundup_of_lt hkw (by omega), if_pos (by omega)]

theorem le_div_mul_of_dvd {r a c : Nat} (hc : 0 < c) (hr : c ∣ r) (h : r ≤ a) :
    r ≤ a / c * c := by
  obtain ⟨m, rfl⟩ := hr
  rw [Nat.mul_comm]
  exact Nat.mul_le_mul_right _ ((Nat.le_div_iff_mul_le hc).2 (by rwa [Nat.mul_comm]))

/-- The returned address and a rounded-up buffer end inside the block: past the header the
address moves by less than a line, and by a multiple of the header size when the header divides
the line, or not at all when the line divides the header. -/
theorem ret_add_roundUp_le {c H ptr size a2 : Nat} (hc : 0 < c) (hptr : H ∣ ptr)
    (hHc : H ∣ c ∨ c ∣ H) (ha2 : size + H ≤ a2) :
    (ptr + H + (c - 1)) / c * c + (size + (c - 1)) / c * c ≤
      ptr + (c + (a2 + (c - 1)) / c * c) := by
  have hmono := roundUp_mono c ha2
  rcases hHc with hdvd | hdvd
  · have hret := le_roundUp (ptr + H) c hc
    have hgap := gap_le (d := (ptr + H + (c - 1)) / c * c - (ptr + H))
      (Nat.dvd_sub' (hdvd.trans (Nat.dvd_mul_left _ _)) (Nat.dvd_add hptr dvd_rfl)) hdvd
      (by have := roundUp_lt (ptr + H) c hc; omega)
    have := roundUp_mono c (show size ≤ size + H by omega)
    have := Nat.le_of_dvd hc hdvd
    omega
  · have hret := roundUp_add_dvd (v := 0) hc (Nat.dvd_add (hdvd.trans hptr) hdvd)
    have hsum := roundUp_add_dvd (v := size) hc hdvd
    simp only [Nat.add_zero, Nat.zero_add, Nat.div_eq_of_lt (Nat.sub_lt hc Nat.one_pos),
      Nat.zero_mul] at hret
    rw [Nat.add_comm H size] at hsum
    omega

/-- With room for two cache lines and the header below `2 ^ w`, and `calloc` returning blocks
aligned to `MEM_HDR_SIZE`, `dcp_alloc_memalign` asks a size without overflow and, given a block,
returns a cache-line boundary; the header below it lies in the block, every cache line holding a
byte of the buffer lies in the block, and `dcp_free_memalign` hands the block back to `free`. -/
theorem dcpAllocMemalign_layout (calloc : (n : Nat) → Option (Block abi.bits n)) (hdrs : Hdrs)
    (haligned : ∀ n blk, calloc n = some blk → blk.ptr % memHdrSize abi = 0)
    (hsize : size + memHdrSize abi + 2 * readCachelineSize ctr < 2 ^ abi.bits) :
    ∃ allocSize, dcpAllocSize abi ctr size = some allocSize ∧
      ∀ blk, calloc allocSize = some blk →
        ∃ ret hdrs', dcpAllocMemalign abi ctr calloc hdrs size = some (ret, hdrs') ∧
          ret % readCachelineSize ctr = 0 ∧
          blk.ptr ≤ ofMemHdr abi ret ∧ ofMemHdr abi ret + memHdrSize abi = ret ∧
          ret ≤ blk.ptr + allocSize ∧
          (∀ a, ret ≤ a → a < ret + size →
            blk.ptr ≤ a / readCachelineSize ctr * readCachelineSize ctr ∧
            a / readCachelineSize ctr * readCachelineSize ctr + readCachelineSize ctr ≤
              blk.ptr + allocSize) ∧
          dcpFreeMemalign abi hdrs' ret = some blk.ptr := by
  obtain ⟨k, -, hk, hcl⟩ := readCachelineSize_eq ctr
  obtain ⟨h, hH, -, hw⟩ := memHdrSize_eq abi
  rw [hcl] at hsize ⊢
  obtain ⟨a2, ha2, hsz⟩ := dcpAllocSize_of_room hk hcl hsize
  refine ⟨_, hsz, fun blk hblk => ?_⟩
  have hpos := Nat.two_pow_pos k
  have hfits := blk.fits
  have hptr := blk.ptr_pos
  have ha2le := le_roundUp a2 (2 ^ k) hpos
  have hretge := le_roundUp (blk.ptr + memHdrSize abi) (2 ^ k) hpos
  have hretlt := roundUp_lt (blk.ptr + memHdrSize abi) (2 ^ k) hpos
  have hHc : memHdrSize abi ∣ 2 ^ k ∨ 2 ^ k ∣ memHdrSize abi := by
    rw [hH]
    rcases Nat.le_total h k with hhk | hkh
    · exact .inl (Nat.pow_dvd_pow 2 hhk)
    · exact .inr (Nat.pow_dvd_pow 2 hkh)
  have hkey := ret_add_roundUp_le hpos
    (Nat.dvd_of_mod_eq_zero (haligned _ _ hblk)) hHc ha2
  have hret : roundup abi.bits ((blk.ptr + memHdrSize abi) % 2 ^ abi.bits) (2 ^ k) =
      (blk.ptr + memHdrSize abi + (2 ^ k - 1)) / 2 ^ k * 2 ^ k := by
    rw [Nat.mod_eq_of_lt (by omega), roundup_of_lt (by omega) (by omega)]
  set ret := (blk.ptr + memHdrSize abi + (2 ^ k - 1)) / 2 ^ k * 2 ^ k with hret_def
  have hhdr : ofMemHdr abi ret = ret - memHdrSize abi := by
    rw [ofMemHdr, show ret + 2 ^ abi.bits - memHdrSize abi = ret - memHdrSize abi + 2 ^ abi.bits
      by omega, Nat.add_mod_right, Nat.mod_eq_of_lt (by omega)]
  have hdvd : 2 ^ k ∣ ret := Nat.dvd_mul_left _ _
  refine ⟨ret, Function.update hdrs (ofMemHdr abi ret)
    (some ⟨blk.ptr, 2 ^ k + (a2 + (2 ^ k - 1)) / 2 ^ k * 2 ^ k⟩), ?_, Nat.mod_eq_zero_of_dvd hdvd,
    by omega, by omega, by omega, fun a ha1 ha2' => ⟨?_, ?_⟩, ?_⟩
  · simp [dcpAllocMemalign, hsz, hblk, hcl, hret]
  · exact le_trans (by omega) (le_div_mul_of_dvd hpos hdvd ha1)
  · have hsize_le := le_roundUp size (2 ^ k) hpos
    exact le_trans (line_end_le hpos (Nat.dvd_add hdvd (Nat.dvd_mul_left _ _)) (by omega)) hkey
  · simp [dcpFreeMemalign, show ret ≠ 0 by omega]

/-- A heap that serves every request that fits from the address `base`. -/
def heapAt (abi : Abi) (base : Nat) (hbase : 0 < base) : (n : Nat) → Option (Block abi.bits n) :=
  fun n => if h : base + n ≤ 2 ^ abi.bits then some ⟨base, hbase, h⟩ else none

theorem dcpAllocMemalign_layout_arm64 :
    (∀ n blk, heapAt .arm64 4096 (by decide) n = some blk → blk.ptr % memHdrSize .arm64 = 0) ∧
      100 + memHdrSize .arm64 + 2 * readCachelineSize 0x40000 < 2 ^ Abi.arm64.bits ∧
      ∃ ret hdrs', dcpAllocMemalign .arm64 0x40000 (heapAt .arm64 4096 (by decide))
        (fun _ => none) 100 = some (ret, hdrs') ∧ ret % 64 = 0 ∧
        dcpFreeMemalign .arm64 hdrs' ret = some 4096 := by
  have haligned : ∀ n blk, heapAt .arm64 4096 (by decide) n = some blk →
      blk.ptr % memHdrSize .arm64 = 0 := by
    intro n blk h
    simp only [heapAt] at h
    split at h
    · cases h
      show 4096 % memHdrSize .arm64 = 0
      decide
    · cases h
  have hsize : 100 + memHdrSize .arm64 + 2 * readCachelineSize 0x40000 < 2 ^ Abi.arm64.bits := by
    decide
  obtain ⟨n, hn, hlay⟩ := dcpAllocMemalign_layout (heapAt .arm64 4096 (by decide)) (fun _ => none)
    haligned hsize
  have hn' : n = 192 := Option.some.inj (hn.symm.trans (by decide))
  subst hn'
  obtain ⟨ret, hdrs', hrun, hmod, -, -, -, -, hfree⟩ := hlay ⟨4096, by decide, by decide⟩ rfl
  exact ⟨haligned, hsize, ret, hdrs', hrun, hmod, hfree⟩

/-- With room for two cache lines and the header below `2 ^ w`, `dcp_calloc_align_buf` leaves
the block `calloc` gives it owned: it either succeeds with a record of the buffer, its physical
address and `size`, whose `dcp_free` hands the block back to `free`, or, when `virt_to_phys`
finds no mapping, fails after handing the block to `free` itself. -/
theorem dcpCallocAlignBuf_owns_block (calloc : (n : Nat) → Option (Block abi.bits n))
    (virtToPhys : Nat → Nat) (hdrs : Hdrs) (b : AlignBuf)
    (hsize : size + memHdrSize abi + 2 * readCachelineSize ctr < 2 ^ abi.bits) :
    ∃ allocSize, dcpAllocSize abi ctr size = some allocSize ∧
      ∀ blk, calloc allocSize = some blk →
        let r := dcpCallocAlignBuf abi ctr calloc virtToPhys hdrs (some b) size
        (r.1 = teeSuccess ∧ ∃ data, r.2.1 = some ⟨data, virtToPhys data, size⟩ ∧
          virtToPhys data ≠ 0 ∧ dcpFree abi r.2.2.1 data = some blk.ptr) ∨
        (r.1 = teeErrorOutOfMemory ∧ r.2.2.2 = some blk.ptr) := by
  obtain ⟨k, -, hk, hcl⟩ := readCachelineSize_eq ctr
  obtain ⟨h, -, -, hw⟩ := memHdrSize_eq abi
  rw [hcl] at hsize
  obtain ⟨a2, ha2, hsz⟩ := dcpAllocSize_of_room hk hcl hsize
  refine ⟨_, hsz, fun blk hblk => ?_⟩
  have hpos := Nat.two_pow_pos k
  have hfits := blk.fits
  have hptr := blk.ptr_pos
  have ha2le := le_roundUp a2 (2 ^ k) hpos
  have hretge := le_roundUp (blk.ptr + memHdrSize abi) (2 ^ k) hpos
  have hret : roundup abi.bits ((blk.ptr + memHdrSize abi) % 2 ^ abi.bits) (2 ^ k) =
      (blk.ptr + memHdrSize abi + (2 ^ k - 1)) / 2 ^ k * 2 ^ k := by
    rw [Nat.mod_eq_of_lt (by omega), roundup_of_lt (by omega) (by omega)]
  set ret := (blk.ptr + memHdrSize abi + (2 ^ k - 1)) / 2 ^ k * 2 ^ k
  have hne : ret ≠ 0 := by omega
  by_cases hv : virtToPhys ret = 0
  · right
    simp [dcpCallocAlignBuf, dcpAllocMemalign, hsz, hblk, hcl, hret, hne, hv, dcpFree,
      dcpFreeMemalign]
  · left
    refine ⟨?_, ret, ?_, hv, ?_⟩ <;>
      simp [dcpCallocAlignBuf, dcpAllocMemalign, hsz, hblk, hcl, hret, hne, hv, dcpFree,
        dcpFreeMemalign]

theorem dcpCallocAlignBuf_owns_block_arm64 :
    100 + memHdrSize .arm64 + 2 * readCachelineSize 0x40000 < 2 ^ Abi.arm64.bits ∧
    ∃ allocSize, dcpAllocSize .arm64 0x40000 100 = some allocSize ∧
      ∀ blk, heapAt .arm64 4096 (by decide) allocSize = some blk →
        let r := dcpCallocAlignBuf .arm64 0x40000 (heapAt .arm64 4096 (by decide)) id
          (fun _ => none) (some ⟨0, 0, 0⟩) 100
        (r.1 = teeSuccess ∧ ∃ data, r.2.1 = some ⟨data, id data, 100⟩ ∧
          id data ≠ 0 ∧ dcpFree .arm64 r.2.2.1 data = some blk.ptr) ∨
        (r.1 = teeErrorOutOfMemory ∧ r.2.2.2 = some blk.ptr) :=
  have hsize : 100 + memHdrSize .arm64 + 2 * readCachelineSize 0x40000 < 2 ^ Abi.arm64.bits := by
    decide
  ⟨hsize, dcpCallocAlignBuf_owns_block (heapAt .arm64 4096 (by decide)) id (fun _ => none)
    ⟨0, 0, 0⟩ hsize⟩

end Layout

/-- On a 64-bit build with 64-byte lines, a request of `SIZE_MAX - MEM_HDR_SIZE` bytes passes
both `ADD_OVERFLOW` checks because `ROUNDUP(SIZE_MAX, 64)` wraps to `0`: `calloc` is asked for
one line, the address returned is the end of that block, and `dcp_calloc_align_buf` records the
full size for it. -/
theorem dcpAllocMemalign_roundup_wraps :
    dcpAllocSize .arm64 0x40000 (2 ^ 64 - 17) = some 64 ∧
      (∃ hdrs', dcpAllocMemalign .arm64 0x40000 (heapAt .arm64 4096 (by decide)) (fun _ => none)
        (2 ^ 64 - 17) = some (4160, hdrs')) ∧
      4096 + 64 < 4160 + (2 ^ 64 - 17) ∧
      (dcpCallocAlignBuf .arm64 0x40000 (heapAt .arm64 4096 (by decide)) id (fun _ => none)
        (some ⟨0, 0, 0⟩) (2 ^ 64 - 17)).2.1 = some ⟨4160, 4160, 2 ^ 64 - 17⟩ :=
  ⟨by decide, ⟨_, rfl⟩, by decide, rfl⟩

end CryptoDrivers.Dcp
