import CryptoDrivers.Dcp.Heap
import CryptoDrivers.Proofs.Memalign

/-!
# The aligned allocator over every run

`HeapOk` is what the allocator needs of a heap. Each buffer held is `Placed`: at a cache-line
boundary, with its header between the start of its block and the buffer and every cache line of
the buffer inside the block. The header below it records its block, and the blocks of the
buffers held are pairwise apart. Every allowed step keeps it and never takes the undefined
`free`. A new buffer's block is apart from the others by `calloc`'s contract, so its header is
none of theirs. A change of bytes inside one buffer touches lines of its own block at or above
the buffer, never a header. `dcp_free` takes one buffer out. So `HeapOk` holds in every reachable
heap (`heapOk_of_reachable`).

Over every run (`dcpHeap_runs_safe`), no allowed step frees an address at which no block in use
starts, and `dcp_free` of a buffer held hands `free` the block `calloc` returned for it. No cache
line holds bytes of two buffers held, or a byte of a buffer and a byte of a header. The last two
are what the alignment is for: cache maintenance and transfers on one buffer change neither
another buffer nor a header `dcp_free` will read.
-/

namespace CryptoDrivers.Dcp

/-- The blocks of two buffers held do not overlap. -/
def Held.Apart (l₁ l₂ : Held) : Prop :=
  l₁.blk + l₁.allocSize ≤ l₂.blk ∨ l₂.blk + l₂.allocSize ≤ l₁.blk

theorem Held.apart_symm : Symmetric Held.Apart := fun _ _ h => h.symm

/-- Where a held buffer lies: at a cache-line boundary, its header between the start of its
block and the buffer, every cache line of the buffer inside the block, and the block inside the
address space. -/
structure Placed (abi : Abi) (cl : Nat) (l : Held) : Prop where
  aligned : cl ∣ l.data
  header : l.blk + memHdrSize abi ≤ l.data
  lines : l.data + (l.size + (cl - 1)) / cl * cl ≤ l.blk + l.allocSize
  below : l.data < l.blk + l.allocSize
  fits : l.blk + l.allocSize ≤ 2 ^ abi.bits

/-- What the allocator needs of a heap. -/
structure HeapOk (abi : Abi) (cl : Nat) (s : Heap) : Prop where
  placed : ∀ l ∈ s.held, Placed abi cl l
  header : ∀ l ∈ s.held, s.hdrs (l.data - memHdrSize abi) = some ⟨l.blk, l.allocSize⟩
  apart : s.held.Pairwise Held.Apart

theorem memHdrSize_pos (abi : Abi) : 0 < memHdrSize abi := by
  cases abi <;> decide

theorem readCachelineSize_pos (ctr : Nat) : 0 < readCachelineSize ctr := by
  obtain ⟨k, -, -, hcl⟩ := readCachelineSize_eq ctr
  exact hcl ▸ Nat.two_pow_pos k

/-- Both are powers of two, so one divides the other. -/
theorem memHdrSize_dvd_or (abi : Abi) (k : Nat) :
    memHdrSize abi ∣ 2 ^ k ∨ 2 ^ k ∣ memHdrSize abi := by
  obtain ⟨h, hH, -, -⟩ := memHdrSize_eq abi
  rw [hH]
  rcases Nat.le_total h k with hhk | hkh
  · exact .inl (Nat.pow_dvd_pow 2 hhk)
  · exact .inr (Nat.pow_dvd_pow 2 hkh)

/-! ## A buffer in its block -/

section Placed

variable {abi : Abi} {cl : Nat} {l : Held}

theorem Placed.ofMemHdr_eq (hl : Placed abi cl l) :
    ofMemHdr abi l.data = l.data - memHdrSize abi := by
  have := hl.header
  have := hl.below
  have := hl.fits
  rw [ofMemHdr, show l.data + 2 ^ abi.bits - memHdrSize abi =
    l.data - memHdrSize abi + 2 ^ abi.bits by omega, Nat.add_mod_right, Nat.mod_eq_of_lt (by omega)]

/-- `dcp_free` of a placed buffer hands `free` what its header records. -/
theorem Placed.dcpFree_eq (hl : Placed abi cl l) {hdrs : Hdrs}
    (hh : hdrs (l.data - memHdrSize abi) = some ⟨l.blk, l.allocSize⟩) :
    dcpFree abi hdrs l.data = some l.blk := by
  have := hl.header
  have := memHdrSize_pos abi
  simp [dcpFree, dcpFreeMemalign, hl.ofMemHdr_eq, hh, show l.data ≠ 0 by omega]

/-- The line of a byte of the buffer starts at or above the buffer. -/
theorem Placed.data_le_line (hl : Placed abi cl l) (hc : 0 < cl) {a : Nat} (ha : l.data ≤ a) :
    l.data ≤ a / cl * cl :=
  le_div_mul_of_dvd hc hl.aligned ha

/-- The line of a byte of the buffer ends inside the block. -/
theorem Placed.line_end_le_block (hl : Placed abi cl l) (hc : 0 < cl) {a : Nat}
    (ha : a < l.data + l.size) : a / cl * cl + cl ≤ l.blk + l.allocSize := by
  have := le_roundUp l.size cl hc
  exact (line_end_le hc (Nat.dvd_add hl.aligned (Nat.dvd_mul_left _ _)) (by omega)).trans hl.lines

/-- Headers of buffers in blocks apart lie at different addresses. -/
theorem Placed.header_ne {l' : Held} (hl : Placed abi cl l) (hl' : Placed abi cl l')
    (hap : l.Apart l') : l.data - memHdrSize abi ≠ l'.data - memHdrSize abi := by
  have := hl.header
  have := hl.below
  have := hl'.header
  have := hl'.below
  unfold Held.Apart at hap
  omega

/-- A change inside the block of another buffer keeps the header. -/
theorem Placed.forget_apart {l' : Held} (hl : Placed abi cl l) (hap : l.Apart l') {lo hi : Nat}
    (hlo : l'.blk ≤ lo) (hhi : hi ≤ l'.blk + l'.allocSize) (hdrs : Hdrs) :
    forget abi hdrs lo hi (l.data - memHdrSize abi) = hdrs (l.data - memHdrSize abi) := by
  have := hl.header
  have := hl.below
  unfold Held.Apart at hap
  rw [forget, if_neg (by omega)]

/-- A change at or above the start of the buffer keeps its header. -/
theorem Placed.forget_own (hl : Placed abi cl l) {lo hi : Nat} (hlo : l.data ≤ lo) (hdrs : Hdrs) :
    forget abi hdrs lo hi (l.data - memHdrSize abi) = hdrs (l.data - memHdrSize abi) := by
  have := hl.header
  rw [forget, if_neg (by omega)]

end Placed

/-! ## The buffer a request gets -/

section Request

variable {abi : Abi} {ctr : Nat} {size : Nat}

theorem dcpAllocSize_isSome
    (hroom : size + memHdrSize abi + 2 * readCachelineSize ctr < 2 ^ abi.bits) :
    ∃ n, dcpAllocSize abi ctr size = some n := by
  obtain ⟨k, -, hk, hcl⟩ := readCachelineSize_eq ctr
  rw [hcl] at hroom
  obtain ⟨_, -, hsz⟩ := dcpAllocSize_of_room hk hcl hroom
  exact ⟨_, hsz⟩

/-- The address `dcp_alloc_memalign` returns in a block at `blk`. -/
def alignedRet (abi : Abi) (ctr blk : Nat) : Nat :=
  roundup abi.bits ((blk + memHdrSize abi) % 2 ^ abi.bits) (readCachelineSize ctr)

/-- With room for the header and two cache lines, the buffer `dcp_alloc_memalign` returns in a
block aligned as `malloc` aligns is placed in it. -/
theorem placed_alignedRet {n : Nat}
    (hroom : size + memHdrSize abi + 2 * readCachelineSize ctr < 2 ^ abi.bits)
    (hn : dcpAllocSize abi ctr size = some n) (blk : Block abi.bits n)
    (haligned : blk.ptr % memHdrSize abi = 0) :
    Placed abi (readCachelineSize ctr) ⟨alignedRet abi ctr blk.ptr, size, blk.ptr, n⟩ := by
  obtain ⟨k, -, hk, hcl⟩ := readCachelineSize_eq ctr
  obtain ⟨h, -, -, hw⟩ := memHdrSize_eq abi
  rw [hcl] at hroom
  obtain ⟨a2, ha2, hsz⟩ := dcpAllocSize_of_room hk hcl hroom
  obtain rfl := Option.some.inj (hsz.symm.trans hn)
  have hpos := Nat.two_pow_pos k
  have hfits := blk.fits
  have ha2le := le_roundUp a2 (2 ^ k) hpos
  have hretge := le_roundUp (blk.ptr + memHdrSize abi) (2 ^ k) hpos
  have hretlt := roundUp_lt (blk.ptr + memHdrSize abi) (2 ^ k) hpos
  have hkey := ret_add_roundUp_le hpos (Nat.dvd_of_mod_eq_zero haligned)
    (memHdrSize_dvd_or abi k) ha2
  have hret : alignedRet abi ctr blk.ptr =
      (blk.ptr + memHdrSize abi + (2 ^ k - 1)) / 2 ^ k * 2 ^ k := by
    rw [alignedRet, hcl, Nat.mod_eq_of_lt (by omega), roundup_of_lt (by omega) (by omega)]
  rw [hcl, hret]
  exact ⟨Nat.dvd_mul_left _ _, hretge, hkey, by dsimp only; omega, hfits⟩

variable (virtToPhys : Nat → Nat) (hdrs : Hdrs) (b : AlignBuf)

/-- `dcp_calloc_align_buf` when `calloc` returns `NULL`. -/
theorem dcpCallocAlignBuf_callocAt_null {n blk : Nat} (hn : dcpAllocSize abi ctr size = some n)
    (hblk : ¬(0 < blk ∧ blk + n ≤ 2 ^ abi.bits)) :
    dcpCallocAlignBuf abi ctr (callocAt abi blk) virtToPhys hdrs (some b) size =
      (teeErrorOutOfMemory, some { b with data := 0 }, hdrs, none) := by
  simp [dcpCallocAlignBuf, dcpAllocMemalign, hn, callocAt, hblk]

/-- `dcp_calloc_align_buf` when `calloc` returns the block at `blk`: the header written below
the buffer, and the block freed again when `virt_to_phys` finds no mapping. -/
theorem dcpCallocAlignBuf_callocAt {n blk : Nat} (hn : dcpAllocSize abi ctr size = some n)
    (hblk : 0 < blk ∧ blk + n ≤ 2 ^ abi.bits) (hret : alignedRet abi ctr blk ≠ 0) :
    dcpCallocAlignBuf abi ctr (callocAt abi blk) virtToPhys hdrs (some b) size =
      let ret := alignedRet abi ctr blk
      let hdrs' := Function.update hdrs (ofMemHdr abi ret) (some ⟨blk, n⟩)
      if virtToPhys ret = 0 then
        (teeErrorOutOfMemory, some { b with data := ret, paddr := 0 }, hdrs', some blk)
      else (teeSuccess, some ⟨ret, virtToPhys ret, size⟩, hdrs', none) := by
  unfold alignedRet at hret
  simp only [dcpCallocAlignBuf, dcpAllocMemalign, hn, callocAt, hblk, alignedRet]
  split_ifs <;> simp_all [dcpFree, dcpFreeMemalign]

end Request

/-! ## One step -/

section Step

variable {abi : Abi} {ctr : Nat} (virtToPhys : Nat → Nat)

theorem heapOk_callocAlignBuf {s : Heap} {size blk : Nat}
    (hs : HeapOk abi (readCachelineSize ctr) s)
    (hok : (HeapOp.callocAlignBuf size blk).Allowed abi ctr s) :
    ∃ s', heapStep abi ctr virtToPhys s (.callocAlignBuf size blk) = some s' ∧
      HeapOk abi (readCachelineSize ctr) s' := by
  obtain ⟨hroom, haligned, hfree⟩ := hok
  obtain ⟨n, hn⟩ := dcpAllocSize_isSome hroom
  simp only [hn, Option.getD_some] at hfree
  by_cases hblk : 0 < blk ∧ blk + n ≤ 2 ^ abi.bits
  · have hp := placed_alignedRet hroom hn ⟨blk, hblk.1, hblk.2⟩ haligned
    have hhdr : ofMemHdr abi (alignedRet abi ctr blk) = alignedRet abi ctr blk - memHdrSize abi :=
      hp.ofMemHdr_eq
    have hne : alignedRet abi ctr blk ≠ 0 := by have := hp.header; dsimp only at this; omega
    have hkeep : ∀ l ∈ s.held, Function.update s.hdrs (alignedRet abi ctr blk - memHdrSize abi)
        (some ⟨blk, n⟩) (l.data - memHdrSize abi) = some ⟨l.blk, l.allocSize⟩ := fun l hl => by
      rw [Function.update_noteq ((hs.placed l hl).header_ne hp (hfree l hl).symm), hs.header l hl]
    simp only [heapStep, dcpCallocAlignBuf_callocAt virtToPhys _ _ hn hblk hne, hhdr]
    split_ifs with hv
    · simp only [↓reduceIte]
      exact ⟨_, rfl, hs.placed, hkeep, hs.apart⟩
    · simp only [↓reduceIte, hn, Option.getD_some]
      refine ⟨_, rfl, ?_, ?_, List.pairwise_cons.2 ⟨hfree, hs.apart⟩⟩
      · simpa using ⟨hp, hs.placed⟩
      · simpa using hkeep
  · simp only [heapStep, dcpCallocAlignBuf_callocAt_null virtToPhys _ _ hn hblk]
    exact ⟨_, rfl, hs⟩

theorem heapOk_free {s : Heap} {ptr : Nat} (hs : HeapOk abi (readCachelineSize ctr) s)
    (hok : (HeapOp.free ptr).Allowed abi ctr s) :
    ∃ s', heapStep abi ctr virtToPhys s (.free ptr) = some s' ∧
      HeapOk abi (readCachelineSize ctr) s' := by
  rcases hok with rfl | hptr
  · exact ⟨s, by simp [heapStep, dcpFree, dcpFreeMemalign], hs⟩
  · obtain ⟨l, hl, rfl⟩ := List.mem_map.1 hptr
    have hfree := (hs.placed l hl).dcpFree_eq (hs.header l hl)
    refine ⟨⟨s.hdrs, s.held.filter (·.blk ≠ l.blk)⟩,
      by simp [heapStep, hfree, List.mem_map_of_mem _ hl], ?_⟩
    exact ⟨fun l' hl' => hs.placed l' (List.mem_filter.1 hl').1,
      fun l' hl' => hs.header l' (List.mem_filter.1 hl').1, hs.apart.filter _⟩

theorem heapOk_write {s : Heap} {addr len : Nat} (hs : HeapOk abi (readCachelineSize ctr) s)
    (hok : (HeapOp.write addr len).Allowed abi ctr s) :
    ∃ s', heapStep abi ctr virtToPhys s (.write addr len) = some s' ∧
      HeapOk abi (readCachelineSize ctr) s' := by
  obtain ⟨hlen, l', hl', hlo, hhi⟩ := hok
  have hc := readCachelineSize_pos ctr
  have hp' := hs.placed l' hl'
  refine ⟨_, rfl, hs.placed, fun l hl => ?_, hs.apart⟩
  dsimp only at hl ⊢
  by_cases heq : l = l'
  · subst heq
    rw [hp'.forget_own (hp'.data_le_line hc hlo)]
    exact hs.header l hl
  · have hstart := hp'.data_le_line hc hlo
    have hend := hp'.line_end_le_block hc (show addr + len - 1 < l'.data + l'.size by omega)
    have := hp'.header
    rw [(hs.placed l hl).forget_apart (hs.apart.forall Held.apart_symm hl hl' heq)
      (by omega) hend]
    exact hs.header l hl

/-- An allowed step from a heap the allocator can work on is defined, and leaves a heap it can
work on. -/
theorem heapOk_step {s : Heap} (hs : HeapOk abi (readCachelineSize ctr) s) {op : HeapOp}
    (hok : op.Allowed abi ctr s) :
    ∃ s', heapStep abi ctr virtToPhys s op = some s' ∧ HeapOk abi (readCachelineSize ctr) s' := by
  cases op with
  | callocAlignBuf size blk => exact heapOk_callocAlignBuf virtToPhys hs hok
  | free ptr => exact heapOk_free virtToPhys hs hok
  | write addr len => exact heapOk_write virtToPhys hs hok

theorem heapOk_of_reachable {s : Heap} (hs : HeapReachable abi ctr virtToPhys s) :
    HeapOk abi (readCachelineSize ctr) s := by
  induction hs with
  | init hdrs => exact ⟨by simp, by simp, .nil⟩
  | step op _ hok hstep ih =>
    obtain ⟨s', hs', hok'⟩ := heapOk_step virtToPhys ih hok
    exact Option.some.inj (hstep.symm.trans hs') ▸ hok'

end Step

/-! ## Every run -/

section Runs

variable {abi : Abi} {ctr : Nat} {virtToPhys : Nat → Nat}

/-- Two buffers in blocks apart share no cache line. -/
theorem Placed.line_ne {cl : Nat} {l₁ l₂ : Held} (h₁ : Placed abi cl l₁) (h₂ : Placed abi cl l₂)
    (hap : l₁.Apart l₂) (hc : 0 < cl) {a₁ a₂ : Nat} (ha₁ : l₁.data ≤ a₁)
    (ha₁' : a₁ < l₁.data + l₁.size) (ha₂ : l₂.data ≤ a₂) (ha₂' : a₂ < l₂.data + l₂.size) :
    a₁ / cl ≠ a₂ / cl := by
  intro heq
  have hline : a₁ / cl * cl = a₂ / cl * cl := by rw [heq]
  have := h₁.data_le_line hc ha₁
  have := h₁.line_end_le_block hc ha₁'
  have := h₂.data_le_line hc ha₂
  have := h₂.line_end_le_block hc ha₂'
  have := h₁.header
  have := h₂.header
  unfold Held.Apart at hap
  omega

/-- A cache line of a buffer holds no byte of a header of a buffer held. -/
theorem HeapOk.line_ne_header {cl : Nat} {s : Heap} (hs : HeapOk abi cl s) (hc : 0 < cl)
    {l l' : Held} (hl : l ∈ s.held) (hl' : l' ∈ s.held) {a c : Nat} (ha : l.data ≤ a)
    (ha' : a < l.data + l.size) (hc₁ : l'.data - memHdrSize abi ≤ c) (hc₂ : c < l'.data) :
    a / cl ≠ c / cl := by
  have hp := hs.placed l hl
  by_cases heq : l = l'
  · subst heq
    have := Nat.div_lt_div_of_lt_of_dvd hp.aligned hc₂
    have := Nat.div_le_div_right (c := cl) ha
    omega
  · intro hac
    have hap := hs.apart.forall Held.apart_symm hl hl' heq
    have hline : c / cl * cl = a / cl * cl := by rw [hac]
    have := Nat.div_mul_le_self c cl
    have := Nat.lt_div_mul_add (a := c) hc
    have := hp.data_le_line hc ha
    have := hp.line_end_le_block hc ha'
    have := hp.header
    have := (hs.placed l' hl').header
    have := (hs.placed l' hl').below
    unfold Held.Apart at hap
    omega

/-- Over every run of `dcp_calloc_align_buf`, `dcp_free` and changes of the buffers' bytes
that keeps the callers' and `calloc`'s contract, from any memory with no buffer handed out: no
allowed step hands `free` an address at which no block in use starts; `dcp_free` of each buffer
held hands `free` the block `calloc` returned for it; no cache line holds bytes of two buffers
held; and no cache line holds a byte of a buffer held and a byte of the header of one. -/
theorem dcpHeap_runs_safe {s : Heap} (hs : HeapReachable abi ctr virtToPhys s) :
    (∀ op : HeapOp, op.Allowed abi ctr s → heapStep abi ctr virtToPhys s op ≠ none) ∧
    (∀ l ∈ s.held, dcpFree abi s.hdrs l.data = some l.blk) ∧
    s.held.Pairwise (fun l₁ l₂ => ∀ a₁ a₂, l₁.data ≤ a₁ → a₁ < l₁.data + l₁.size →
      l₂.data ≤ a₂ → a₂ < l₂.data + l₂.size →
      a₁ / readCachelineSize ctr ≠ a₂ / readCachelineSize ctr) ∧
    (∀ l ∈ s.held, ∀ l' ∈ s.held, ∀ a c, l.data ≤ a → a < l.data + l.size →
      l'.data - memHdrSize abi ≤ c → c < l'.data →
      a / readCachelineSize ctr ≠ c / readCachelineSize ctr) := by
  have hok := heapOk_of_reachable virtToPhys hs
  have hc := readCachelineSize_pos ctr
  refine ⟨fun op hop => ?_, fun l hl => (hok.placed l hl).dcpFree_eq (hok.header l hl),
    hok.apart.imp_of_mem fun h₁ h₂ hap a₁ a₂ => (hok.placed _ h₁).line_ne (hok.placed _ h₂) hap hc,
    fun l hl l' hl' a c => hok.line_ne_header hc hl hl'⟩
  obtain ⟨s', hs', -⟩ := heapOk_step virtToPhys hok hop
  simp [hs']

theorem dcpHeap_runs_safe_one_buffer :
    ∃ s, HeapReachable .arm64 0x40000 id s ∧ s.held = [⟨4160, 100, 4096, 192⟩] ∧
      dcpFree .arm64 s.hdrs 4160 = some 4096 := by
  have hreach : HeapReachable .arm64 0x40000 id
      ⟨Function.update (fun _ => none) 4144 (some ⟨4096, 192⟩), [⟨4160, 100, 4096, 192⟩]⟩ :=
    .step (.callocAlignBuf 100 4096) (.init fun _ => none) ⟨by decide, by decide, by simp⟩ rfl
  exact ⟨_, hreach, rfl, (dcpHeap_runs_safe hreach).2.1 _ (List.mem_singleton_self _)⟩

end Runs

end CryptoDrivers.Dcp
