import Mathlib.Data.Nat.Bitwise
import CryptoDrivers.Basic

/-!
# The DCP driver's utilities

`imx_dcp_utils.c` gives the DCP driver cache-line-aligned buffers and the one-bit left shift of a
CMAC subkey.

The allocator asks `calloc` for room for the buffer, a `mem_hdr` below it and a cache line of
slack, rounds the address past the header up to a cache line, and keeps the `calloc` pointer in
the header for `dcp_free_memalign`. Sizes and addresses are `size_t` and `vaddr_t`, so each
computation is taken modulo `2 ^ w` for the build's pointer width `w`. The heap is `calloc`,
given as the block it returns for each size asked, and the headers written so far.

`left_shift_buffer` walks the buffer from its last byte with an `unsigned int` counter, so its
loop is modelled with that counter, wrapping at `2 ^ 32`, and with fuel for the number of times
its condition is tested. `dcp_udelay` spins on a `uint32_t` counter the same way.
-/

namespace CryptoDrivers.Dcp

/-- The two ARM builds: `size_t`, `vaddr_t` and pointers are 32 bits wide on one, 64 on the
other. -/
inductive Abi
  | arm32
  | arm64
  deriving DecidableEq, Repr

/-- The width of `size_t`, `vaddr_t` and pointers. -/
def Abi.bits : Abi → Nat
  | .arm32 => 32
  | .arm64 => 64

/-- `ADD_OVERFLOW(a, b, &res)` into a `size_t`: the sum, or `none` when it overflows. -/
def addOverflow (w a b : Nat) : Option Nat :=
  if a + b < 2 ^ w then some (a + b) else none

/-- `MEM_HDR_SIZE`: `ROUNDUP(sizeof(struct mem_hdr), sizeof(void *))` for the packed header of
a pointer and a `size_t`. -/
def memHdrSize (abi : Abi) : Nat :=
  roundup abi.bits (2 * (abi.bits / 8)) (abi.bits / 8)

/-- `OF_MEM_HDR(p)`: the header's address, `MEM_HDR_SIZE` bytes below `p`. -/
def ofMemHdr (abi : Abi) (p : Nat) : Nat :=
  (p + 2 ^ abi.bits - memHdrSize abi) % 2 ^ abi.bits

/-- `struct mem_hdr`: the address `calloc` returned and the size it was asked for. -/
structure MemHdr where
  addr : Nat
  size : Nat
  deriving DecidableEq, Repr

/-- The headers stored in memory, by address. -/
abbrev Hdrs := Nat → Option MemHdr

/-- A block `calloc(1, n)` returns: `n` bytes at a non-null address of the address space. -/
structure Block (w n : Nat) where
  ptr : Nat
  ptr_pos : 0 < ptr
  fits : ptr + n ≤ 2 ^ w

/-- `CTR_WORD_SIZE`: the Cache Type Register counts lines in 4-byte words. -/
def ctrWordSize : Nat := 4

/-- `CTR_DMINLINE_SHIFT`. -/
def ctrDminlineShift : Nat := 16

/-- `CTR_DMINLINE_MASK`. -/
def ctrDminlineMask : Nat := 0xf

/-- `read_cacheline_size`, from the value `ctr` of `CTR_EL0` (ARM64) or `CTR` (ARM32). -/
def readCachelineSize (ctr : Nat) : Nat :=
  ctrWordSize <<< ((ctr >>> ctrDminlineShift) &&& ctrDminlineMask)

/-- The size `dcp_alloc_memalign` asks `calloc` for, or `none` where an `ADD_OVERFLOW` returns
`NULL` first. -/
def dcpAllocSize (abi : Abi) (ctr size : Nat) : Option Nat := do
  let allocSize ← addOverflow abi.bits size (memHdrSize abi)
  let cachelineSize := readCachelineSize ctr
  let allocSize ← if size = cachelineSize then addOverflow abi.bits allocSize cachelineSize
    else pure allocSize
  addOverflow abi.bits cachelineSize (roundup abi.bits allocSize cachelineSize)

/-- `dcp_alloc_memalign(size)`: the address returned and the headers after the one it writes
below it, or `none` for `NULL`. -/
def dcpAllocMemalign (abi : Abi) (ctr : Nat) (calloc : (n : Nat) → Option (Block abi.bits n))
    (hdrs : Hdrs) (size : Nat) : Option (Nat × Hdrs) := do
  let allocSize ← dcpAllocSize abi ctr size
  let blk ← calloc allocSize
  let retAddr :=
    roundup abi.bits ((blk.ptr + memHdrSize abi) % 2 ^ abi.bits) (readCachelineSize ctr)
  pure (retAddr, Function.update hdrs (ofMemHdr abi retAddr) (some ⟨blk.ptr, allocSize⟩))

/-- `dcp_free_memalign(ptr)`: the address handed to `free`, read from the header below `ptr`;
`none` when `ptr` is `NULL` or no header is there. -/
def dcpFreeMemalign (abi : Abi) (hdrs : Hdrs) (ptr : Nat) : Option Nat :=
  if ptr = 0 then none else (hdrs (ofMemHdr abi ptr)).map MemHdr.addr

/-- `dcp_free(ptr)`. -/
def dcpFree (abi : Abi) (hdrs : Hdrs) (ptr : Nat) : Option Nat :=
  dcpFreeMemalign abi hdrs ptr

/-- `struct align_buf`. -/
structure AlignBuf where
  data : Nat
  paddr : Nat
  size : Nat
  deriving DecidableEq, Repr

/-- `dcp_calloc_align_buf(buf, size)`, `buf` given as `none` for `NULL`: the result, the buffer
record, the headers, and the address handed to `free` when `virt_to_phys` fails. `virtToPhys`
is `virt_to_phys`, `0` when the address has no mapping. -/
def dcpCallocAlignBuf (abi : Abi) (ctr : Nat) (calloc : (n : Nat) → Option (Block abi.bits n))
    (virtToPhys : Nat → Nat) (hdrs : Hdrs) (buf : Option AlignBuf) (size : Nat) :
    TeeResult × Option AlignBuf × Hdrs × Option Nat :=
  match buf with
  | none => (teeErrorBadParameters, none, hdrs, none)
  | some b =>
    match dcpAllocMemalign abi ctr calloc hdrs size with
    | none => (teeErrorOutOfMemory, some { b with data := 0 }, hdrs, none)
    | some (data, hdrs') =>
      if data = 0 then (teeErrorOutOfMemory, some { b with data := 0 }, hdrs', none)
      else if virtToPhys data = 0 then
        (teeErrorOutOfMemory, some { b with data, paddr := 0 }, hdrs', dcpFree abi hdrs' data)
      else (teeSuccess, some { data, paddr := virtToPhys data, size }, hdrs', none)

/-- The state of `left_shift_buffer`'s loop: the `unsigned int` counter `i` and carried bit
`msb`, and the bytes of `result`. -/
structure ShiftState where
  i : Nat
  msb : Nat
  result : Bytes

/-- One run of the loop body at `buffer_size - 1 - i` (evaluated while `i < buffer_size`, so
without wrapping), then `i++` on the 32-bit counter. -/
def leftShiftStep (input : Bytes) (bufferSize : Nat) (s : ShiftState) : ShiftState :=
  let j := bufferSize - 1 - s.i
  let b := (input.getD j 0).toNat
  let r := (b <<< 1) &&& 0xFF
  let r := if s.msb ≠ 0 then r ||| s.msb else r
  { i := (s.i + 1) % 2 ^ 32
    msb := (b &&& 0x80) >>> 7
    result := s.result.set j (UInt8.ofNat r) }

/-- The loop `for (i = 0; i < buffer_size; i++)` from state `s`, testing its condition at most
`fuel` times: the state it exits in, or `none` when the fuel ends first. -/
def leftShiftLoop (input : Bytes) (bufferSize : Nat) : Nat → ShiftState → Option ShiftState
  | 0, _ => none
  | fuel + 1, s =>
    if s.i < bufferSize then leftShiftLoop input bufferSize fuel (leftShiftStep input bufferSize s)
    else some s

/-- `left_shift_buffer(input, result, buffer_size)`: what `result` holds when the loop exits,
given `buffer_size + 1` tests of its condition. -/
def leftShiftBuffer (input result : Bytes) (bufferSize : Nat) : Option Bytes :=
  (leftShiftLoop input bufferSize (bufferSize + 1) ⟨0, 0, result⟩).map ShiftState.result

/-- The loop `while (counter--) { isb(); dsb(); }` of `dcp_udelay` from `counter`, testing its
condition at most `fuel` times: the number of passes when it exits, or `none` when the fuel ends
first. The post-decrement wraps the `uint32_t` counter. -/
def udelayLoop : Nat → Nat → Option Nat
  | 0, _ => none
  | fuel + 1, counter =>
    if counter = 0 then some 0 else (udelayLoop fuel ((counter + 2 ^ 32 - 1) % 2 ^ 32)).map (· + 1)

/-- `dcp_udelay(time)`: the passes of its busy-wait, each an `isb(); dsb();`, from the counter
`time * 500` in `uint32_t`, given `2 ^ 32` tests of the loop condition. -/
def dcpUdelay (time : UInt32) : Option Nat :=
  udelayLoop (2 ^ 32) (time.toNat * 500 % 2 ^ 32)

end CryptoDrivers.Dcp
