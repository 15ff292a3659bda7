import CryptoDrivers.Dcp.Utils

/-!
# The aligned allocator over a run

The DCP driver takes its buffers from `dcp_calloc_align_buf` and gives them back with
`dcp_free`; in between, host stores, the DCP's transfers and cache maintenance change their
bytes. Cache maintenance works on whole cache lines, so a change of bytes is modelled as a change
of every cache line they lie in.

The heap keeps the headers `dcp_alloc_memalign` has written, by address, and the buffers handed
out and not yet freed, each with the block `calloc` returned under it. `calloc` has no other
caller here, so these are the blocks in use. A change of bytes loses every header with a byte in
a line it touches. `calloc` answers each request with the block at an address the run chooses,
and `free` of an address at which no block in use starts is undefined behaviour: the step's
`none`. What `calloc` and `free` themselves write (the zeroes of a new block, `malloc`'s records
in a freed one) stays inside a block no buffer held lies in, and is left out.

The callers' side of the contract is `HeapOp.Allowed`. A request leaves room for the header and
two cache lines; without it `ROUNDUP` can wrap. `calloc` hands out a block aligned as `malloc`
aligns and not in use. A change of bytes stays inside a buffer held, and `dcp_free` is given a
buffer held or `NULL`.
-/

namespace CryptoDrivers.Dcp

/-- A buffer `dcp_calloc_align_buf` handed out and `dcp_free` has not taken back: `buf->data` and
`buf->size`, and the block `calloc` returned for it with the size it was asked. -/
structure Held where
  data : Nat
  size : Nat
  blk : Nat
  allocSize : Nat
  deriving DecidableEq, Repr

/-- The allocator over a run: the headers in memory and the buffers held. -/
structure Heap where
  hdrs : Hdrs
  held : List Held

/-- What a run does next. -/
inductive HeapOp
  /-- `dcp_calloc_align_buf(&buf, size)`, with `calloc` answering at `blk`. -/
  | callocAlignBuf (size blk : Nat)
  /-- `dcp_free(ptr)`. -/
  | free (ptr : Nat)
  /-- A change of the bytes `[addr, addr + len)`: a host store, a DCP transfer, or cache
  maintenance of the lines they lie in. -/
  | write (addr len : Nat)
  deriving DecidableEq, Repr

section Step

variable (abi : Abi) (ctr : Nat) (virtToPhys : Nat → Nat)

/-- `calloc` answering with the block at `blk`: `NULL` when `blk` is `0` or the block would not
fit the address space. -/
def callocAt (blk : Nat) : (n : Nat) → Option (Block abi.bits n) :=
  fun n => if h : 0 < blk ∧ blk + n ≤ 2 ^ abi.bits then some ⟨blk, h.1, h.2⟩ else none

/-- The headers left after the bytes `[lo, hi)` change: a header with a byte there is lost. -/
def forget (hdrs : Hdrs) (lo hi : Nat) : Hdrs :=
  fun a => if lo < a + memHdrSize abi ∧ a < hi then none else hdrs a

/-- One step of a run: `none` when `free` is handed an address at which no block in use
starts. `dcp_calloc_align_buf` fills the caller's record, a buffer it returns with
`TEE_SUCCESS` is held, and the block it frees itself when `virt_to_phys` fails is the one
`calloc` has just returned. -/
def heapStep (s : Heap) : HeapOp → Option Heap
  | .callocAlignBuf size blk =>
    match dcpCallocAlignBuf abi ctr (callocAt abi blk) virtToPhys s.hdrs (some ⟨0, 0, 0⟩) size with
    | (r, some buf, hdrs', none) =>
      some ⟨hdrs', if r = teeSuccess
        then ⟨buf.data, size, blk, (dcpAllocSize abi ctr size).getD 0⟩ :: s.held else s.held⟩
    | (_, _, hdrs', some p) => if p = blk then some ⟨hdrs', s.held⟩ else none
    | (_, none, hdrs', none) => some ⟨hdrs', s.held⟩
  | .free ptr =>
    match dcpFree abi s.hdrs ptr with
    | none => if ptr = 0 then some s else none
    | some p => if p ∈ s.held.map Held.blk then some ⟨s.hdrs, s.held.filter (·.blk ≠ p)⟩ else none
  | .write addr len =>
    let cl := readCachelineSize ctr
    some ⟨forget abi s.hdrs (addr / cl * cl) ((addr + len - 1) / cl * cl + cl), s.held⟩

/-- The contract of the allocator's callers and of `calloc` for the next step. -/
def HeapOp.Allowed (s : Heap) : HeapOp → Prop
  | .callocAlignBuf size blk =>
    size + memHdrSize abi + 2 * readCachelineSize ctr < 2 ^ abi.bits ∧ blk % memHdrSize abi = 0 ∧
      ∀ l ∈ s.held, blk + (dcpAllocSize abi ctr size).getD 0 ≤ l.blk ∨ l.blk + l.allocSize ≤ blk
  | .free ptr => ptr = 0 ∨ ptr ∈ s.held.map Held.data
  | .write addr len => 0 < len ∧ ∃ l ∈ s.held, l.data ≤ addr ∧ addr + len ≤ l.data + l.size

/-- The heaps a run reaches through allowed steps from any memory with no buffer handed out. -/
inductive HeapReachable : Heap → Prop
  | init (hdrs : Hdrs) : HeapReachable ⟨hdrs, []⟩
  | step {s s' : Heap} (op : HeapOp) : HeapReachable s → op.Allowed abi ctr s →
      heapStep abi ctr virtToPhys s op = some s' → HeapReachable s'

end Step

end CryptoDrivers.Dcp
