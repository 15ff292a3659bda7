import CryptoDrivers.Basic

/-!
# The CAAM driver's world

A DSA operation of the CAAM driver is a run over the bytes of its buffers and the caller's key
that leaves a record of what it did: allocations and frees, host stores and loads, cache
maintenance, and, for each job handed to the job ring, the CAAM's reads and writes of the
buffers the descriptor points at and the status the job ring returned. The CAAM reads memory,
not the host cache, so that record is what the cache obligations are stated on; which buffer
holds an allocation is read off it too.

What lies outside `caam_dsa.c` (allocators, the job ring, the DMA-object helpers, the prime
generator, the big-integer library) is an `Ext`: the outcome of each call the run makes. Each
site is called at most once in a run, so a theorem over every `Ext` covers every combination of
outcomes.

Descriptors are lists of the words the driver writes, each kept as what it means rather than as
its bit pattern.
-/

namespace CryptoDrivers.Caam

/-- `enum caam_status`. -/
inductive CaamStatus
  | noError
  | failure
  | outMemory
  | badParam
  | shortBuffer
  | busy
  | pending
  | timeout
  | outOfBound
  | jobStatus
  | notInit
  deriving DecidableEq, Repr

/-- The buffers of one DSA operation: its job descriptor, the local keypair's `g`, `p`, `q`, `x`
and `y`, the message and the signature as the CAAM reaches them (`sign_d` lies inside the
signature), and the verifier's scratch buffer `tmp`. -/
inductive Buf
  | desc
  | g
  | p
  | q
  | x
  | y
  | msg
  | sig
  | tmp
  deriving DecidableEq, Repr

/-- A value for each buffer, as the monitors of a run keep it. -/
structure BufMap (α : Type) where
  desc : α
  g : α
  p : α
  q : α
  x : α
  y : α
  msg : α
  sig : α
  tmp : α

namespace BufMap

variable {α : Type}

/-- The same value for every buffer. -/
def const (a : α) : BufMap α := ⟨a, a, a, a, a, a, a, a, a⟩

/-- The value of a buffer. -/
def get (m : BufMap α) : Buf → α
  | .desc => m.desc
  | .g => m.g
  | .p => m.p
  | .q => m.q
  | .x => m.x
  | .y => m.y
  | .msg => m.msg
  | .sig => m.sig
  | .tmp => m.tmp

/-- The value of a buffer replaced. -/
def set (m : BufMap α) : Buf → α → BufMap α
  | .desc, a => { m with desc := a }
  | .g, a => { m with g := a }
  | .p, a => { m with p := a }
  | .q, a => { m with q := a }
  | .x, a => { m with x := a }
  | .y, a => { m with y := a }
  | .msg, a => { m with msg := a }
  | .sig, a => { m with sig := a }
  | .tmp, a => { m with tmp := a }

theorem get_set (m : BufMap α) (b b' : Buf) (a : α) :
    (m.set b a).get b' = if b' = b then a else m.get b' := by
  cases b <;> cases b' <;> rfl

@[simp] theorem get_const (a : α) (b : Buf) : (const a).get b = a := by cases b <;> rfl

theorem set_eq_self (m : BufMap α) (b : Buf) (a : α) (h : m.get b = a) : m.set b a = m := by
  subst h
  cases b <;> rfl

end BufMap

/-- The cache maintenance the driver asks `cache_operation` for: `TEE_CACHECLEAN`,
`TEE_CACHEFLUSH` (clean and invalidate) and `TEE_CACHEINVALIDATE`. -/
inductive CacheOp
  | clean
  | flush
  | invalidate
  deriving DecidableEq, Repr

/-- The operations: `PK_KEYPAIR_GEN(DL)`, `DSA_SIGN(DL)` and `DSA_VERIFY(DL)`. -/
inductive PkOp
  | keypairGen
  | dsaSign
  | dsaVerify
  deriving DecidableEq, Repr

/-- How many of an operation's pointers, from the first, the CAAM reads; it writes the others:
`x` and `y` of a generation, the two signature parts of a signing, the scratch buffer of a
verification. -/
def PkOp.inputs : PkOp → Nat
  | .keypairGen => 3
  | .dsaSign => 5
  | .dsaVerify => 7

/-- The parts reached through a scatter-gather table (`PDB_SGT_PK*_MSG`, `*_SIGN_C`,
`*_SIGN_D`). -/
structure SgtFlags where
  msg : Bool
  signC : Bool
  signD : Bool
  deriving DecidableEq, Repr

/-- A descriptor word. -/
inductive DescWord
  /-- `DESC_HEADER_IDX(len, idx)`: the descriptor's length in words and the index it starts at. -/
  | header (len idx : Nat)
  /-- `PDB_DL_KEY_L_SIZE(l) | PDB_DL_KEY_N_SIZE(n)`. -/
  | pdbKeySize (l n : Nat)
  /-- `PDB_DSA_SIGN_N(n) | PDB_DSA_SIGN_L(l) | pdb_sgt_flags`. -/
  | pdbSign (n l : Nat) (sgt : SgtFlags)
  /-- `PDB_DSA_VERIF_N(n) | PDB_DSA_VERIF_L(l) | pdb_sgt_flags`. -/
  | pdbVerif (n l : Nat) (sgt : SgtFlags)
  /-- The physical address of a buffer, at an offset into it. -/
  | ptr (b : Buf) (off : Nat)
  /-- A message length. -/
  | msgLen (len : Nat)
  /-- The operation command. -/
  | operation (op : PkOp)
  deriving DecidableEq, Repr

/-- A job descriptor. -/
abbrev Desc := List DescWord

/-- The buffers a descriptor points at, in order. -/
def descPtrs (d : Desc) : List Buf :=
  d.filterMap fun | .ptr b _ => some b | _ => none

/-- The operation a descriptor runs. -/
def descOp (d : Desc) : Option PkOp :=
  d.findSome? fun | .operation op => some op | _ => none

/-- What a run does, in order. -/
inductive Event
  /-- An allocation of `size` bytes, zeroed by the host when `zeroed`. -/
  | alloc (b : Buf) (size : Nat) (zeroed : Bool)
  /-- A call that releases the buffer's allocation, if it holds one. -/
  | free (b : Buf)
  /-- A host store of `len` bytes at offset `off` of the buffer. -/
  | hostWrite (b : Buf) (off : Int) (len : Nat)
  | hostRead (b : Buf)
  | cache (op : CacheOp) (b : Buf)
  /-- The CAAM reads a buffer from memory, finding `bytes` there. -/
  | devRead (b : Buf) (bytes : Bytes)
  /-- The CAAM writes a buffer in memory. -/
  | devWrite (b : Buf)
  /-- `caam_jr_enqueue` returned `st` for the job of descriptor `d`. -/
  | jobDone (d : Desc) (st : CaamStatus)
  deriving DecidableEq, Repr

/-- `struct dsa_keypair`, its big numbers held as their values. -/
structure DsaKeypair where
  g : Nat
  p : Nat
  q : Nat
  x : Nat
  y : Nat
  deriving DecidableEq, Repr

/-- `struct dsa_public_key`. -/
structure DsaPublicKey where
  g : Nat
  p : Nat
  q : Nat
  y : Nat
  deriving DecidableEq, Repr

/-- The fields of a keypair `crypto_bignum_bin2bn` writes. -/
inductive KeyField
  | g
  | p
  | q
  | x
  | y
  deriving DecidableEq, Repr

/-- Storing a value in one field of a keypair. -/
def DsaKeypair.set (k : DsaKeypair) : KeyField → Nat → DsaKeypair
  | .g, v => { k with g := v }
  | .p, v => { k with p := v }
  | .q, v => { k with q := v }
  | .x, v => { k with x := v }
  | .y, v => { k with y := v }

/-- `struct drvcrypt_sign_data` as the DSA driver reads it, with the key it points at. -/
structure SignData (κ : Type) where
  key : κ
  sizeSec : Nat
  message : Bytes
  signature : Bytes

/-- The DMA objects prepared by `caam_dmaobj_init_input`, `caam_dmaobj_init_output` and
`caam_dmaobj_derive`: the message and the two signature parts. -/
inductive DmaCall
  | msg
  | signC
  | signD
  deriving DecidableEq, Repr

/-- What preparing a DMA object gives back: the call's result and `obj.sgtbuf.sgt_type`, whether
the CAAM reaches the object through a scatter-gather table. -/
structure DmaInit where
  ret : TeeResult
  sgtType : Bool

/-- The build: `CFG_CAAM_64BIT` and the width of `size_t`. -/
structure Cfg where
  caam64 : Bool
  sizeBits : Nat

/-- What a run changes: the caller's keypair (`do_gen_keypair` writes it), the bytes of each
buffer, and `sdata->signature.length`. -/
structure World where
  key : DsaKeypair
  mem : Buf → Bytes
  sigLength : Nat

/-- A buffer's bytes replaced. -/
def World.setMem (w : World) (b : Buf) (bytes : Bytes) : World :=
  { w with mem := Function.update w.mem b bytes }

/-- A value stored in a field of the caller's keypair. -/
def World.setKey (w : World) (f : KeyField) (v : Nat) : World :=
  { w with key := w.key.set f v }

section Setters

variable (w : World) (b : Buf) (bytes : Bytes) (f : KeyField) (n : Nat)

@[simp] theorem World.setMem_mem : (w.setMem b bytes).mem = Function.update w.mem b bytes := rfl
@[simp] theorem World.setMem_key : (w.setMem b bytes).key = w.key := rfl
@[simp] theorem World.setMem_sigLength : (w.setMem b bytes).sigLength = w.sigLength := rfl
@[simp] theorem World.setKey_mem : (w.setKey f n).mem = w.mem := rfl
@[simp] theorem World.setKey_key : (w.setKey f n).key = w.key.set f n := rfl
@[simp] theorem World.setKey_sigLength : (w.setKey f n).sigLength = w.sigLength := rfl

@[simp]
theorem World.setMem_setMem (b : Buf) (x y : Bytes) : (w.setMem b x).setMem b y = w.setMem b y := by
  simp only [World.setMem, Function.update_idem]

end Setters

/-- The outcome of every call outside `caam_dsa.c` on one run. -/
structure Ext where
  /-- Whether the allocation of each buffer succeeds. -/
  allocOk : Buf → Bool
  /-- `caam_prime_dsa_gen`: its status and the `p`, `q` and `g` it writes. -/
  primeDsaGen : CaamStatus × Bytes × Bytes × Bytes
  /-- `caam_jr_enqueue`, for a descriptor and the memory the CAAM reads: the status, the job
  status `jobctx.status`, and what it writes into each buffer it writes. -/
  jrEnqueue : Desc → (Buf → Bytes) → CaamStatus × UInt32 × (Buf → Bytes)
  /-- `job_status_to_tee_result`. -/
  jobStatusToTeeResult : UInt32 → TeeResult
  /-- The result of `crypto_bignum_bin2bn` into each field. -/
  bin2bn : KeyField → TeeResult
  /-- The value a failed `crypto_bignum_bin2bn` leaves in its field. -/
  bin2bnLeft : KeyField → Nat
  /-- The result of preparing each DMA object. -/
  dmaobjInit : DmaCall → TeeResult
  /-- Whether a DMA object is a fresh copy of the caller's buffer. -/
  dmaobjRealloc : DmaCall → Bool
  /-- Whether a DMA object goes through a scatter-gather table. -/
  dmaobjSgt : DmaCall → Bool

/-- One step of a run: its result, the world after it, and what it did. -/
structure Step (α : Type) where
  val : α
  world : World
  events : List Event

/-- A part of a DSA operation, run from a world. -/
def DsaM (α : Type) : Type := World → Step α

instance : Monad DsaM where
  pure a w := ⟨a, w, []⟩
  bind m f w :=
    let s := m w
    let s' := f s.val s.world
    ⟨s'.val, s'.world, s.events ++ s'.events⟩

@[simp]
theorem pure_apply {α : Type} (a : α) (w : World) : (pure a : DsaM α) w = ⟨a, w, []⟩ := rfl

@[simp]
theorem bind_apply {α β : Type} (m : DsaM α) (f : α → DsaM β) (w : World) :
    (m >>= f) w = ⟨(f (m w).val (m w).world).val, (f (m w).val (m w).world).world,
      (m w).events ++ (f (m w).val (m w).world).events⟩ := rfl

/-- Recording an event. -/
def emit (e : Event) : DsaM Unit := fun w => ⟨(), w, [e]⟩

/-- Reading the world. -/
def getWorld : DsaM World := fun w => ⟨w, w, []⟩

@[simp]
theorem emit_apply (e : Event) (w : World) : emit e w = ⟨(), w, [e]⟩ := rfl

@[simp]
theorem getWorld_apply (w : World) : getWorld w = ⟨w, w, []⟩ := rfl

end CryptoDrivers.Caam
