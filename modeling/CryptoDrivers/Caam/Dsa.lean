import CryptoDrivers.Caam.Env

/-!
# The DSA operations of the CAAM driver

`caam_dsa.c` over the world of `CryptoDrivers.Caam.Env`: the conversion of a key into
zero-padded big-endian buffers, the domain parameters a key generation takes from the key or
generates, the three descriptors, and the operations `do_gen_keypair`, `do_sign` and
`do_verify`. Each `goto exit` is a `return` from an inner block, after which the cleanup runs on
every path.

The helpers from other files of the driver are modelled from the contracts the spec gives
them: what they allocate, write and read, and the cache maintenance they do.
-/

namespace CryptoDrivers.Caam

/-! ## Buffers, caches and big numbers -/

section Primitives

variable (ext : Ext)

/-- Modelled from the spec: `caam_calloc_buf(&buf, size)` gives `size` zero bytes, or
`CAAM_OUT_MEMORY`. -/
def caamCallocBuf (b : Buf) (size : Nat) : DsaM CaamStatus := fun w =>
  if ext.allocOk b then
    ⟨.noError, w.setMem b (List.replicate size 0), [.alloc b size true]⟩
  else ⟨.outMemory, w, []⟩

/-- Modelled from the spec: `caam_calloc_align_buf`, a `caam_calloc_buf` on cache-line
boundaries. -/
def caamCallocAlignBuf (b : Buf) (size : Nat) : DsaM CaamStatus :=
  caamCallocBuf ext b size

/-- Modelled from the spec: `caam_alloc_align_buf`, an aligned buffer the host does not
initialise. -/
def caamAllocAlignBuf (b : Buf) (size : Nat) : DsaM CaamStatus := fun w =>
  if ext.allocOk b then
    ⟨.noError, w, [.alloc b size false]⟩
  else ⟨.outMemory, w, []⟩

/-- Modelled from the spec: `caam_free_buf(&buf)` releases the buffer's allocation, if it holds
one. -/
def caamFreeBuf (b : Buf) : DsaM Unit :=
  emit (.free b)

/-- Modelled from the spec: `caam_calloc_desc(nbentries)`, a zeroed descriptor of `nbentries`
words; `false` for `NULL`. -/
def caamCallocDesc (nbEntries : Nat) : DsaM Bool := fun w =>
  if ext.allocOk .desc then ⟨true, w, [.alloc .desc (4 * nbEntries) true]⟩ else ⟨false, w, []⟩

/-- Modelled from the spec: `caam_free_desc(&desc)`. -/
def caamFreeDesc : DsaM Unit :=
  caamFreeBuf .desc

/-- `cache_operation(op, buf.data, buf.length)`. -/
def cacheOperation (op : CacheOp) (b : Buf) : DsaM Unit :=
  emit (.cache op b)

/-- `crypto_bignum_bn2bin(s, buf.data + off)`: the big-endian bytes of `s` stored from byte `off`
of the buffer. The callers pass `buf.data + width - size`, pointer arithmetic that lands before
the buffer when the size exceeds the width, so the offset is an integer. -/
def cryptoBignumBn2binAt (b : Buf) (off : Int) (s : Nat) : DsaM Unit := fun w =>
  ⟨(), w.setMem b (writeAt (w.mem b) off (cryptoBignumBn2bin s)),
    [.hostWrite b off (cryptoBignumBn2bin s).length]⟩

/-- Modelled from the spec: `crypto_bignum_bin2bn(buf.data, buf.length, key->f)` into the
caller's keypair reads the whole buffer as a big-endian number; a failed call leaves what the
outcome says in the field. -/
def cryptoBignumBin2bnKey (b : Buf) (f : KeyField) : DsaM TeeResult := fun w =>
  let v := if ext.bin2bn f = teeSuccess then cryptoBignumBin2bn (w.mem b) else ext.bin2bnLeft f
  ⟨ext.bin2bn f, w.setKey f v, [.hostRead b]⟩

/-- Modelled from the spec: `caam_prime_dsa_gen(&prime)` fills the `p`, `q` and `g` buffers with
generated domain parameters. It flushes them before its jobs write them and invalidates them
once the generation succeeded. -/
def caamPrimeDsaGen : DsaM CaamStatus := fun w =>
  let st := ext.primeDsaGen.1
  let gp := ext.primeDsaGen.2.1
  let gq := ext.primeDsaGen.2.2.1
  let gg := ext.primeDsaGen.2.2.2
  ⟨st, ((w.setMem .p gp).setMem .q gq).setMem .g gg,
    [.cache .flush .p, .cache .flush .q, .cache .flush .g,
      .devWrite .p, .devWrite .q, .devWrite .g] ++
    (if st = .noError then [.cache .invalidate .p, .cache .invalidate .q, .cache .invalidate .g]
      else [])⟩

/-- The buffers a descriptor's job reads: its first `PkOp.inputs` pointers. -/
def descReads (d : Desc) : List Buf :=
  (descPtrs d).take (((descOp d).map PkOp.inputs).getD (descPtrs d).length)

/-- The buffers a descriptor's job writes: its other pointers. -/
def descWrites (d : Desc) : List Buf :=
  (descPtrs d).drop (((descOp d).map PkOp.inputs).getD (descPtrs d).length)

/-- Modelled from the spec: `caam_jr_enqueue(&jobctx, NULL)` runs the job to its end. The CAAM
reads the buffers behind the descriptor's input pointers from memory and writes those behind
its output pointers, then the status and `jobctx.status` come back. -/
def caamJrEnqueue (desc : Desc) : DsaM (CaamStatus × UInt32) := fun w =>
  let r := ext.jrEnqueue desc w.mem
  ⟨(r.1, r.2.1), { w with mem := fun b => if b ∈ descWrites desc then r.2.2 b else w.mem b },
    (descReads desc).map (fun b => .devRead b (w.mem b)) ++ (descWrites desc).map .devWrite ++
      [.jobDone desc r.1]⟩

/-- Modelled from the spec: `caam_dmaobj_init_input(obj, data, length)`. The buffer the CAAM reads
holds `data`; when the object needs a copy of the caller's buffer, the copy is a new buffer the
host writes. -/
def caamDmaobjInitInput (c : DmaCall) (b : Buf) (data : Bytes) : DsaM DmaInit := fun w =>
  if ext.dmaobjInit c ≠ teeSuccess then ⟨⟨ext.dmaobjInit c, false⟩, w, []⟩
  else if ext.dmaobjRealloc c then
    ⟨⟨teeSuccess, ext.dmaobjSgt c⟩, w.setMem b data,
      [.alloc b data.length false, .hostWrite b 0 data.length]⟩
  else ⟨⟨teeSuccess, ext.dmaobjSgt c⟩, w.setMem b data, []⟩

/-- Modelled from the spec: `caam_dmaobj_init_output(obj, data, length, alloc_length)`: when the
caller's buffer cannot take the output, a new zeroed buffer of `alloc_length` bytes. -/
def caamDmaobjInitOutput (c : DmaCall) (b : Buf) (data : Bytes) (allocLength : Nat) :
    DsaM DmaInit := fun w =>
  if ext.dmaobjInit c ≠ teeSuccess then ⟨⟨ext.dmaobjInit c, false⟩, w, []⟩
  else if ext.dmaobjRealloc c then
    ⟨⟨teeSuccess, ext.dmaobjSgt c⟩, w.setMem b (List.replicate allocLength 0),
      [.alloc b allocLength true]⟩
  else ⟨⟨teeSuccess, ext.dmaobjSgt c⟩, w.setMem b data, []⟩

/-- Modelled from the spec: `caam_dmaobj_derive(out, from, offset, length)`, a part of an object
already prepared, with no buffer of its own. -/
def caamDmaobjDerive (c : DmaCall) : DsaM DmaInit := fun w =>
  ⟨⟨ext.dmaobjInit c, ext.dmaobjSgt c⟩, w, []⟩

/-- Modelled from the spec: `caam_dmaobj_cache_push(obj)` cleans an input object and flushes an
output one. -/
def caamDmaobjCachePush (b : Buf) (output : Bool) : DsaM Unit :=
  cacheOperation (if output then .flush else .clean) b

/-- Modelled from the spec: `caam_dmaobj_copy_to_orig(obj)` invalidates the buffer the CAAM
wrote, then reads it to copy it out. -/
def caamDmaobjCopyToOrig (b : Buf) : DsaM Unit := do
  cacheOperation .invalidate b
  emit (.hostRead b)

/-- Modelled from the spec: `caam_dmaobj_free(obj)` releases the copy an object made. -/
def caamDmaobjFree (b : Buf) : DsaM Unit :=
  caamFreeBuf b

/-- `sdata->signature.length = len`. -/
def setSigLength (len : Nat) : DsaM Unit := fun w =>
  ⟨(), { w with sigLength := len }, []⟩

end Primitives

/-! ## Descriptors -/

/-- Modelled from the spec: `caam_desc_init`, an empty descriptor. -/
def caamDescInit : Desc := []

/-- Modelled from the spec: `caam_desc_add_word`. -/
def caamDescAddWord (d : Desc) (w : DescWord) : Desc := d ++ [w]

/-- Modelled from the spec: `caam_desc_add_ptr`, the address of a buffer at an offset. -/
def caamDescAddPtr (d : Desc) (b : Buf) (off : Nat) : Desc := d ++ [.ptr b off]

/-- The words a descriptor word takes: a pointer takes two with `CFG_CAAM_64BIT`. -/
def DescWord.words (caam64 : Bool) : DescWord → Nat
  | .ptr .. => if caam64 then 2 else 1
  | _ => 1

/-- Modelled from the spec: `caam_desc_get_len`, the descriptor's length in words. -/
def caamDescGetLen (caam64 : Bool) (d : Desc) : Nat :=
  (d.map (DescWord.words caam64)).sum

/-- Modelled from the spec: `caam_desc_update_hdr`, a new first word. -/
def caamDescUpdateHdr (d : Desc) (w : DescWord) : Desc := d.set 0 w

/-- `MAX_DESC_KEY_GEN`. -/
def maxDescKeyGen (caam64 : Bool) : Nat := if caam64 then 14 else 9

/-- `MAX_DESC_SIGN`. -/
def maxDescSign (caam64 : Bool) : Nat := if caam64 then 19 else 12

/-- `MAX_DESC_VERIFY`. -/
def maxDescVerify (caam64 : Bool) : Nat := if caam64 then 21 else 13

/-- The descriptor `do_gen_keypair` builds: the public-key generation block, the addresses of
`p`, `q`, `g` and of the `x` and `y` to generate, and the operation, under a header with its
length that starts the job at its last word. -/
def genKeypairDesc (caam64 : Bool) (lBytes nBytes : Nat) : Desc :=
  let desc := caamDescInit
  let desc := caamDescAddWord desc (.header 0 0)
  let desc := caamDescAddWord desc (.pdbKeySize lBytes nBytes)
  let desc := caamDescAddPtr desc .p 0
  let desc := caamDescAddPtr desc .q 0
  let desc := caamDescAddPtr desc .g 0
  let desc := caamDescAddPtr desc .x 0
  let desc := caamDescAddPtr desc .y 0
  let desc := caamDescAddWord desc (.operation .keypairGen)
  let desclen := caamDescGetLen caam64 desc
  caamDescUpdateHdr desc (.header desclen (desclen - 1))

/-- The descriptor `do_sign` builds: `p`, `q`, `g`, `x`, the message, and the two parts of the
signature, the second `sizeSec` bytes into it, then the message length and the operation. -/
def dsaSignDesc (caam64 : Bool) (lBytes nBytes : Nat) (sgt : SgtFlags) (sizeSec msgLen : Nat) :
    Desc :=
  let desc := caamDescInit
  let desc := caamDescAddWord desc (.header 0 0)
  let desc := caamDescAddWord desc (.pdbSign nBytes lBytes sgt)
  let desc := caamDescAddPtr desc .p 0
  let desc := caamDescAddPtr desc .q 0
  let desc := caamDescAddPtr desc .g 0
  let desc := caamDescAddPtr desc .x 0
  let desc := caamDescAddPtr desc .msg 0
  let desc := caamDescAddPtr desc .sig 0
  let desc := caamDescAddPtr desc .sig sizeSec
  let desc := caamDescAddWord desc (.msgLen msgLen)
  let desc := caamDescAddWord desc (.operation .dsaSign)
  let desclen := caamDescGetLen caam64 desc
  caamDescUpdateHdr desc (.header desclen (desclen - 1))

/-- The descriptor `do_verify` builds: `p`, `q`, `g`, `y`, the message, the two parts of the
signature and the scratch buffer, then the message length and the operation. -/
def dsaVerifyDesc (caam64 : Bool) (lBytes nBytes : Nat) (sgt : SgtFlags) (sizeSec msgLen : Nat) :
    Desc :=
  let desc := caamDescInit
  let desc := caamDescAddWord desc (.header 0 0)
  let desc := caamDescAddWord desc (.pdbVerif nBytes lBytes sgt)
  let desc := caamDescAddPtr desc .p 0
  let desc := caamDescAddPtr desc .q 0
  let desc := caamDescAddPtr desc .g 0
  let desc := caamDescAddPtr desc .y 0
  let desc := caamDescAddPtr desc .msg 0
  let desc := caamDescAddPtr desc .sig 0
  let desc := caamDescAddPtr desc .sig sizeSec
  let desc := caamDescAddPtr desc .tmp 0
  let desc := caamDescAddWord desc (.msgLen msgLen)
  let desc := caamDescAddWord desc (.operation .dsaVerify)
  let desclen := caamDescGetLen caam64 desc
  caamDescUpdateHdr desc (.header desclen (desclen - 1))

/-! ## Keys -/

section Keys

variable (ext : Ext)

/-- `do_keypair_free`: the five buffers of the local keypair. -/
def doKeypairFree : DsaM Unit := do
  caamFreeBuf .g
  caamFreeBuf .p
  caamFreeBuf .q
  caamFreeBuf .x
  caamFreeBuf .y

/-- The stores of `do_keypriv_conv` and `do_keypub_conv`, one field `(buffer, width, value)` at a
time: a zeroed buffer of the field's width, then the value's bytes stored at
`width - crypto_bignum_num_bytes(value)` so that they end with the buffer. -/
def convFields : List (Buf × Nat × Nat) → DsaM CaamStatus
  | [] => pure .noError
  | (b, width, s) :: fs => do
    if (← caamCallocBuf ext b width) ≠ .noError then return .outMemory
    let fieldSize := cryptoBignumNumBytes s
    cryptoBignumBn2binAt b (width - fieldSize) s
    convFields fs

/-- The cleans that end `do_keypriv_conv` and `do_keypub_conv`. -/
def cleanFields : List (Buf × Nat × Nat) → DsaM Unit
  | [] => pure ()
  | (b, _, _) :: fs => do
    cacheOperation .clean b
    cleanFields fs

/-- The body `do_keypriv_conv` and `do_keypub_conv` share: the fields, then their cleans;
`CAAM_OUT_MEMORY` when an allocation fails. -/
def keyConv (fs : List (Buf × Nat × Nat)) : DsaM CaamStatus := do
  if (← convFields ext fs) ≠ .noError then return .outMemory
  cleanFields fs
  return .noError

/-- The fields of `do_keypriv_conv`: `g` and `p` of `l_bytes`, `q` and `x` of `n_bytes`. -/
def keyprivFields (inkey : DsaKeypair) (lBytes nBytes : Nat) : List (Buf × Nat × Nat) :=
  [(.g, lBytes, inkey.g), (.p, lBytes, inkey.p), (.q, nBytes, inkey.q), (.x, nBytes, inkey.x)]

/-- The fields of `do_keypub_conv`: `g` and `p` of `l_bytes`, `q` of `n_bytes`, `y` of
`l_bytes`. -/
def keypubFields (inkey : DsaPublicKey) (lBytes nBytes : Nat) : List (Buf × Nat × Nat) :=
  [(.g, lBytes, inkey.g), (.p, lBytes, inkey.p), (.q, nBytes, inkey.q), (.y, lBytes, inkey.y)]

/-- `do_keypriv_conv(outkey, inkey, l_bytes, n_bytes)`. -/
def doKeyprivConv (inkey : DsaKeypair) (lBytes nBytes : Nat) : DsaM CaamStatus :=
  keyConv ext (keyprivFields inkey lBytes nBytes)

/-- `do_keypub_conv(outkey, inkey, l_bytes, n_bytes)`. -/
def doKeypubConv (inkey : DsaPublicKey) (lBytes nBytes : Nat) : DsaM CaamStatus :=
  keyConv ext (keypubFields inkey lBytes nBytes)

/-- The allocations `get_keypair_domain_params` starts with, one `(buffer, width)` at a time;
`TEE_ERROR_OUT_OF_MEMORY` at the first that fails. -/
def callocFields : List (Buf × Nat) → DsaM TeeResult
  | [] => pure teeSuccess
  | (b, width) :: fs => do
    if (← caamCallocBuf ext b width) ≠ .noError then return teeErrorOutOfMemory
    callocFields fs

/-- The stores of `get_keypair_domain_params` when the key has its domain parameters, one field
`(buffer, width, value)` at a time: the value's bytes stored at
`width - crypto_bignum_num_bytes(value)`, then a clean of the buffer. -/
def storeFields : List (Buf × Nat × Nat) → DsaM Unit
  | [] => pure ()
  | (b, width, s) :: fs => do
    cryptoBignumBn2binAt b (width - cryptoBignumNumBytes s) s
    cacheOperation .clean b
    storeFields fs

/-- `get_keypair_domain_params(outkey, key, l_bytes, n_bytes)` for the caller's keypair: its
`p`, `q` and `g` when all three are non-zero, fresh ones written back into it otherwise. The
results of the three write-backs are dropped, as in the source. -/
def getKeypairDomainParams (lBytes nBytes : Nat) : DsaM TeeResult := do
  let ret ← callocFields ext [(.q, nBytes), (.g, lBytes), (.p, lBytes)]
  if ret ≠ teeSuccess then return ret
  let key := (← getWorld).key
  let inGSize := cryptoBignumNumBytes key.g
  let inPSize := cryptoBignumNumBytes key.p
  let inQSize := cryptoBignumNumBytes key.q
  if inQSize = 0 ∨ inGSize = 0 ∨ inPSize = 0 then
    if (← caamPrimeDsaGen ext) ≠ .noError then return teeErrorGeneric
    let _ ← cryptoBignumBin2bnKey ext .q .q
    let _ ← cryptoBignumBin2bnKey ext .g .g
    let _ ← cryptoBignumBin2bnKey ext .p .p
  else
    storeFields [(.q, nBytes, key.q), (.g, lBytes, key.g), (.p, lBytes, key.p)]
  return teeSuccess

/-- The result and the big numbers left allocated by the allocations of `do_allocate_keypair`
and `do_allocate_publickey` from the field `fs`, with `held` allocated so far: on a failure, the
error path frees `freed`. -/
def allocFields (ok : KeyField → Bool) (freed : List KeyField) :
    List KeyField → List KeyField → TeeResult × List KeyField
  | [], held => (teeSuccess, held)
  | f :: fs, held =>
    if ok f then allocFields ok freed fs (held ++ [f])
    else (teeErrorOutOfMemory, held.filter (· ∉ freed))

/-- `do_allocate_keypair(key, l_bits, n_bits)`, given which `crypto_bignum_allocate` calls
succeed: `g`, `p`, `q`, `x`, `y` in turn; the error path frees `g`, `p`, `q` and `x`. -/
def doAllocateKeypair (ok : KeyField → Bool) : TeeResult × List KeyField :=
  allocFields ok [.g, .p, .q, .x] [.g, .p, .q, .x, .y] []

/-- `do_allocate_publickey(key, l_bits, n_bits)`: `g`, `p`, `q`, `y` in turn; the error path
frees `g`, `p` and `q`. -/
def doAllocatePublickey (ok : KeyField → Bool) : TeeResult × List KeyField :=
  allocFields ok [.g, .p, .q] [.g, .p, .q, .y] []

end Keys

/-! ## The operations -/

section Operations

variable (ext : Ext) (cfg : Cfg)

/-- `do_gen_keypair(key, l_bits, n_bits)` on the caller's keypair. -/
def doGenKeypair (lBits nBits : Nat) : DsaM TeeResult := do
  let lBytes := lBits / 8
  let nBytes := nBits / 8
  let ret ← (do
    if !(← caamCallocDesc ext (maxDescKeyGen cfg.caam64)) then return teeErrorOutOfMemory
    if (← caamCallocAlignBuf ext .x nBytes) ≠ .noError then return teeErrorOutOfMemory
    cacheOperation .flush .x
    if (← caamCallocAlignBuf ext .y lBytes) ≠ .noError then return teeErrorOutOfMemory
    cacheOperation .flush .y
    let ret ← getKeypairDomainParams ext lBytes nBytes
    if ret ≠ teeSuccess then return ret
    let (retstatus, status) ← caamJrEnqueue ext (genKeypairDesc cfg.caam64 lBytes nBytes)
    if retstatus = .noError then
      cacheOperation .invalidate .x
      cacheOperation .invalidate .y
      let ret ← cryptoBignumBin2bnKey ext .x .x
      if ret ≠ teeSuccess then return ret
      let ret ← cryptoBignumBin2bnKey ext .y .y
      if ret ≠ teeSuccess then return ret
      return teeSuccess
    else return ext.jobStatusToTeeResult status : DsaM TeeResult)
  caamFreeDesc
  doKeypairFree
  return ret

/-- `ROUNDUP(sdata->size_sec, 16) + sdata->size_sec`, the signature buffer `do_sign` asks for. -/
def signLen (sizeSec : Nat) : Nat :=
  (roundup cfg.sizeBits sizeSec 16 + sizeSec) % 2 ^ cfg.sizeBits

/-- `do_sign(sdata, l_bytes, n_bytes)`. -/
def doSign (sdata : SignData DsaKeypair) (lBytes nBytes : Nat) : DsaM TeeResult := do
  let ret ← (do
    if !(← caamCallocDesc ext (maxDescSign cfg.caam64)) then return teeErrorOutOfMemory
    if (← doKeyprivConv ext sdata.key lBytes nBytes) ≠ .noError then return teeErrorOutOfMemory
    let msg ← caamDmaobjInitInput ext .msg .msg sdata.message
    if msg.ret ≠ teeSuccess then return msg.ret
    caamDmaobjCachePush .msg false
    let signC ← caamDmaobjInitOutput ext .signC .sig sdata.signature (signLen cfg sdata.sizeSec)
    if signC.ret ≠ teeSuccess then return signC.ret
    let signD ← caamDmaobjDerive ext .signD
    if signD.ret ≠ teeSuccess then return signD.ret
    caamDmaobjCachePush .sig true
    caamDmaobjCachePush .sig true
    let desc := dsaSignDesc cfg.caam64 lBytes nBytes ⟨msg.sgtType, signC.sgtType, signD.sgtType⟩
      sdata.sizeSec sdata.message.length
    let (retstatus, status) ← caamJrEnqueue ext desc
    if retstatus = .noError then
      caamDmaobjCopyToOrig .sig
      setSigLength (2 * sdata.sizeSec % 2 ^ cfg.sizeBits)
      return teeSuccess
    else return ext.jobStatusToTeeResult status : DsaM TeeResult)
  caamFreeDesc
  doKeypairFree
  caamDmaobjFree .msg
  caamDmaobjFree .sig
  caamDmaobjFree .sig
  return ret

/-- `do_verify(sdata, l_bytes, n_bytes)`. -/
def doVerify (sdata : SignData DsaPublicKey) (lBytes nBytes : Nat) : DsaM TeeResult := do
  let ret ← (do
    if !(← caamCallocDesc ext (maxDescVerify cfg.caam64)) then return teeErrorOutOfMemory
    if (← doKeypubConv ext sdata.key lBytes nBytes) ≠ .noError then return teeErrorOutOfMemory
    let msg ← caamDmaobjInitInput ext .msg .msg sdata.message
    if msg.ret ≠ teeSuccess then return msg.ret
    caamDmaobjCachePush .msg false
    let signC ← caamDmaobjInitInput ext .signC .sig sdata.signature
    if signC.ret ≠ teeSuccess then return signC.ret
    let signD ← caamDmaobjDerive ext .signD
    if signD.ret ≠ teeSuccess then return signD.ret
    caamDmaobjCachePush .sig false
    caamDmaobjCachePush .sig false
    if (← caamAllocAlignBuf ext .tmp lBytes) ≠ .noError then return teeErrorOutOfMemory
    let desc := dsaVerifyDesc cfg.caam64 lBytes nBytes ⟨msg.sgtType, signC.sgtType, signD.sgtType⟩
      sdata.sizeSec sdata.message.length
    cacheOperation .flush .tmp
    let (retstatus, status) ← caamJrEnqueue ext desc
    if retstatus = .jobStatus ∧ status = 0 then return teeErrorSignatureInvalid
    else if retstatus ≠ .noError then return ext.jobStatusToTeeResult status
    else return teeSuccess : DsaM TeeResult)
  caamFreeDesc
  doKeypairFree
  caamFreeBuf .tmp
  caamDmaobjFree .msg
  caamDmaobjFree .sig
  caamDmaobjFree .sig
  return ret

end Operations

end CryptoDrivers.Caam
