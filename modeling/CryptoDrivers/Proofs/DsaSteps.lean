import CryptoDrivers.Caam.Dsa

/-!
# What each step of a DSA operation does

A property of the runs of an operation is stated as a postcondition on the result, the world
after it and the events it recorded, and `DsaM.wp` is what the world must satisfy before. The
`wp` of a bind, a branch and each step of `caam_dsa.c` are simp lemmas, so that `simp` walks an
operation path by path, every path ending in the postcondition on that path's outcome. The steps
that branch give one conjunct per branch.

The conversion of a key runs its fields in turn and stops at the first allocation that fails,
so each of its runs is the fields before that point, each giving a zeroed buffer of its width
with the value's bytes at its end (`convFields_apply`).
-/

namespace CryptoDrivers.Caam

/-- The weakest precondition of a step for a postcondition on its result, the world after it and
its events. -/
def DsaM.wp {α : Type} (c : DsaM α) (Q : α → World → List Event → Prop) (w : World) : Prop :=
  Q (c w).val (c w).world (c w).events

section Wp

variable {α β : Type} (Q : α → World → List Event → Prop) (w : World)

theorem DsaM.wp_def (c : DsaM α) : c.wp Q w ↔ Q (c w).val (c w).world (c w).events := Iff.rfl

@[simp]
theorem DsaM.wp_pure (a : α) : (pure a : DsaM α).wp Q w ↔ Q a w [] := Iff.rfl

@[simp]
theorem DsaM.wp_bind (m : DsaM β) (f : β → DsaM α) :
    (m >>= f).wp Q w ↔
      m.wp (fun b w' evs => (f b).wp (fun a w'' evs' => Q a w'' (evs ++ evs')) w') w :=
  ⟨id, id⟩

@[simp]
theorem DsaM.wp_ite (c : Prop) [Decidable c] (a b : DsaM α) :
    (if c then a else b).wp Q w ↔ (c → a.wp Q w) ∧ (¬c → b.wp Q w) := by
  split <;> simp_all

@[simp]
theorem DsaM.wp_getWorld (Q : World → World → List Event → Prop) :
    getWorld.wp Q w ↔ Q w w [] := Iff.rfl

@[simp]
theorem DsaM.wp_emit (Q : Unit → World → List Event → Prop) (e : Event) :
    (emit e).wp Q w ↔ Q () w [e] := Iff.rfl

end Wp

section Primitives

variable (ext : Ext) (w : World)

@[simp]
theorem wp_caamCallocBuf (Q : CaamStatus → World → List Event → Prop) (b : Buf) (size : Nat) :
    (caamCallocBuf ext b size).wp Q w ↔
      (ext.allocOk b = true →
        Q .noError (w.setMem b (List.replicate size 0)) [.alloc b size true]) ∧
      (ext.allocOk b = false → Q .outMemory w []) := by
  cases h : ext.allocOk b <;> simp [DsaM.wp_def, caamCallocBuf, h]

@[simp]
theorem wp_caamAllocAlignBuf (Q : CaamStatus → World → List Event → Prop) (b : Buf) (size : Nat) :
    (caamAllocAlignBuf ext b size).wp Q w ↔
      (ext.allocOk b = true → Q .noError w [.alloc b size false]) ∧
      (ext.allocOk b = false → Q .outMemory w []) := by
  cases h : ext.allocOk b <;> simp [DsaM.wp_def, caamAllocAlignBuf, h]

@[simp]
theorem wp_caamFreeBuf (Q : Unit → World → List Event → Prop) (b : Buf) :
    (caamFreeBuf b).wp Q w ↔ Q () w [.free b] := Iff.rfl

@[simp]
theorem wp_cacheOperation (Q : Unit → World → List Event → Prop) (op : CacheOp) (b : Buf) :
    (cacheOperation op b).wp Q w ↔ Q () w [.cache op b] := Iff.rfl

@[simp]
theorem wp_cryptoBignumBn2binAt (Q : Unit → World → List Event → Prop) (b : Buf) (off : Int)
    (s : Nat) :
    (cryptoBignumBn2binAt b off s).wp Q w ↔
      Q () (w.setMem b (writeAt (w.mem b) off (cryptoBignumBn2bin s)))
        [.hostWrite b off (cryptoBignumNumBytes s)] := by
  simp [DsaM.wp_def, cryptoBignumBn2binAt]

/-- The key a conversion leaves is read off the world only when asked for. -/
@[simp]
theorem wp_cryptoBignumBin2bnKey (Q : TeeResult → World → List Event → Prop) (b : Buf)
    (f : KeyField) :
    (cryptoBignumBin2bnKey ext b f).wp Q w ↔
      Q (ext.bin2bn f) (cryptoBignumBin2bnKey ext b f w).world [.hostRead b] := Iff.rfl

@[simp]
theorem cryptoBignumBin2bnKey_val (b : Buf) (f : KeyField) :
    (cryptoBignumBin2bnKey ext b f w).val = ext.bin2bn f := rfl

@[simp]
theorem cryptoBignumBin2bnKey_events (b : Buf) (f : KeyField) :
    (cryptoBignumBin2bnKey ext b f w).events = [.hostRead b] := rfl

@[simp]
theorem cryptoBignumBin2bnKey_world_mem (b : Buf) (f : KeyField) :
    (cryptoBignumBin2bnKey ext b f w).world.mem = w.mem := rfl

@[simp]
theorem cryptoBignumBin2bnKey_world_key (b : Buf) (f : KeyField) :
    (cryptoBignumBin2bnKey ext b f w).world.key = w.key.set f
      (if ext.bin2bn f = teeSuccess then cryptoBignumBin2bn (w.mem b) else ext.bin2bnLeft f) := rfl

@[simp]
theorem wp_caamPrimeDsaGen (Q : CaamStatus → World → List Event → Prop) :
    (caamPrimeDsaGen ext).wp Q w ↔
      Q ext.primeDsaGen.1
        (((w.setMem .p ext.primeDsaGen.2.1).setMem .q ext.primeDsaGen.2.2.1).setMem
          .g ext.primeDsaGen.2.2.2)
        ([.cache .flush .p, .cache .flush .q, .cache .flush .g, .devWrite .p, .devWrite .q,
          .devWrite .g] ++
        (if ext.primeDsaGen.1 = .noError then
          [.cache .invalidate .p, .cache .invalidate .q, .cache .invalidate .g] else [])) := Iff.rfl

/-- The job's status and `jobctx.status` are left as the call's value, so that a walk over an
operation does not compute the memory the CAAM reads unless a postcondition asks for it. -/
@[simp]
theorem wp_caamJrEnqueue (Q : CaamStatus × UInt32 → World → List Event → Prop) (desc : Desc) :
    (caamJrEnqueue ext desc).wp Q w ↔
      Q ((caamJrEnqueue ext desc w).val.1, (caamJrEnqueue ext desc w).val.2)
        (caamJrEnqueue ext desc w).world
        ((descReads desc).map (fun b => .devRead b (w.mem b)) ++ (descWrites desc).map .devWrite ++
          [.jobDone desc (caamJrEnqueue ext desc w).val.1]) := Iff.rfl

@[simp]
theorem caamPrimeDsaGen_world_key : (caamPrimeDsaGen ext w).world.key = w.key := rfl

@[simp]
theorem caamPrimeDsaGen_world_mem :
    (caamPrimeDsaGen ext w).world.mem = Function.update (Function.update (Function.update w.mem
      .p ext.primeDsaGen.2.1) .q ext.primeDsaGen.2.2.1) .g ext.primeDsaGen.2.2.2 := rfl

@[simp]
theorem caamJrEnqueue_world_key (desc : Desc) : (caamJrEnqueue ext desc w).world.key = w.key :=
  rfl

@[simp]
theorem caamJrEnqueue_world_sigLength (desc : Desc) :
    (caamJrEnqueue ext desc w).world.sigLength = w.sigLength := rfl

theorem caamJrEnqueue_world_mem (desc : Desc) (b : Buf) :
    (caamJrEnqueue ext desc w).world.mem b =
      if b ∈ descWrites desc then (ext.jrEnqueue desc w.mem).2.2 b else w.mem b := rfl

/-! The steps whose result the source tests at once with `if (ret) goto exit`: the `wp` of the
step together with its test (in the form `simp` puts the test in), so that each outcome meets
the test it passes. -/

@[simp high]
theorem wp_caamDmaobjInitInput_exit (Q : TeeResult → World → List Event → Prop)
    (c : DmaCall) (b : Buf) (data : Bytes) (k : DmaInit → DsaM TeeResult) :
    (caamDmaobjInitInput ext c b data >>= fun r =>
        if r.ret = teeSuccess then k r else pure r.ret).wp Q w ↔
      (¬ext.dmaobjInit c = teeSuccess → Q (ext.dmaobjInit c) w []) ∧
      (ext.dmaobjInit c = teeSuccess → (k ⟨teeSuccess, ext.dmaobjSgt c⟩).wp
        (fun a w' evs => Q a w' ((if ext.dmaobjRealloc c then
          [.alloc b data.length false, .hostWrite b 0 data.length] else []) ++ evs))
        (w.setMem b data)) := by
  by_cases h : ext.dmaobjInit c = teeSuccess <;> cases hr : ext.dmaobjRealloc c <;>
    simp [DsaM.wp_def, caamDmaobjInitInput, h, hr]

@[simp high]
theorem wp_caamDmaobjInitOutput_exit (Q : TeeResult → World → List Event → Prop) (c : DmaCall)
    (b : Buf) (data : Bytes) (allocLength : Nat) (k : DmaInit → DsaM TeeResult) :
    (caamDmaobjInitOutput ext c b data allocLength >>= fun r =>
        if r.ret = teeSuccess then k r else pure r.ret).wp Q w ↔
      (¬ext.dmaobjInit c = teeSuccess → Q (ext.dmaobjInit c) w []) ∧
      (ext.dmaobjInit c = teeSuccess → (k ⟨teeSuccess, ext.dmaobjSgt c⟩).wp
        (fun a w' evs => Q a w'
          ((if ext.dmaobjRealloc c then [.alloc b allocLength true] else []) ++ evs))
        (w.setMem b (if ext.dmaobjRealloc c then List.replicate allocLength 0 else data))) := by
  by_cases h : ext.dmaobjInit c = teeSuccess <;> cases hr : ext.dmaobjRealloc c <;>
    simp [DsaM.wp_def, caamDmaobjInitOutput, h, hr]

@[simp high]
theorem wp_caamDmaobjDerive_exit (Q : TeeResult → World → List Event → Prop) (c : DmaCall)
    (k : DmaInit → DsaM TeeResult) :
    (caamDmaobjDerive ext c >>= fun r => if r.ret = teeSuccess then k r else pure r.ret).wp Q w ↔
      (¬ext.dmaobjInit c = teeSuccess → Q (ext.dmaobjInit c) w []) ∧
      (ext.dmaobjInit c = teeSuccess → (k ⟨teeSuccess, ext.dmaobjSgt c⟩).wp Q w) := by
  by_cases h : ext.dmaobjInit c = teeSuccess <;> simp [DsaM.wp_def, caamDmaobjDerive, h]

@[simp high]
theorem wp_caamPrimeDsaGen_exit (Q : TeeResult → World → List Event → Prop)
    (k : DsaM TeeResult) :
    (caamPrimeDsaGen ext >>= fun st =>
        if st = .noError then k else pure teeErrorGeneric).wp Q w ↔
      (¬ext.primeDsaGen.1 = .noError → Q teeErrorGeneric (caamPrimeDsaGen ext w).world
        [.cache .flush .p, .cache .flush .q, .cache .flush .g, .devWrite .p, .devWrite .q,
          .devWrite .g]) ∧
      (ext.primeDsaGen.1 = .noError → k.wp (fun a w' evs => Q a w'
        ([.cache .flush .p, .cache .flush .q, .cache .flush .g, .devWrite .p, .devWrite .q,
          .devWrite .g, .cache .invalidate .p, .cache .invalidate .q,
          .cache .invalidate .g] ++ evs))
        (caamPrimeDsaGen ext w).world) := by
  by_cases h : ext.primeDsaGen.1 = .noError <;> simp [DsaM.wp_def, caamPrimeDsaGen, h]

@[simp high]
theorem wp_cryptoBignumBin2bnKey_exit (Q : TeeResult → World → List Event → Prop) (b : Buf)
    (f : KeyField) (k : DsaM TeeResult) :
    (cryptoBignumBin2bnKey ext b f >>= fun r => if r = teeSuccess then k else pure r).wp Q w ↔
      (¬ext.bin2bn f = teeSuccess →
        Q (ext.bin2bn f) (cryptoBignumBin2bnKey ext b f w).world [.hostRead b]) ∧
      (ext.bin2bn f = teeSuccess → k.wp (fun a w' evs => Q a w' (.hostRead b :: evs))
        (cryptoBignumBin2bnKey ext b f w).world) := by
  by_cases h : ext.bin2bn f = teeSuccess <;> simp [DsaM.wp_def, h]

@[simp]
theorem wp_caamCallocDesc (Q : Bool → World → List Event → Prop) (n : Nat) :
    (caamCallocDesc ext n).wp Q w ↔
      (ext.allocOk .desc = true → Q true w [.alloc .desc (4 * n) true]) ∧
      (ext.allocOk .desc = false → Q false w []) := by
  cases h : ext.allocOk .desc <;> simp [DsaM.wp_def, caamCallocDesc, h]

@[simp]
theorem wp_setSigLength (Q : Unit → World → List Event → Prop) (len : Nat) :
    (setSigLength len).wp Q w ↔ Q () { w with sigLength := len } [] := Iff.rfl

end Primitives

/-! The three descriptors word by word, and the buffers each one's job reads and writes, read off
its pointers and operation. -/

section DescBufs

variable (c : Bool) (l n : Nat) (sgt : SgtFlags) (sizeSec msgLen : Nat)

theorem genKeypairDesc_eq : genKeypairDesc c l n =
    [.header (if c then 13 else 8) (if c then 12 else 7), .pdbKeySize l n, .ptr .p 0, .ptr .q 0,
      .ptr .g 0, .ptr .x 0, .ptr .y 0, .operation .keypairGen] := by
  cases c <;> simp [genKeypairDesc, caamDescInit, caamDescAddWord, caamDescAddPtr,
    caamDescUpdateHdr, caamDescGetLen, DescWord.words]

/-- With 64-bit pointers the key-generation descriptor still fits the `MAX_DESC_KEY_GEN` words
allocated for it. -/
example : caamDescGetLen true (genKeypairDesc true l n) ≤ maxDescKeyGen true := by
  simp [genKeypairDesc_eq, caamDescGetLen, DescWord.words, maxDescKeyGen]

theorem dsaSignDesc_eq : dsaSignDesc c l n sgt sizeSec msgLen =
    [.header (if c then 18 else 11) (if c then 17 else 10), .pdbSign n l sgt, .ptr .p 0, .ptr .q 0,
      .ptr .g 0, .ptr .x 0, .ptr .msg 0, .ptr .sig 0, .ptr .sig sizeSec, .msgLen msgLen,
      .operation .dsaSign] := by
  cases c <;> simp [dsaSignDesc, caamDescInit, caamDescAddWord, caamDescAddPtr,
    caamDescUpdateHdr, caamDescGetLen, DescWord.words]

theorem dsaVerifyDesc_eq : dsaVerifyDesc c l n sgt sizeSec msgLen =
    [.header (if c then 20 else 12) (if c then 19 else 11), .pdbVerif n l sgt, .ptr .p 0, .ptr .q 0,
      .ptr .g 0, .ptr .y 0, .ptr .msg 0, .ptr .sig 0, .ptr .sig sizeSec, .ptr .tmp 0,
      .msgLen msgLen, .operation .dsaVerify] := by
  cases c <;> simp [dsaVerifyDesc, caamDescInit, caamDescAddWord, caamDescAddPtr,
    caamDescUpdateHdr, caamDescGetLen, DescWord.words]

@[simp]
theorem descReads_genKeypairDesc : descReads (genKeypairDesc c l n) = [.p, .q, .g] := by
  simp [genKeypairDesc_eq, descReads, descPtrs, descOp, PkOp.inputs]

@[simp]
theorem descWrites_genKeypairDesc : descWrites (genKeypairDesc c l n) = [.x, .y] := by
  simp [genKeypairDesc_eq, descWrites, descPtrs, descOp, PkOp.inputs]

@[simp]
theorem descReads_dsaSignDesc :
    descReads (dsaSignDesc c l n sgt sizeSec msgLen) = [.p, .q, .g, .x, .msg] := by
  simp [dsaSignDesc_eq, descReads, descPtrs, descOp, PkOp.inputs]

@[simp]
theorem descWrites_dsaSignDesc :
    descWrites (dsaSignDesc c l n sgt sizeSec msgLen) = [.sig, .sig] := by
  simp [dsaSignDesc_eq, descWrites, descPtrs, descOp, PkOp.inputs]

@[simp]
theorem descReads_dsaVerifyDesc :
    descReads (dsaVerifyDesc c l n sgt sizeSec msgLen) = [.p, .q, .g, .y, .msg, .sig, .sig] := by
  simp [dsaVerifyDesc_eq, descReads, descPtrs, descOp, PkOp.inputs]

@[simp]
theorem descWrites_dsaVerifyDesc :
    descWrites (dsaVerifyDesc c l n sgt sizeSec msgLen) = [.tmp] := by
  simp [dsaVerifyDesc_eq, descWrites, descPtrs, descOp, PkOp.inputs]

end DescBufs

/-! A job's status compared with a status, in the orientation the source's tests give it. -/

@[simp]
theorem CaamStatus.noError_eq_iff (s : CaamStatus) : CaamStatus.noError = s ↔ s = .noError :=
  eq_comm

@[simp]
theorem CaamStatus.jobStatus_eq_iff (s : CaamStatus) : CaamStatus.jobStatus = s ↔ s = .jobStatus :=
  eq_comm

/-- The scatter-gather flags a run's DMA objects give its descriptor. -/
def Ext.dmaSgt (ext : Ext) : SgtFlags :=
  ⟨ext.dmaobjSgt .msg, ext.dmaobjSgt .signC, ext.dmaobjSgt .signD⟩

/-- What the conversion of a field `(buffer, width, value)` leaves in the world: the buffer
holding the value's bytes stored into `width` zeros. -/
def convWorld (w : World) (f : Buf × Nat × Nat) : World :=
  w.setMem f.1 (writeAt (List.replicate f.2.1 0) (f.2.1 - cryptoBignumNumBytes f.2.2)
    (cryptoBignumBn2bin f.2.2))

@[simp]
theorem convWorld_mem (w : World) (f : Buf × Nat × Nat) :
    (convWorld w f).mem = Function.update w.mem f.1
      (writeAt (List.replicate f.2.1 0) (f.2.1 - cryptoBignumNumBytes f.2.2)
        (cryptoBignumBn2bin f.2.2)) := rfl

/-- What the conversion of a field does: the zeroing allocation, then the store of the value's
`crypto_bignum_num_bytes` bytes at `width` less that many. -/
def convEvents (f : Buf × Nat × Nat) : List Event :=
  [.alloc f.1 f.2.1 true,
    .hostWrite f.1 (f.2.1 - cryptoBignumNumBytes f.2.2) (cryptoBignumNumBytes f.2.2)]

/-- What a zeroing allocation of `width` bytes leaves in the world. -/
def callocWorld (w : World) (f : Buf × Nat) : World :=
  w.setMem f.1 (List.replicate f.2 0)

@[simp]
theorem callocWorld_key (w : World) (f : Buf × Nat) : (callocWorld w f).key = w.key := rfl

@[simp]
theorem callocWorld_mem (w : World) (f : Buf × Nat) :
    (callocWorld w f).mem = Function.update w.mem f.1 (List.replicate f.2 0) := rfl

/-- What a store of a field's value at the end of its buffer leaves in the world. -/
def storeWorld (w : World) (f : Buf × Nat × Nat) : World :=
  w.setMem f.1 (writeAt (w.mem f.1) (f.2.1 - cryptoBignumNumBytes f.2.2) (cryptoBignumBn2bin f.2.2))

@[simp]
theorem storeWorld_key (w : World) (f : Buf × Nat × Nat) : (storeWorld w f).key = w.key := rfl

@[simp]
theorem storeWorld_mem (w : World) (f : Buf × Nat × Nat) :
    (storeWorld w f).mem = Function.update w.mem f.1
      (writeAt (w.mem f.1) (f.2.1 - cryptoBignumNumBytes f.2.2) (cryptoBignumBn2bin f.2.2)) := rfl

/-- What a store of a field's value does: the store, then the clean of its buffer. -/
def storeEvents (f : Buf × Nat × Nat) : List Event :=
  [.hostWrite f.1 (f.2.1 - cryptoBignumNumBytes f.2.2) (cryptoBignumNumBytes f.2.2),
    .cache .clean f.1]

@[simp]
theorem foldl_callocWorld_key (fs : List (Buf × Nat)) (w : World) :
    (fs.foldl callocWorld w).key = w.key := by
  induction fs generalizing w with
  | nil => rfl
  | cons f fs ih => exact ih _

@[simp]
theorem convWorld_key (w : World) (f : Buf × Nat × Nat) : (convWorld w f).key = w.key := rfl

theorem storeFields_apply (fs : List (Buf × Nat × Nat)) (w : World) :
    storeFields fs w = ⟨(), fs.foldl storeWorld w, fs.flatMap storeEvents⟩ := by
  induction fs generalizing w with
  | nil => rfl
  | cons f fs ih =>
    obtain ⟨b, width, s⟩ := f
    simp [storeFields, cryptoBignumBn2binAt, cacheOperation, ih, storeWorld, storeEvents]

section Conv

variable (ext : Ext)

/-- The fields a run of allocations gets through: those before the first that fails. -/
def convDone {α : Type} (fs : List (Buf × α)) : List (Buf × α) :=
  fs.takeWhile fun f => ext.allocOk f.1

/-- Whether every allocation of a run succeeds. -/
def convOk {α : Type} (fs : List (Buf × α)) : Bool :=
  fs.all fun f => ext.allocOk f.1

theorem convFields_apply (fs : List (Buf × Nat × Nat)) (w : World) :
    convFields ext fs w =
      ⟨if convOk ext fs then .noError else .outMemory, (convDone ext fs).foldl convWorld w,
        (convDone ext fs).flatMap convEvents⟩ := by
  induction fs generalizing w with
  | nil => rfl
  | cons f fs ih =>
    obtain ⟨b, width, s⟩ := f
    by_cases h : ext.allocOk b
    · simp [convFields, caamCallocBuf, cryptoBignumBn2binAt, convDone, h, ih, convWorld,
        convEvents]
      simp only [convOk, List.all_cons, h, Bool.true_and]
    · simp [convFields, caamCallocBuf, convOk, convDone, h]

theorem cleanFields_apply (fs : List (Buf × Nat × Nat)) (w : World) :
    cleanFields fs w = ⟨(), w, fs.map fun f => .cache .clean f.1⟩ := by
  induction fs with
  | nil => rfl
  | cons f fs ih => simp [cleanFields, cacheOperation, ih]

theorem keyConv_apply (fs : List (Buf × Nat × Nat)) (w : World) :
    keyConv ext fs w =
      ⟨if convOk ext fs then .noError else .outMemory, (convDone ext fs).foldl convWorld w,
        (convDone ext fs).flatMap convEvents ++
          if convOk ext fs then fs.map (fun f => .cache .clean f.1) else []⟩ := by
  by_cases h : convOk ext fs <;> simp [keyConv, convFields_apply, cleanFields_apply, h]

/-- A run whose allocations all succeed gets through every field. -/
theorem convDone_of_convOk {α : Type} {fs : List (Buf × α)} (h : convOk ext fs = true) :
    convDone ext fs = fs := by
  simpa [convDone, convOk, List.takeWhile_eq_self_iff] using h

theorem callocFields_apply (fs : List (Buf × Nat)) (w : World) :
    callocFields ext fs w =
      ⟨if convOk ext fs then teeSuccess else teeErrorOutOfMemory,
        (convDone ext fs).foldl callocWorld w,
        (convDone ext fs).map fun f => .alloc f.1 f.2 true⟩ := by
  induction fs generalizing w with
  | nil => rfl
  | cons f fs ih =>
    obtain ⟨b, width⟩ := f
    by_cases h : ext.allocOk b
    · simp [callocFields, caamCallocBuf, convDone, h, ih, callocWorld]
      simp only [convOk, List.all_cons, h, Bool.true_and]
    · simp [callocFields, caamCallocBuf, convOk, convDone, h]

@[simp]
theorem wp_keyConv (Q : CaamStatus → World → List Event → Prop) (fs : List (Buf × Nat × Nat))
    (w : World) :
    (keyConv ext fs).wp Q w ↔
      (convOk ext fs = true → Q .noError (fs.foldl convWorld w)
        (fs.flatMap convEvents ++ fs.map fun f => .cache .clean f.1)) ∧
      (convOk ext fs = false →
        Q .outMemory ((convDone ext fs).foldl convWorld w)
          ((convDone ext fs).flatMap convEvents)) := by
  cases h : convOk ext fs <;> simp [DsaM.wp_def, keyConv_apply, h, convDone_of_convOk]

@[simp]
theorem wp_callocFields (Q : TeeResult → World → List Event → Prop) (fs : List (Buf × Nat))
    (w : World) :
    (callocFields ext fs).wp Q w ↔
      (convOk ext fs = true →
        Q teeSuccess (fs.foldl callocWorld w) (fs.map fun f => .alloc f.1 f.2 true)) ∧
      (convOk ext fs = false → Q teeErrorOutOfMemory ((convDone ext fs).foldl callocWorld w)
        ((convDone ext fs).map fun f => .alloc f.1 f.2 true)) := by
  cases h : convOk ext fs <;> simp [DsaM.wp_def, callocFields_apply, h, convDone_of_convOk]

end Conv

@[simp]
theorem wp_storeFields (Q : Unit → World → List Event → Prop) (fs : List (Buf × Nat × Nat))
    (w : World) :
    (storeFields fs).wp Q w ↔ Q () (fs.foldl storeWorld w) (fs.flatMap storeEvents) := by
  simp [DsaM.wp_def, storeFields_apply]

section Keys

variable (ext : Ext) (w : World)

@[simp]
theorem wp_doKeypairFree (Q : Unit → World → List Event → Prop) :
    doKeypairFree.wp Q w ↔ Q () w [.free .g, .free .p, .free .q, .free .x, .free .y] := by
  simp [doKeypairFree]

/-- `get_keypair_domain_params` in one step: the three zeroed allocations, then the key's domain
parameters stored and cleaned, or fresh ones generated and written back into the key. -/
@[simp]
theorem wp_getKeypairDomainParams (Q : TeeResult → World → List Event → Prop) (l n : Nat) :
    (getKeypairDomainParams ext l n).wp Q w ↔
      (convOk ext [(.q, n), (.g, l), (.p, l)] = true →
        let w₁ := callocWorld (callocWorld (callocWorld w (.q, n)) (.g, l)) (.p, l)
        let allocs : List Event := [.alloc .q n true, .alloc .g l true, .alloc .p l true]
        let gen : List Event := [.cache .flush .p, .cache .flush .q, .cache .flush .g,
          .devWrite .p, .devWrite .q, .devWrite .g]
        (cryptoBignumNumBytes w.key.q = 0 ∨ cryptoBignumNumBytes w.key.g = 0 ∨
            cryptoBignumNumBytes w.key.p = 0 →
          (¬ext.primeDsaGen.1 = .noError →
            Q teeErrorGeneric (caamPrimeDsaGen ext w₁).world (allocs ++ gen)) ∧
          (ext.primeDsaGen.1 = .noError →
            Q teeSuccess (cryptoBignumBin2bnKey ext .p .p (cryptoBignumBin2bnKey ext .g .g
                (cryptoBignumBin2bnKey ext .q .q (caamPrimeDsaGen ext w₁).world).world).world).world
              (allocs ++ gen ++ [.cache .invalidate .p, .cache .invalidate .q,
                .cache .invalidate .g, .hostRead .q, .hostRead .g, .hostRead .p]))) ∧
        (¬cryptoBignumNumBytes w.key.q = 0 → ¬cryptoBignumNumBytes w.key.g = 0 →
            ¬cryptoBignumNumBytes w.key.p = 0 →
          Q teeSuccess ([(.q, n, w.key.q), (.g, l, w.key.g), (.p, l, w.key.p)].foldl storeWorld w₁)
            (allocs ++
              [(.q, n, w.key.q), (.g, l, w.key.g), (.p, l, w.key.p)].flatMap storeEvents))) ∧
      (convOk ext [(.q, n), (.g, l), (.p, l)] = false →
        Q teeErrorOutOfMemory ((convDone ext [(.q, n), (.g, l), (.p, l)]).foldl callocWorld w)
          ((convDone ext [(.q, n), (.g, l), (.p, l)]).map fun f => .alloc f.1 f.2 true)) := by
  simp [getKeypairDomainParams]

end Keys

/-! ## A run where every outside call succeeds -/

/-- The outcomes of a run in which every allocation, generation, conversion and job succeeds,
the generator giving `p = 23`, `q = 11`, `g = 4` and the job writing `1` into what it writes. -/
def Ext.nominal : Ext where
  allocOk _ := true
  primeDsaGen := (.noError, [23], [11], [4])
  jrEnqueue _ _ := (.noError, 0, fun _ => [1])
  jobStatusToTeeResult _ := teeErrorGeneric
  bin2bn _ := teeSuccess
  bin2bnLeft _ := 0
  dmaobjInit _ := teeSuccess
  dmaobjRealloc _ := false
  dmaobjSgt _ := false

/-- A world with a zero keypair and nothing allocated. -/
def World.empty : World where
  key := ⟨0, 0, 0, 0, 0⟩
  mem _ := []
  sigLength := 0

end CryptoDrivers.Caam
