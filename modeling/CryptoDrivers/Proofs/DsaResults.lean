import CryptoDrivers.Proofs.KeyConv

/-!
# What the DSA operations return

Each operation hands one descriptor to the job ring and turns what comes back into its result,
after a chain of steps any of which can end it early with the error it met. Whatever those steps
and the job return, `TEE_SUCCESS` comes only from a job that ran the operation's descriptor and
returned `CAAM_NO_ERROR`, and a verification reports a bad signature only when its job returned
`CAAM_JOB_STATUS` (`dsaOperations_fail_closed`). The results are read off `DsaM.wp`: each proof
walks the operation once, step lemma by step lemma, and meets the postcondition at every exit.

A generation that takes fresh domain parameters drops the results of their three write-backs
into the caller's key, so a success can leave the key with domain parameters other than those
its `x` and `y` were generated for (`doGenKeypair_drops_q_writeback`). When the write-backs of
generated parameters succeed, and supplied ones fit their widths, the key is what the buffers
hold (`doGenKeypair_key_of_writebacks`).
-/

namespace CryptoDrivers.Caam

/-! ## No operation fails open -/

section Outcome

variable (ext : Ext) (cfg : Cfg) (w : World)

theorem doGenKeypair_success_job (lBits nBits : Nat)
    (hjob : ∀ s, ext.jobStatusToTeeResult s ≠ teeSuccess) :
    (doGenKeypair ext cfg lBits nBits).wp (fun r _ evs => r = teeSuccess →
      .jobDone (genKeypairDesc cfg.caam64 (lBits / 8) (nBits / 8)) .noError ∈ evs) w := by
  simp [doGenKeypair, caamCallocAlignBuf, caamFreeDesc, hjob, storeEvents]
  all_goals simp +contextual

theorem doSign_success_job (sdata : SignData DsaKeypair) (lBytes nBytes : Nat)
    (hjob : ∀ s, ext.jobStatusToTeeResult s ≠ teeSuccess) :
    (doSign ext cfg sdata lBytes nBytes).wp (fun r _ evs => r = teeSuccess →
      .jobDone (dsaSignDesc cfg.caam64 lBytes nBytes ext.dmaSgt sdata.sizeSec
        sdata.message.length) .noError ∈ evs) w := by
  simp [doSign, doKeyprivConv, caamDmaobjCachePush, caamFreeDesc, caamDmaobjFree,
    caamDmaobjCopyToOrig, hjob, convEvents, Ext.dmaSgt]

theorem doVerify_outcome_job (sdata : SignData DsaPublicKey) (lBytes nBytes : Nat)
    (hjob : ∀ s, ext.jobStatusToTeeResult s ≠ teeSuccess ∧
      ext.jobStatusToTeeResult s ≠ teeErrorSignatureInvalid)
    (hdma : ∀ c, ext.dmaobjInit c ≠ teeErrorSignatureInvalid) :
    (doVerify ext cfg sdata lBytes nBytes).wp (fun r _ evs =>
      (r = teeSuccess → .jobDone (dsaVerifyDesc cfg.caam64 lBytes nBytes ext.dmaSgt
        sdata.sizeSec sdata.message.length) .noError ∈ evs) ∧
      (r = teeErrorSignatureInvalid → .jobDone (dsaVerifyDesc cfg.caam64 lBytes nBytes
        ext.dmaSgt sdata.sizeSec sdata.message.length) .jobStatus ∈ evs)) w := by
  simp [doVerify, doKeypubConv, caamDmaobjCachePush, caamFreeDesc, caamDmaobjFree, hjob, hdma,
    convEvents, Ext.dmaSgt]
  all_goals intros; assumption

/-- Whatever every step and the job return, an operation succeeds only after the job ring ran
its descriptor, built with the scatter-gather flags of its DMA objects, and returned
`CAAM_NO_ERROR`, and a verification reports a bad signature only after that job returned
`CAAM_JOB_STATUS`; provided no failing helper and no job status maps to either result. -/
theorem dsaOperations_fail_closed (lBits nBits lBytes nBytes : Nat) (sdata : SignData DsaKeypair)
    (vdata : SignData DsaPublicKey)
    (hjob : ∀ s, ext.jobStatusToTeeResult s ≠ teeSuccess ∧
      ext.jobStatusToTeeResult s ≠ teeErrorSignatureInvalid)
    (hdma : ∀ c, ext.dmaobjInit c ≠ teeErrorSignatureInvalid) :
    let gen := doGenKeypair ext cfg lBits nBits w
    let sign := doSign ext cfg sdata lBytes nBytes w
    let verify := doVerify ext cfg vdata lBytes nBytes w
    let verifyDesc := dsaVerifyDesc cfg.caam64 lBytes nBytes ext.dmaSgt vdata.sizeSec
      vdata.message.length
    (gen.val = teeSuccess →
      .jobDone (genKeypairDesc cfg.caam64 (lBits / 8) (nBits / 8)) .noError ∈ gen.events) ∧
    (sign.val = teeSuccess → .jobDone (dsaSignDesc cfg.caam64 lBytes nBytes ext.dmaSgt
      sdata.sizeSec sdata.message.length) .noError ∈ sign.events) ∧
    (verify.val = teeSuccess → .jobDone verifyDesc .noError ∈ verify.events) ∧
    (verify.val = teeErrorSignatureInvalid → .jobDone verifyDesc .jobStatus ∈ verify.events) :=
  have hv := doVerify_outcome_job ext cfg w vdata lBytes nBytes hjob hdma
  ⟨doGenKeypair_success_job ext cfg w lBits nBits fun s => (hjob s).1,
    doSign_success_job ext cfg w sdata lBytes nBytes fun s => (hjob s).1, hv.1, hv.2⟩

theorem dsaOperations_fail_closed_nominal :
    (∀ s, Ext.nominal.jobStatusToTeeResult s ≠ teeSuccess ∧
      Ext.nominal.jobStatusToTeeResult s ≠ teeErrorSignatureInvalid) ∧
    (∀ c, Ext.nominal.dmaobjInit c ≠ teeErrorSignatureInvalid) ∧
    let cfg : Cfg := ⟨false, 32⟩
    let sdata : SignData DsaKeypair := ⟨⟨4, 23, 11, 3, 8⟩, 1, [5], [0, 0]⟩
    let vdata : SignData DsaPublicKey := ⟨⟨4, 23, 11, 8⟩, 1, [5], [2, 3]⟩
    let gen := doGenKeypair Ext.nominal cfg 8 8 World.empty
    let sign := doSign Ext.nominal cfg sdata 1 1 World.empty
    let verify := doVerify Ext.nominal cfg vdata 1 1 World.empty
    let verifyDesc := dsaVerifyDesc false 1 1 Ext.nominal.dmaSgt 1 1
    (gen.val = teeSuccess → .jobDone (genKeypairDesc false 1 1) .noError ∈ gen.events) ∧
    (sign.val = teeSuccess →
      .jobDone (dsaSignDesc false 1 1 Ext.nominal.dmaSgt 1 1) .noError ∈ sign.events) ∧
    (verify.val = teeSuccess → .jobDone verifyDesc .noError ∈ verify.events) ∧
    (verify.val = teeErrorSignatureInvalid → .jobDone verifyDesc .jobStatus ∈ verify.events) :=
  have hjob : ∀ s, Ext.nominal.jobStatusToTeeResult s ≠ teeSuccess ∧
      Ext.nominal.jobStatusToTeeResult s ≠ teeErrorSignatureInvalid :=
    fun _ => ⟨teeErrorGeneric_ne_success, teeErrorGeneric_ne_signatureInvalid⟩
  have hdma : ∀ c, Ext.nominal.dmaobjInit c ≠ teeErrorSignatureInvalid :=
    fun _ => teeSuccess_ne_signatureInvalid
  ⟨hjob, hdma, dsaOperations_fail_closed Ext.nominal ⟨false, 32⟩ World.empty 8 8 1 1
    ⟨⟨4, 23, 11, 3, 8⟩, 1, [5], [0, 0]⟩ ⟨⟨4, 23, 11, 8⟩, 1, [5], [2, 3]⟩ hjob hdma⟩

end Outcome

/-! ## The key a generation leaves -/

/-- The keypair the buffers `g`, `p`, `q`, `x` and `y` hold, each read as a big-endian number. -/
def bufferKeypair (mem : Buf → Bytes) : DsaKeypair :=
  ⟨cryptoBignumBin2bn (mem .g), cryptoBignumBin2bn (mem .p), cryptoBignumBin2bn (mem .q),
    cryptoBignumBin2bn (mem .x), cryptoBignumBin2bn (mem .y)⟩

section KeyLeft

variable (ext : Ext) (cfg : Cfg) (w : World) (lBits nBits : Nat)

theorem doGenKeypair_key_generated (hjob : ∀ s, ext.jobStatusToTeeResult s ≠ teeSuccess)
    (hbin : ext.bin2bn .q = teeSuccess ∧ ext.bin2bn .g = teeSuccess ∧ ext.bin2bn .p = teeSuccess)
    (h : cryptoBignumNumBytes w.key.q = 0 ∨ cryptoBignumNumBytes w.key.g = 0 ∨
      cryptoBignumNumBytes w.key.p = 0) :
    (doGenKeypair ext cfg lBits nBits).wp (fun r w' _ => r = teeSuccess →
      w'.key = bufferKeypair w'.mem) w := by
  simp [doGenKeypair, caamCallocAlignBuf, caamFreeDesc, storeEvents, caamJrEnqueue_world_mem,
    hbin, hjob, h, bufferKeypair, DsaKeypair.set]
  all_goals simp +contextual
  all_goals intros; omega

theorem doGenKeypair_key_supplied (hjob : ∀ s, ext.jobStatusToTeeResult s ≠ teeSuccess)
    (hq : cryptoBignumNumBytes w.key.q ≤ nBits / 8) (hg : cryptoBignumNumBytes w.key.g ≤ lBits / 8)
    (hp : cryptoBignumNumBytes w.key.p ≤ lBits / 8) (hq0 : cryptoBignumNumBytes w.key.q ≠ 0)
    (hg0 : cryptoBignumNumBytes w.key.g ≠ 0) (hp0 : cryptoBignumNumBytes w.key.p ≠ 0) :
    (doGenKeypair ext cfg lBits nBits).wp (fun r w' _ => r = teeSuccess →
      w'.key = bufferKeypair w'.mem) w := by
  unfold doGenKeypair
  generalize lBits / 8 = L at hg hp ⊢
  generalize nBits / 8 = N at hq ⊢
  simp [cryptoBignumBin2bn_writeAt_bn2bin hq, cryptoBignumBin2bn_writeAt_bn2bin hg,
    cryptoBignumBin2bn_writeAt_bn2bin hp, caamCallocAlignBuf, caamFreeDesc, storeEvents,
    caamJrEnqueue_world_mem, hq0, hg0, hp0, hjob, bufferKeypair, DsaKeypair.set]
  all_goals simp +contextual

end KeyLeft

/-- When the write-backs of generated domain parameters succeed and supplied ones fit their
widths, a successful generation leaves in the caller's key exactly what its buffers hold: the
`p`, `q` and `g` the job read and the `x` and `y` it wrote. -/
theorem doGenKeypair_key_of_writebacks (ext : Ext) (cfg : Cfg) (w : World) (lBits nBits : Nat)
    (hjob : ∀ s, ext.jobStatusToTeeResult s ≠ teeSuccess)
    (hbin : cryptoBignumNumBytes w.key.q = 0 ∨ cryptoBignumNumBytes w.key.g = 0 ∨
        cryptoBignumNumBytes w.key.p = 0 →
      ext.bin2bn .q = teeSuccess ∧ ext.bin2bn .g = teeSuccess ∧ ext.bin2bn .p = teeSuccess)
    (hfit : cryptoBignumNumBytes w.key.q ≠ 0 → cryptoBignumNumBytes w.key.g ≠ 0 →
        cryptoBignumNumBytes w.key.p ≠ 0 →
      cryptoBignumNumBytes w.key.q ≤ nBits / 8 ∧ cryptoBignumNumBytes w.key.g ≤ lBits / 8 ∧
        cryptoBignumNumBytes w.key.p ≤ lBits / 8) :
    (doGenKeypair ext cfg lBits nBits w).val = teeSuccess →
      (doGenKeypair ext cfg lBits nBits w).world.key =
        bufferKeypair (doGenKeypair ext cfg lBits nBits w).world.mem := by
  by_cases h : cryptoBignumNumBytes w.key.q = 0 ∨ cryptoBignumNumBytes w.key.g = 0 ∨
      cryptoBignumNumBytes w.key.p = 0
  · exact doGenKeypair_key_generated ext cfg w lBits nBits hjob (hbin h) h
  · push_neg at h
    obtain ⟨hq, hg, hp⟩ := hfit h.1 h.2.1 h.2.2
    exact doGenKeypair_key_supplied ext cfg w lBits nBits hjob hq hg hp h.1 h.2.1 h.2.2

theorem doGenKeypair_key_of_writebacks_nominal :
    (∀ s, Ext.nominal.jobStatusToTeeResult s ≠ teeSuccess) ∧
    (cryptoBignumNumBytes World.empty.key.q = 0 ∨ cryptoBignumNumBytes World.empty.key.g = 0 ∨
        cryptoBignumNumBytes World.empty.key.p = 0 →
      Ext.nominal.bin2bn .q = teeSuccess ∧ Ext.nominal.bin2bn .g = teeSuccess ∧
        Ext.nominal.bin2bn .p = teeSuccess) ∧
    (cryptoBignumNumBytes World.empty.key.q ≠ 0 → cryptoBignumNumBytes World.empty.key.g ≠ 0 →
        cryptoBignumNumBytes World.empty.key.p ≠ 0 →
      cryptoBignumNumBytes World.empty.key.q ≤ 8 / 8 ∧
        cryptoBignumNumBytes World.empty.key.g ≤ 8 / 8 ∧
        cryptoBignumNumBytes World.empty.key.p ≤ 8 / 8) ∧
    ((doGenKeypair Ext.nominal ⟨false, 32⟩ 8 8 World.empty).val = teeSuccess →
      (doGenKeypair Ext.nominal ⟨false, 32⟩ 8 8 World.empty).world.key =
        bufferKeypair (doGenKeypair Ext.nominal ⟨false, 32⟩ 8 8 World.empty).world.mem) :=
  have hjob : ∀ s, Ext.nominal.jobStatusToTeeResult s ≠ teeSuccess :=
    fun _ => teeErrorGeneric_ne_success
  have hbin : cryptoBignumNumBytes World.empty.key.q = 0 ∨
      cryptoBignumNumBytes World.empty.key.g = 0 ∨ cryptoBignumNumBytes World.empty.key.p = 0 →
      Ext.nominal.bin2bn .q = teeSuccess ∧ Ext.nominal.bin2bn .g = teeSuccess ∧
        Ext.nominal.bin2bn .p = teeSuccess := fun _ => ⟨rfl, rfl, rfl⟩
  have hfit : cryptoBignumNumBytes World.empty.key.q ≠ 0 →
      cryptoBignumNumBytes World.empty.key.g ≠ 0 → cryptoBignumNumBytes World.empty.key.p ≠ 0 →
      cryptoBignumNumBytes World.empty.key.q ≤ 8 / 8 ∧
        cryptoBignumNumBytes World.empty.key.g ≤ 8 / 8 ∧
        cryptoBignumNumBytes World.empty.key.p ≤ 8 / 8 := by
    simp [World.empty, cryptoBignumNumBytes]
  ⟨hjob, hbin, hfit,
    doGenKeypair_key_of_writebacks Ext.nominal ⟨false, 32⟩ World.empty 8 8 hjob hbin hfit⟩

/-- A generation from a key without domain parameters whose write-back of the generated `q`
fails still succeeds, with the key's `q` left as it was while the job generated `x` and `y`
for the `q` of the buffer. -/
theorem doGenKeypair_drops_q_writeback :
    let ext : Ext :=
      { Ext.nominal with bin2bn := fun f => if f = .q then teeErrorOutOfMemory else teeSuccess }
    let r := doGenKeypair ext ⟨false, 32⟩ 8 8 World.empty
    r.val = teeSuccess ∧ r.world.key.q = 0 ∧ cryptoBignumBin2bn (r.world.mem .q) = 11 := by
  simp [doGenKeypair, getKeypairDomainParams, Ext.nominal, World.empty, cryptoBignumNumBytes,
    caamCallocAlignBuf, caamCallocDesc, caamCallocBuf, callocFields, cacheOperation,
    caamPrimeDsaGen, cryptoBignumBin2bnKey, caamJrEnqueue, caamFreeDesc, doKeypairFree,
    caamFreeBuf, DsaKeypair.set]

end CryptoDrivers.Caam
