import CryptoDrivers.Proofs.JobInputs
import CryptoDrivers.Proofs.DsaResults

/-!
# A generated key, signed and verified with

A key goes through the driver in three operations: `do_gen_keypair` fills it from the CAAM's
buffers with `crypto_bignum_bin2bn`, and `do_sign` and `do_verify` later hand it back to the CAAM
through `crypto_bignum_bn2bin` into buffers of the same widths. `GenLeaves` says what a successful
generation leaves for them: the key is what its buffers hold, each buffer has its width, and the
job's reads of `p`, `q` and `g` found what those buffers still hold
(`doGenKeypair_leaves_supplied`, `doGenKeypair_leaves_generated`). A value read from a buffer of
its width fits that width, and stored back into a buffer of the width it is the same bytes
(`eq_of_encodes_bin2bn`), so a signing or a verification with the generated key feeds the CAAM
exactly the bytes the generation ended with (`dsaKey_generated_then_used`).

Each way of getting the domain parameters asks its own of the run. Generated ones need their
write-backs to succeed (`doGenKeypair_drops_q_writeback` shows a success without them) and the
generator to fill their buffers' widths; supplied ones need to fit their widths, since a scalar
that does not is stored from before its buffer. Both need the job's `x` and `y` to have their
buffers' widths.
-/

namespace CryptoDrivers.Caam

/-- What a successful generation leaves for later operations: the key is what the buffers hold,
each buffer has its width, and every read of `p`, `q` and `g` found what the buffer holds. -/
@[mk_iff]
structure GenLeaves (L N : Nat) (w : World) (evs : List Event) : Prop where
  key : w.key = bufferKeypair w.mem
  widths : (w.mem .g).length = L ∧ (w.mem .p).length = L ∧ (w.mem .q).length = N ∧
    (w.mem .x).length = N ∧ (w.mem .y).length = L
  reads : ReadsOf .p (· = w.mem .p) evs ∧ ReadsOf .q (· = w.mem .q) evs ∧
    ReadsOf .g (· = w.mem .g) evs

theorem ReadsOf.mono {b : Buf} {P Q : Bytes → Prop} {evs : List Event} (h : ∀ bs, P bs → Q bs)
    (hr : ReadsOf b P evs) : ReadsOf b Q evs :=
  fun bs hbs => h bs (hr bs hbs)

/-- Bytes the CAAM reads of a buffer of width `L` holding the value of `L` bytes are those
bytes. -/
theorem eq_of_encodes_bin2bn {L : Nat} {bs bytes : Bytes} (hlen : bs.length = L)
    (h : Encodes L (cryptoBignumBin2bn bs) bytes) : bytes = bs :=
  cryptoBignumBin2bn_injective (h.1.trans hlen.symm) h.2

/-- The value of `L` bytes fits a buffer of width `L`. -/
theorem numBytes_bin2bn_le {L : Nat} {bs : Bytes} (hlen : bs.length = L) :
    cryptoBignumNumBytes (cryptoBignumBin2bn bs) ≤ L :=
  (cryptoBignumNumBytes_le_iff _ _).2 (hlen ▸ cryptoBignumBin2bn_lt bs)

section Generation

variable (ext : Ext) (cfg : Cfg) (w : World) (lBits nBits : Nat)

theorem doGenKeypair_leaves_generated (hjob : ∀ s, ext.jobStatusToTeeResult s ≠ teeSuccess)
    (hbin : ext.bin2bn .q = teeSuccess ∧ ext.bin2bn .g = teeSuccess ∧ ext.bin2bn .p = teeSuccess)
    (hgen : ext.primeDsaGen.2.1.length = lBits / 8 ∧ ext.primeDsaGen.2.2.1.length = nBits / 8 ∧
      ext.primeDsaGen.2.2.2.length = lBits / 8)
    (hout : ∀ d m, ((ext.jrEnqueue d m).2.2 .x).length = nBits / 8 ∧
      ((ext.jrEnqueue d m).2.2 .y).length = lBits / 8)
    (h : cryptoBignumNumBytes w.key.q = 0 ∨ cryptoBignumNumBytes w.key.g = 0 ∨
      cryptoBignumNumBytes w.key.p = 0) :
    (doGenKeypair ext cfg lBits nBits).wp (fun r w' evs => r = teeSuccess →
      GenLeaves (lBits / 8) (nBits / 8) w' evs) w := by
  unfold doGenKeypair
  generalize lBits / 8 = L at hgen hout
  generalize nBits / 8 = N at hgen hout
  simp [caamCallocAlignBuf, caamFreeDesc, storeEvents, caamJrEnqueue_world_mem, hbin, hjob, h,
    hgen, hout, bufferKeypair, DsaKeypair.set, genLeaves_iff]
  all_goals simp +contextual
  all_goals intros; omega

theorem doGenKeypair_leaves_supplied (hjob : ∀ s, ext.jobStatusToTeeResult s ≠ teeSuccess)
    (hout : ∀ d m, ((ext.jrEnqueue d m).2.2 .x).length = nBits / 8 ∧
      ((ext.jrEnqueue d m).2.2 .y).length = lBits / 8)
    (hfit : cryptoBignumNumBytes w.key.q ≤ nBits / 8 ∧ cryptoBignumNumBytes w.key.g ≤ lBits / 8 ∧
      cryptoBignumNumBytes w.key.p ≤ lBits / 8)
    (h : cryptoBignumNumBytes w.key.q ≠ 0 ∧ cryptoBignumNumBytes w.key.g ≠ 0 ∧
      cryptoBignumNumBytes w.key.p ≠ 0) :
    (doGenKeypair ext cfg lBits nBits).wp (fun r w' evs => r = teeSuccess →
      GenLeaves (lBits / 8) (nBits / 8) w' evs) w := by
  unfold doGenKeypair
  generalize lBits / 8 = L at hfit hout
  generalize nBits / 8 = N at hfit hout
  obtain ⟨hq, hg, hp⟩ := hfit
  simp [caamCallocAlignBuf, caamFreeDesc, storeEvents, caamJrEnqueue_world_mem, hjob, h, hout,
    cryptoBignumBin2bn_writeAt_bn2bin hq, cryptoBignumBin2bn_writeAt_bn2bin hg,
    cryptoBignumBin2bn_writeAt_bn2bin hp, bufferKeypair, DsaKeypair.set, genLeaves_iff]
  all_goals simp +contextual

end Generation

/-- A generation that succeeds with its write-backs, from supplied domain parameters that fit
their widths or generated ones and a job output of the buffers' widths, leaves a key that a later
signing and verification hand back to the CAAM byte for byte: every read of `p`, `q`, `g` and
`x` by the signing job, and of `p`, `q`, `g` and `y` by the verification job, finds what the
generation's buffers ended with, which for `p`, `q` and `g` is what its own job read. -/
theorem dsaKey_generated_then_used (ext ext' : Ext) (cfg cfg' : Cfg) (w w' : World)
    (lBits nBits sizeSec : Nat) (msg sig : Bytes)
    (hjob : ∀ s, ext.jobStatusToTeeResult s ≠ teeSuccess)
    (hbin : cryptoBignumNumBytes w.key.q = 0 ∨ cryptoBignumNumBytes w.key.g = 0 ∨
        cryptoBignumNumBytes w.key.p = 0 →
      ext.bin2bn .q = teeSuccess ∧ ext.bin2bn .g = teeSuccess ∧ ext.bin2bn .p = teeSuccess)
    (hfit : cryptoBignumNumBytes w.key.q ≠ 0 → cryptoBignumNumBytes w.key.g ≠ 0 →
        cryptoBignumNumBytes w.key.p ≠ 0 →
      cryptoBignumNumBytes w.key.q ≤ nBits / 8 ∧ cryptoBignumNumBytes w.key.g ≤ lBits / 8 ∧
        cryptoBignumNumBytes w.key.p ≤ lBits / 8)
    (hgen : cryptoBignumNumBytes w.key.q = 0 ∨ cryptoBignumNumBytes w.key.g = 0 ∨
        cryptoBignumNumBytes w.key.p = 0 →
      ext.primeDsaGen.2.1.length = lBits / 8 ∧ ext.primeDsaGen.2.2.1.length = nBits / 8 ∧
        ext.primeDsaGen.2.2.2.length = lBits / 8)
    (hout : ∀ d m, ((ext.jrEnqueue d m).2.2 .x).length = nBits / 8 ∧
      ((ext.jrEnqueue d m).2.2 .y).length = lBits / 8) :
    let gen := doGenKeypair ext cfg lBits nBits w
    let k := gen.world.key
    let mem := gen.world.mem
    let sign := (doSign ext' cfg' ⟨k, sizeSec, msg, sig⟩ (lBits / 8) (nBits / 8) w').events
    let verify := (doVerify ext' cfg' ⟨⟨k.g, k.p, k.q, k.y⟩, sizeSec, msg, sig⟩ (lBits / 8)
      (nBits / 8) w').events
    gen.val = teeSuccess →
      (ReadsOf .p (· = mem .p) gen.events ∧ ReadsOf .q (· = mem .q) gen.events ∧
        ReadsOf .g (· = mem .g) gen.events) ∧
      (ReadsOf .p (· = mem .p) sign ∧ ReadsOf .q (· = mem .q) sign ∧
        ReadsOf .g (· = mem .g) sign ∧ ReadsOf .x (· = mem .x) sign) ∧
      (ReadsOf .p (· = mem .p) verify ∧ ReadsOf .q (· = mem .q) verify ∧
        ReadsOf .g (· = mem .g) verify ∧ ReadsOf .y (· = mem .y) verify) := by
  intro gen k mem sign verify hsucc
  have hl : GenLeaves (lBits / 8) (nBits / 8) gen.world gen.events := by
    by_cases h : cryptoBignumNumBytes w.key.q = 0 ∨ cryptoBignumNumBytes w.key.g = 0 ∨
        cryptoBignumNumBytes w.key.p = 0
    · exact doGenKeypair_leaves_generated ext cfg w lBits nBits hjob (hbin h) (hgen h) hout h hsucc
    · push_neg at h
      exact doGenKeypair_leaves_supplied ext cfg w lBits nBits hjob hout (hfit h.1 h.2.1 h.2.2) h
        hsucc
  obtain ⟨hkey, ⟨hg, hp, hq, hx, hy⟩, hreads⟩ := hl
  have hk : k = bufferKeypair mem := hkey
  have hkp : k.p = cryptoBignumBin2bn (mem .p) := by rw [hk]; rfl
  have hkq : k.q = cryptoBignumBin2bn (mem .q) := by rw [hk]; rfl
  have hkg : k.g = cryptoBignumBin2bn (mem .g) := by rw [hk]; rfl
  have hkx : k.x = cryptoBignumBin2bn (mem .x) := by rw [hk]; rfl
  have hky : k.y = cryptoBignumBin2bn (mem .y) := by rw [hk]; rfl
  have back : ∀ {b : Buf} {L v : Nat}, (mem b).length = L → v = cryptoBignumBin2bn (mem b) →
      ∀ bs, Encodes L v bs → bs = mem b := fun hlen hv _ h => eq_of_encodes_bin2bn hlen (hv ▸ h)
  have fits : ∀ {b : Buf} {L v : Nat}, (mem b).length = L → v = cryptoBignumBin2bn (mem b) →
      cryptoBignumNumBytes v ≤ L := fun hlen hv => hv ▸ numBytes_bin2bn_le hlen
  obtain ⟨hsp, hsq, hsg, hsx, -⟩ :=
    doSign_reads ext' cfg' w' ⟨k, sizeSec, msg, sig⟩ (lBits / 8) (nBits / 8) (by
      simpa [FieldsFit, keyprivFields] using
        ⟨fits hg hkg, fits hp hkp, fits hq hkq, fits hx hkx⟩)
  obtain ⟨hvp, hvq, hvg, hvy, -⟩ :=
    doVerify_reads ext' cfg' w' ⟨⟨k.g, k.p, k.q, k.y⟩, sizeSec, msg, sig⟩ (lBits / 8) (nBits / 8)
      (by simpa [FieldsFit, keypubFields] using
        ⟨fits hg hkg, fits hp hkp, fits hq hkq, fits hy hky⟩)
  exact ⟨hreads, ⟨hsp.mono (back hp hkp), hsq.mono (back hq hkq), hsg.mono (back hg hkg),
      hsx.mono (back hx hkx)⟩,
    ⟨hvp.mono (back hp hkp), hvq.mono (back hq hkq), hvg.mono (back hg hkg),
      hvy.mono (back hy hky)⟩⟩

theorem dsaKey_generated_then_used_nominal :
    let gen := doGenKeypair Ext.nominal ⟨false, 32⟩ 8 8 World.empty
    gen.val = teeSuccess ∧ ReadsOf .x (· = gen.world.mem .x)
      (doSign Ext.nominal ⟨false, 32⟩ ⟨gen.world.key, 1, [5], []⟩ 1 1 World.empty).events := by
  have hsucc : (doGenKeypair Ext.nominal ⟨false, 32⟩ 8 8 World.empty).val = teeSuccess := by
    simp [doGenKeypair, getKeypairDomainParams, Ext.nominal, World.empty, cryptoBignumNumBytes,
      caamCallocAlignBuf, caamCallocDesc, caamCallocBuf, callocFields, cacheOperation,
      caamPrimeDsaGen, cryptoBignumBin2bnKey, caamJrEnqueue, caamFreeDesc, doKeypairFree,
      caamFreeBuf]
  exact ⟨hsucc, (dsaKey_generated_then_used Ext.nominal Ext.nominal ⟨false, 32⟩ ⟨false, 32⟩
    World.empty World.empty 8 8 1 [5] [] (fun _ => teeErrorGeneric_ne_success)
    (fun _ => ⟨rfl, rfl, rfl⟩) (by simp [World.empty, cryptoBignumNumBytes])
    (fun _ => ⟨rfl, rfl, rfl⟩) (fun _ _ => ⟨rfl, rfl⟩) hsucc).2.1.2.2.2⟩

end CryptoDrivers.Caam
