import CryptoDrivers.Proofs.KeyConv

/-!
# What the CAAM reads

What the three operations are for: each hands the CAAM one job that computes on the caller's
data. Every read the CAAM makes of a key buffer finds the key's value in that buffer's width,
big endian, when the key's scalars fit their widths; a scalar that does not is stored partly
before its buffer (`doKeyprivConv_stores_before_g`), outside what the model holds. A read of the
message buffer finds the message, and a verification's read of the signature buffer finds the
signature. A key generation reads the caller's domain parameters when the key has all three, and
otherwise the ones the generator wrote. The cache obligations
(`CryptoDrivers.Proofs.Coherence`) say that these reads see memory the host's stores have
reached, so together the two results describe the operations' data path.
-/

namespace CryptoDrivers.Caam

/-- Every read the CAAM makes of a buffer in a run finds bytes with a property. -/
def ReadsOf (b : Buf) (P : Bytes → Prop) (evs : List Event) : Prop :=
  ∀ bytes, .devRead b bytes ∈ evs → P bytes

section ReadsOf

variable (b : Buf) (P : Bytes → Prop)

@[simp] theorem readsOf_nil : ReadsOf b P [] := by simp [ReadsOf]

@[simp]
theorem readsOf_cons (e : Event) (evs : List Event) :
    ReadsOf b P (e :: evs) ↔ (∀ bytes, e = .devRead b bytes → P bytes) ∧ ReadsOf b P evs := by
  simp only [ReadsOf, List.mem_cons, or_imp, forall_and, eq_comm]

@[simp]
theorem readsOf_append (l₁ l₂ : List Event) :
    ReadsOf b P (l₁ ++ l₂) ↔ ReadsOf b P l₁ ∧ ReadsOf b P l₂ := by
  simp only [ReadsOf, List.mem_append, or_imp, forall_and]

@[simp]
theorem readsOf_ite (r : Prop) [Decidable r] (l : List Event) :
    ReadsOf b P (if r then l else []) ↔ (r → ReadsOf b P l) := by
  split <;> simp [*]

/-- The conversion of a key's fields reads nothing, whichever of them it gets through. -/
@[simp]
theorem readsOf_convEvents (f : Buf × Nat × Nat) : ReadsOf b P (convEvents f) := by
  simp [ReadsOf, convEvents]

@[simp]
theorem readsOf_flatMap_convEvents (fs : List (Buf × Nat × Nat)) :
    ReadsOf b P (fs.flatMap convEvents) := by
  simp [ReadsOf, convEvents]

@[simp]
theorem readsOf_allocs (fs : List (Buf × Nat)) :
    ReadsOf b P (fs.map fun f => .alloc f.1 f.2 true) := by
  simp [ReadsOf]

end ReadsOf

section Operations

variable (ext : Ext) (cfg : Cfg) (w : World)

theorem doSign_reads (sdata : SignData DsaKeypair) (lBytes nBytes : Nat)
    (hfit : FieldsFit (keyprivFields sdata.key lBytes nBytes)) :
    (doSign ext cfg sdata lBytes nBytes).wp (fun _ _ evs =>
      ReadsOf .p (Encodes lBytes sdata.key.p) evs ∧ ReadsOf .q (Encodes nBytes sdata.key.q) evs ∧
      ReadsOf .g (Encodes lBytes sdata.key.g) evs ∧ ReadsOf .x (Encodes nBytes sdata.key.x) evs ∧
      ReadsOf .msg (· = sdata.message) evs) w := by
  simp only [FieldsFit, keyprivFields, List.mem_cons, List.not_mem_nil, forall_eq_or_imp,
    or_false, forall_eq] at hfit
  obtain ⟨hg, hp, hq, hx⟩ := hfit
  simp [doSign, doKeyprivConv, caamDmaobjCachePush, caamFreeDesc, caamDmaobjFree,
    caamDmaobjCopyToOrig, keyprivFields, encodes_writeAt_bn2bin hg, encodes_writeAt_bn2bin hp,
    encodes_writeAt_bn2bin hq, encodes_writeAt_bn2bin hx]

theorem doVerify_reads (sdata : SignData DsaPublicKey) (lBytes nBytes : Nat)
    (hfit : FieldsFit (keypubFields sdata.key lBytes nBytes)) :
    (doVerify ext cfg sdata lBytes nBytes).wp (fun _ _ evs =>
      ReadsOf .p (Encodes lBytes sdata.key.p) evs ∧ ReadsOf .q (Encodes nBytes sdata.key.q) evs ∧
      ReadsOf .g (Encodes lBytes sdata.key.g) evs ∧ ReadsOf .y (Encodes lBytes sdata.key.y) evs ∧
      ReadsOf .msg (· = sdata.message) evs ∧ ReadsOf .sig (· = sdata.signature) evs) w := by
  simp only [FieldsFit, keypubFields, List.mem_cons, List.not_mem_nil, forall_eq_or_imp,
    or_false, forall_eq] at hfit
  obtain ⟨hg, hp, hq, hy⟩ := hfit
  simp [doVerify, doKeypubConv, caamDmaobjCachePush, caamFreeDesc, caamDmaobjFree,
    keypubFields, encodes_writeAt_bn2bin hg, encodes_writeAt_bn2bin hp, encodes_writeAt_bn2bin hq,
    encodes_writeAt_bn2bin hy]

theorem doGenKeypair_reads_supplied (lBits nBits : Nat)
    (hfit : FieldsFit [(.q, nBits / 8, w.key.q), (.g, lBits / 8, w.key.g), (.p, lBits / 8, w.key.p)])
    (hq : cryptoBignumNumBytes w.key.q ≠ 0) (hg : cryptoBignumNumBytes w.key.g ≠ 0)
    (hp : cryptoBignumNumBytes w.key.p ≠ 0) :
    (doGenKeypair ext cfg lBits nBits).wp (fun _ _ evs =>
      ReadsOf .p (Encodes (lBits / 8) w.key.p) evs ∧ ReadsOf .q (Encodes (nBits / 8) w.key.q) evs ∧
      ReadsOf .g (Encodes (lBits / 8) w.key.g) evs) w := by
  simp only [FieldsFit, List.mem_cons, List.not_mem_nil, forall_eq_or_imp, or_false,
    forall_eq] at hfit
  unfold doGenKeypair
  generalize lBits / 8 = L at hfit
  generalize nBits / 8 = N at hfit
  obtain ⟨hfq, hfg, hfp⟩ := hfit
  simp [caamCallocAlignBuf, caamFreeDesc, storeEvents, encodes_writeAt_bn2bin hfq,
    encodes_writeAt_bn2bin hfg, encodes_writeAt_bn2bin hfp, hq, hg, hp]

theorem doGenKeypair_reads_generated (lBits nBits : Nat)
    (h : cryptoBignumNumBytes w.key.q = 0 ∨ cryptoBignumNumBytes w.key.g = 0 ∨
      cryptoBignumNumBytes w.key.p = 0) :
    (doGenKeypair ext cfg lBits nBits).wp (fun _ _ evs =>
      ReadsOf .p (· = ext.primeDsaGen.2.1) evs ∧ ReadsOf .q (· = ext.primeDsaGen.2.2.1) evs ∧
      ReadsOf .g (· = ext.primeDsaGen.2.2.2) evs) w := by
  simp [doGenKeypair, caamCallocAlignBuf, caamFreeDesc, storeEvents, h]
  all_goals intros; omega

/-- On every path of the three operations, for every outcome of every step, each read the CAAM
makes finds the caller's data. A key buffer holds the key's value, big endian, in the buffer's
width, for a key whose scalars fit their widths. The message buffer holds the message, and a
verification's signature buffer holds the signature. A key generation reads the caller's domain
parameters when the key has all three, and the generated ones otherwise. -/
theorem dsaOperations_job_inputs (lBits nBits lBytes nBytes : Nat) (sdata : SignData DsaKeypair)
    (vdata : SignData DsaPublicKey) :
    let gen := (doGenKeypair ext cfg lBits nBits w).events
    let sign := (doSign ext cfg sdata lBytes nBytes w).events
    let verify := (doVerify ext cfg vdata lBytes nBytes w).events
    ((FieldsFit [(.q, nBits / 8, w.key.q), (.g, lBits / 8, w.key.g), (.p, lBits / 8, w.key.p)] →
        cryptoBignumNumBytes w.key.q ≠ 0 → cryptoBignumNumBytes w.key.g ≠ 0 →
        cryptoBignumNumBytes w.key.p ≠ 0 →
        ReadsOf .p (Encodes (lBits / 8) w.key.p) gen ∧
        ReadsOf .q (Encodes (nBits / 8) w.key.q) gen ∧
        ReadsOf .g (Encodes (lBits / 8) w.key.g) gen) ∧
      (cryptoBignumNumBytes w.key.q = 0 ∨ cryptoBignumNumBytes w.key.g = 0 ∨
        cryptoBignumNumBytes w.key.p = 0 →
        ReadsOf .p (· = ext.primeDsaGen.2.1) gen ∧ ReadsOf .q (· = ext.primeDsaGen.2.2.1) gen ∧
        ReadsOf .g (· = ext.primeDsaGen.2.2.2) gen)) ∧
    (FieldsFit (keyprivFields sdata.key lBytes nBytes) →
      ReadsOf .p (Encodes lBytes sdata.key.p) sign ∧ ReadsOf .q (Encodes nBytes sdata.key.q) sign ∧
      ReadsOf .g (Encodes lBytes sdata.key.g) sign ∧ ReadsOf .x (Encodes nBytes sdata.key.x) sign ∧
      ReadsOf .msg (· = sdata.message) sign) ∧
    (FieldsFit (keypubFields vdata.key lBytes nBytes) →
      ReadsOf .p (Encodes lBytes vdata.key.p) verify ∧
      ReadsOf .q (Encodes nBytes vdata.key.q) verify ∧
      ReadsOf .g (Encodes lBytes vdata.key.g) verify ∧
      ReadsOf .y (Encodes lBytes vdata.key.y) verify ∧
      ReadsOf .msg (· = vdata.message) verify ∧ ReadsOf .sig (· = vdata.signature) verify) :=
  ⟨⟨doGenKeypair_reads_supplied ext cfg w lBits nBits,
      doGenKeypair_reads_generated ext cfg w lBits nBits⟩,
    doSign_reads ext cfg w sdata lBytes nBytes, doVerify_reads ext cfg w vdata lBytes nBytes⟩

theorem dsaOperations_job_inputs_nominal :
    FieldsFit (keyprivFields ⟨4, 23, 11, 3, 8⟩ 1 1) ∧
      ReadsOf .x (Encodes 1 3)
        (doSign Ext.nominal ⟨false, 32⟩ ⟨⟨4, 23, 11, 3, 8⟩, 1, [5], [0, 0]⟩ 1 1 World.empty).events :=
  have hfit : FieldsFit (keyprivFields ⟨4, 23, 11, 3, 8⟩ 1 1) := by
    simp [FieldsFit, keyprivFields, cryptoBignumNumBytes]
  ⟨hfit, ((dsaOperations_job_inputs Ext.nominal ⟨false, 32⟩ World.empty 8 8 1 1
    ⟨⟨4, 23, 11, 3, 8⟩, 1, [5], [0, 0]⟩ ⟨⟨4, 23, 11, 8⟩, 1, [5], [2, 3]⟩).2.1 hfit).2.2.2.1⟩

end Operations

end CryptoDrivers.Caam
