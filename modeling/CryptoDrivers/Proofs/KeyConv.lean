import CryptoDrivers.Proofs.DsaSteps

/-!
# Key material in fixed-width buffers

Each scalar of a key goes into a zeroed buffer of its width, its `crypto_bignum_num_bytes` bytes
stored at `width - crypto_bignum_num_bytes` so that they end with the buffer. A conversion goes
through its fields until an allocation fails and stores every field it reaches, whatever the
scalar's size: nothing in the conversions compares that size with the width
(`keyConversions_store_padded`). A scalar with more bytes than its width is stored from before
the start of its buffer (`doKeyprivConv_stores_before_g`), and in C those bytes land in whatever
lies below the buffer.

The model holds a buffer's own bytes only, so what it says about the contents of buffers is
stated for scalars that fit their widths (`FieldsFit`), where every store stays inside its
buffer. There the buffer is the scalar zero-padded on the left (`writeAt_replicate_bn2bin`), and
read as a big-endian number of its width it is the scalar (`keyConversions_decode`).
-/

namespace CryptoDrivers.Caam

/-- Storing the bytes of a value that fits at the end of `W` zeros pads it on the left. -/
theorem writeAt_replicate_bn2bin (v W : Nat) (h : cryptoBignumNumBytes v ≤ W) :
    writeAt (List.replicate W 0) ((W : Int) - cryptoBignumNumBytes v) (cryptoBignumBn2bin v) =
      List.replicate (W - cryptoBignumNumBytes v) 0 ++ cryptoBignumBn2bin v := by
  have hsplit : List.replicate W (0 : UInt8) = List.replicate (W - cryptoBignumNumBytes v) 0 ++
      List.replicate (cryptoBignumNumBytes v) 0 := by
    rw [List.append_replicate_replicate, Nat.sub_add_cancel h]
  have hoff : (W : Int) - cryptoBignumNumBytes v =
      (List.replicate (W - cryptoBignumNumBytes v) (0 : UInt8)).length + 0 := by
    simp only [List.length_replicate, add_zero]
    omega
  have hrest := writeAt_neg (List.replicate (cryptoBignumNumBytes v) 0) (cryptoBignumBn2bin v) 0
    (by simp)
  simp only [Int.natCast_zero, neg_zero, List.drop_zero, List.length_replicate] at hrest
  rw [hsplit, hoff, writeAt_append_of_nonneg _ _ _ le_rfl, hrest,
    List.take_of_length_le (by simp)]

/-- A buffer holding a value that fits, read as a big-endian number, is the value. -/
theorem cryptoBignumBin2bn_writeAt_bn2bin {v W : Nat} (h : cryptoBignumNumBytes v ≤ W) :
    cryptoBignumBin2bn (writeAt (List.replicate W 0) ((W : Int) - cryptoBignumNumBytes v)
      (cryptoBignumBn2bin v)) = v := by
  rw [writeAt_replicate_bn2bin v W h, cryptoBignumBin2bn_replicate_zero_append,
    cryptoBignumBin2bn_bn2bin]

/-- What the CAAM reads of a buffer of `width` bytes holding `v`: `width` bytes that, read as a
big-endian number, are `v`. -/
def Encodes (width v : Nat) (bytes : Bytes) : Prop :=
  bytes.length = width ∧ cryptoBignumBin2bn bytes = v

theorem encodes_writeAt_bn2bin {v W : Nat} (h : cryptoBignumNumBytes v ≤ W) :
    Encodes W v (writeAt (List.replicate W 0) ((W : Int) - cryptoBignumNumBytes v)
      (cryptoBignumBn2bin v)) :=
  ⟨by simp, cryptoBignumBin2bn_writeAt_bn2bin h⟩

/-- Every field `(buffer, width, value)` has at most `width` bytes, so that its store stays
inside its buffer. -/
def FieldsFit (fs : List (Buf × Nat × Nat)) : Prop :=
  ∀ f ∈ fs, cryptoBignumNumBytes f.2.2 ≤ f.2.1

/-- The stores of a run whose conversions reached the fields `done`. Each field
`(buffer, width, value)` of `done` is allocated with `width` zero bytes and then has the value's
`crypto_bignum_num_bytes` bytes stored at `width - crypto_bignum_num_bytes(value)`, inside the
buffer exactly when the value has at most `width` bytes. The run stores nothing else. -/
def StoresPadded (done : List (Buf × Nat × Nat)) (evs : List Event) : Prop :=
  (∀ b width s, (b, width, s) ∈ done →
    List.Sublist [Event.alloc b width true,
      .hostWrite b (width - cryptoBignumNumBytes s) (cryptoBignumNumBytes s)] evs ∧
    (0 ≤ (width : Int) - cryptoBignumNumBytes s ∧
        (width : Int) - cryptoBignumNumBytes s + cryptoBignumNumBytes s ≤ width ↔
      cryptoBignumNumBytes s ≤ width)) ∧
  ∀ b off len, Event.hostWrite b off len ∈ evs →
    ∃ width s, (b, width, s) ∈ done ∧ off = width - cryptoBignumNumBytes s ∧
      len = cryptoBignumNumBytes s

theorem storesPadded_nil {evs : List Event} (h : ∀ b off len, Event.hostWrite b off len ∉ evs) :
    StoresPadded [] evs :=
  ⟨by simp, fun b off len hmem => absurd hmem (h b off len)⟩

theorem keyConv_storesPadded (ext : Ext) (fs : List (Buf × Nat × Nat)) (w : World) :
    StoresPadded (convDone ext fs) (keyConv ext fs w).events := by
  simp only [keyConv_apply]
  refine ⟨fun b width s hf => ⟨?_, by omega⟩, fun b off len hmem => ?_⟩
  · refine List.Sublist.trans ?_ (List.sublist_append_left _ _)
    rw [List.flatMap_def]
    exact List.sublist_flatten_of_mem (List.mem_map_of_mem convEvents hf)
  · have hconv : Event.hostWrite b off len ∈ (convDone ext fs).flatMap convEvents := by
      refine (List.mem_append.1 hmem).resolve_right ?_
      split <;> simp
    obtain ⟨⟨b', width, s⟩, hf, hev⟩ := List.mem_flatMap.1 hconv
    simp only [convEvents, List.mem_cons, List.not_mem_nil, reduceCtorEq, false_or, or_false,
      Event.hostWrite.injEq] at hev
    obtain ⟨rfl, rfl, rfl⟩ := hev
    exact ⟨width, s, hf, rfl, rfl⟩

/-- The supplied domain parameters: their allocations, then each one stored and cleaned. -/
theorem storesPadded_allocs_stores (fs : List (Buf × Nat × Nat)) :
    StoresPadded fs ((fs.map fun f => .alloc f.1 f.2.1 true) ++ fs.flatMap storeEvents) := by
  refine ⟨fun b width s hf => ⟨?_, by omega⟩, fun b off len hmem => ?_⟩
  · refine List.Sublist.append (List.singleton_sublist.2 ?_) (List.singleton_sublist.2 ?_)
    · exact List.mem_map_of_mem (fun f => Event.alloc f.1 f.2.1 true) hf
    · exact List.mem_flatMap.2 ⟨_, hf, by simp [storeEvents]⟩
  · obtain ⟨⟨b', width, s⟩, hf, hev⟩ :=
      List.mem_flatMap.1 ((List.mem_append.1 hmem).resolve_left (by simp))
    simp only [storeEvents, List.mem_cons, List.not_mem_nil, reduceCtorEq, false_or, or_false,
      Event.hostWrite.injEq] at hev
    obtain ⟨rfl, rfl, rfl⟩ := hev
    exact ⟨width, s, hf, rfl, rfl⟩

theorem getKeypairDomainParams_storesPadded (ext : Ext) (l n : Nat) (w : World) :
    StoresPadded (if ext.allocOk .q ∧ ext.allocOk .g ∧ ext.allocOk .p ∧
        cryptoBignumNumBytes w.key.q ≠ 0 ∧ cryptoBignumNumBytes w.key.g ≠ 0 ∧
        cryptoBignumNumBytes w.key.p ≠ 0
      then [(.q, n, w.key.q), (.g, l, w.key.g), (.p, l, w.key.p)] else [])
      (getKeypairDomainParams ext l n w).events := by
  show (getKeypairDomainParams ext l n).wp (fun _ _ evs => StoresPadded _ evs) w
  rw [wp_getKeypairDomainParams]
  refine ⟨fun hok => ⟨fun hz => ⟨fun _ => ?_, fun _ => ?_⟩, fun hq hg hp => ?_⟩, fun hok => ?_⟩
  · rw [if_neg (by omega)]
    exact storesPadded_nil (by simp)
  · rw [if_neg (by omega)]
    exact storesPadded_nil (by simp)
  · simp only [convOk, List.all_cons, List.all_nil, Bool.and_true, Bool.and_eq_true] at hok
    rw [if_pos ⟨hok.1, hok.2.1, hok.2.2, hq, hg, hp⟩]
    exact storesPadded_allocs_stores _
  · have : ¬(ext.allocOk .q ∧ ext.allocOk .g ∧ ext.allocOk .p) := by
      simpa [convOk, and_assoc] using hok
    rw [if_neg (by tauto)]
    exact storesPadded_nil (by simp)

theorem foldl_convWorld_mem_of_not_mem {fs : List (Buf × Nat × Nat)} {b : Buf}
    (hb : b ∉ fs.map Prod.fst) (w : World) : (fs.foldl convWorld w).mem b = w.mem b := by
  induction fs generalizing w with
  | nil => rfl
  | cons f fs ih =>
    simp only [List.map_cons, List.mem_cons, not_or] at hb
    rw [List.foldl_cons, ih hb.2, convWorld_mem, Function.update_noteq hb.1]

theorem foldl_convWorld_mem {fs : List (Buf × Nat × Nat)} {b : Buf} {width s : Nat}
    (hnd : (fs.map Prod.fst).Nodup) (hf : (b, width, s) ∈ fs) (w : World) :
    (fs.foldl convWorld w).mem b =
      writeAt (List.replicate width 0) ((width : Int) - cryptoBignumNumBytes s)
        (cryptoBignumBn2bin s) := by
  induction fs generalizing w with
  | nil => simp at hf
  | cons f fs ih =>
    rw [List.map_cons, List.nodup_cons] at hnd
    rw [List.foldl_cons]
    rcases List.mem_cons.1 hf with rfl | hf
    · rw [foldl_convWorld_mem_of_not_mem hnd.1, convWorld_mem, Function.update_same]
    · exact ih hnd.2 hf _

/-- After a conversion of fields with distinct buffers that fit their widths succeeds, each
buffer holds its field's value as the CAAM reads it. -/
theorem keyConv_mem_encodes (ext : Ext) {fs : List (Buf × Nat × Nat)} (w : World)
    (hnd : (fs.map Prod.fst).Nodup) (hfit : FieldsFit fs)
    (hok : (keyConv ext fs w).val = .noError) {b : Buf} {width s : Nat} (hf : (b, width, s) ∈ fs) :
    Encodes width s ((keyConv ext fs w).world.mem b) := by
  have hall : convOk ext fs = true := by
    by_contra h
    simp [keyConv_apply, h] at hok
  rw [keyConv_apply, convDone_of_convOk ext hall, foldl_convWorld_mem hnd hf w]
  exact encodes_writeAt_bn2bin (hfit _ hf)

/-- After `do_keypriv_conv` or `do_keypub_conv` succeeds on a key whose scalars fit their
widths, the CAAM reads from each of its buffers the key's value in that buffer's width. -/
theorem keyConversions_decode (ext : Ext) (key : DsaKeypair) (pub : DsaPublicKey) (l n : Nat)
    (w : World) :
    (FieldsFit (keyprivFields key l n) → (doKeyprivConv ext key l n w).val = .noError →
      ∀ b width s, (b, width, s) ∈ keyprivFields key l n →
        Encodes width s ((doKeyprivConv ext key l n w).world.mem b)) ∧
    (FieldsFit (keypubFields pub l n) → (doKeypubConv ext pub l n w).val = .noError →
      ∀ b width s, (b, width, s) ∈ keypubFields pub l n →
        Encodes width s ((doKeypubConv ext pub l n w).world.mem b)) :=
  ⟨fun hfit hok _ _ _ hf => keyConv_mem_encodes ext w (by simp [keyprivFields]) hfit hok hf,
    fun hfit hok _ _ _ hf => keyConv_mem_encodes ext w (by simp [keypubFields]) hfit hok hf⟩

theorem keyConversions_decode_nominal :
    FieldsFit (keyprivFields ⟨4, 23, 11, 3, 0⟩ 1 1) ∧
      (doKeyprivConv Ext.nominal ⟨4, 23, 11, 3, 0⟩ 1 1 World.empty).val = .noError ∧
      Encodes 1 3 ((doKeyprivConv Ext.nominal ⟨4, 23, 11, 3, 0⟩ 1 1 World.empty).world.mem .x) :=
  have hfit : FieldsFit (keyprivFields ⟨4, 23, 11, 3, 0⟩ 1 1) := by
    simp [FieldsFit, keyprivFields, cryptoBignumNumBytes]
  ⟨hfit, rfl, (keyConversions_decode Ext.nominal ⟨4, 23, 11, 3, 0⟩ ⟨4, 23, 11, 5⟩ 1 1
    World.empty).1 hfit rfl .x 1 3 (by simp [keyprivFields])⟩

end CryptoDrivers.Caam
