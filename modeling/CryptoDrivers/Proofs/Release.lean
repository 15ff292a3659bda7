import CryptoDrivers.Proofs.DsaSteps

/-!
# Every buffer released on every path

Each operation ends with one cleanup sequence, which every `goto exit` reaches. It frees the
descriptor, the five buffers of the local keypair, and the operation's DMA objects and scratch
buffer. `ReleasesAll` says that a run frees every buffer it allocates, after the allocation.

A monitor, `HeldOk`, keeps which buffers a run holds and passes a run that ends holding none. A
run it passes from any state releases everything it allocates (`releasesAll_of_heldOk`). Each
operation's run passes from the state that already holds every buffer its cleanup frees: there
an allocation changes nothing, so an allocation that may or may not happen (the first of a
key's fields that fails stops the others) needs no case of its own.
-/

namespace CryptoDrivers.Caam

/-- Every buffer a run allocates is freed later in the run. -/
def ReleasesAll (evs : List Event) : Prop :=
  ∀ pre b n z post, evs = pre ++ .alloc b n z :: post → .free b ∈ post

/-! ## The monitor -/

/-- The buffers held after an event: an allocation holds its buffer, a free releases it. -/
def heldNext (h : BufMap Bool) : Event → BufMap Bool
  | .alloc b _ _ => h.set b true
  | .free b => h.set b false
  | _ => h

/-- A run, from the buffers held before it, ends holding none. -/
def HeldOk (h : BufMap Bool) : List Event → Prop
  | [] => h = .const false
  | e :: evs => HeldOk (heldNext h e) evs

@[simp] theorem heldOk_nil (h : BufMap Bool) : HeldOk h [] ↔ h = .const false := Iff.rfl

@[simp]
theorem heldOk_cons (h : BufMap Bool) (e : Event) (evs : List Event) :
    HeldOk h (e :: evs) ↔ HeldOk (heldNext h e) evs := Iff.rfl

theorem heldOk_iff_foldl (h : BufMap Bool) (evs : List Event) :
    HeldOk h evs ↔ evs.foldl heldNext h = .const false := by
  induction evs generalizing h with
  | nil => rfl
  | cons e evs ih => exact ih _

/-- A buffer stays held until a free of it. -/
theorem foldl_heldNext_keeps {b : Buf} :
    ∀ {h : BufMap Bool} {evs : List Event}, .free b ∉ evs → h.get b = true →
      (evs.foldl heldNext h).get b = true
  | _, [], _, hb => hb
  | h, e :: evs, hf, hb => by
    rw [List.mem_cons, not_or] at hf
    refine @foldl_heldNext_keeps b (heldNext h e) evs hf.2 ?_
    cases e with
    | alloc b' =>
      simp only [heldNext, BufMap.get_set]
      split_ifs <;> simp [hb]
    | free b' =>
      simp only [heldNext, BufMap.get_set]
      split_ifs with hbb
      · exact absurd (congrArg Event.free hbb) hf.1
      · exact hb
    | _ => exact hb

/-- A run the monitor passes, from any state, frees every buffer it allocates. -/
theorem releasesAll_of_heldOk {h : BufMap Bool} {evs : List Event} (hok : HeldOk h evs) :
    ReleasesAll evs := by
  intro pre b n z post hevs
  by_contra hfree
  rw [heldOk_iff_foldl, hevs, List.foldl_append, List.foldl_cons] at hok
  have halloc : (heldNext (pre.foldl heldNext h) (.alloc b n z)).get b = true := by
    simp [heldNext, BufMap.get_set]
  have hheld := foldl_heldNext_keeps hfree halloc
  rw [hok, BufMap.get_const] at hheld
  exact Bool.false_ne_true hheld

/-! ## The monitor over the steps of an operation -/

/-- A step whose events may not happen: the monitor passes it when it passes both ways. -/
@[simp]
theorem heldOk_ite_append (h : BufMap Bool) (r : Prop) [Decidable r] (l rest : List Event) :
    HeldOk h ((if r then l else []) ++ rest) ↔
      (r → HeldOk h (l ++ rest)) ∧ (¬r → HeldOk h rest) := by
  split <;> simp [*]

/-- Allocations of buffers already held change nothing. -/
theorem heldOk_allocs_append (h : BufMap Bool) (fs : List (Buf × Nat))
    (hfs : ∀ f ∈ fs, h.get f.1 = true) (rest : List Event) :
    HeldOk h ((fs.map fun f => .alloc f.1 f.2 true) ++ rest) ↔ HeldOk h rest := by
  induction fs with
  | nil => rfl
  | cons f fs ih =>
    simp only [List.map_cons, List.cons_append, heldOk_cons, heldNext,
      BufMap.set_eq_self h f.1 true (hfs f (List.mem_cons_self _ _))]
    exact ih fun f' hf' => hfs f' (List.mem_cons_of_mem _ hf')

theorem heldOk_convEvents_append (h : BufMap Bool) (fs : List (Buf × Nat × Nat))
    (hfs : ∀ f ∈ fs, h.get f.1 = true) (rest : List Event) :
    HeldOk h (fs.flatMap convEvents ++ rest) ↔ HeldOk h rest := by
  induction fs with
  | nil => rfl
  | cons f fs ih =>
    simp only [List.flatMap_cons, List.append_assoc, convEvents, List.cons_append,
      List.nil_append, heldOk_cons, heldNext,
      BufMap.set_eq_self h f.1 true (hfs f (List.mem_cons_self _ _))]
    exact ih fun f' hf' => hfs f' (List.mem_cons_of_mem _ hf')

/-! The allocations of a key's fields up to the first that fails, from a state that holds all
their buffers. -/

section ConvDone

variable (ext : Ext) (h : BufMap Bool)

@[simp]
theorem heldOk_convDone_allocs_append (fs : List (Buf × Nat)) (hfs : ∀ f ∈ fs, h.get f.1 = true)
    (rest : List Event) :
    HeldOk h (((convDone ext fs).map fun f => .alloc f.1 f.2 true) ++ rest) ↔ HeldOk h rest :=
  heldOk_allocs_append h _ (fun f hf => hfs f (List.takeWhile_subset _ hf)) rest

@[simp]
theorem heldOk_convDone_convEvents_append (fs : List (Buf × Nat × Nat))
    (hfs : ∀ f ∈ fs, h.get f.1 = true) (rest : List Event) :
    HeldOk h ((convDone ext fs).flatMap convEvents ++ rest) ↔ HeldOk h rest :=
  heldOk_convEvents_append h _ (fun f hf => hfs f (List.takeWhile_subset _ hf)) rest

end ConvDone

/-! ## The three operations -/

/-- The buffers of a list held, and no other. -/
def heldOf (bs : List Buf) : BufMap Bool :=
  bs.foldl (fun h b => h.set b true) (.const false)

section Operations

variable (ext : Ext) (cfg : Cfg) (w : World)

theorem doGenKeypair_heldOk (lBits nBits : Nat) :
    (doGenKeypair ext cfg lBits nBits).wp
      (fun _ _ evs => HeldOk (heldOf [.desc, .g, .p, .q, .x, .y]) evs) w := by
  simp [doGenKeypair, caamCallocAlignBuf, caamFreeDesc, storeEvents, heldNext, heldOf,
    BufMap.const, BufMap.get, BufMap.set]

theorem doSign_heldOk (sdata : SignData DsaKeypair) (lBytes nBytes : Nat) :
    (doSign ext cfg sdata lBytes nBytes).wp
      (fun _ _ evs => HeldOk (heldOf [.desc, .g, .p, .q, .x, .y, .msg, .sig]) evs) w := by
  simp [doSign, doKeyprivConv, caamDmaobjCachePush, caamFreeDesc, caamDmaobjFree,
    caamDmaobjCopyToOrig, keyprivFields, convEvents, heldNext, heldOf, BufMap.const, BufMap.get,
    BufMap.set]

theorem doVerify_heldOk (sdata : SignData DsaPublicKey) (lBytes nBytes : Nat) :
    (doVerify ext cfg sdata lBytes nBytes).wp (fun _ _ evs => HeldOk (.const true) evs) w := by
  simp [doVerify, doKeypubConv, caamDmaobjCachePush, caamFreeDesc, caamDmaobjFree,
    keypubFields, convEvents, heldNext, BufMap.const, BufMap.get, BufMap.set]

/-- On every path of the three operations, for every outcome of every step, every buffer the
operation allocates (its descriptor, the buffers of its local keypair, the copies its DMA
objects make, the verifier's scratch buffer) is freed after it is allocated. -/
theorem dsaOperations_release_buffers (lBits nBits lBytes nBytes : Nat)
    (sdata : SignData DsaKeypair) (vdata : SignData DsaPublicKey) :
    ReleasesAll (doGenKeypair ext cfg lBits nBits w).events ∧
    ReleasesAll (doSign ext cfg sdata lBytes nBytes w).events ∧
    ReleasesAll (doVerify ext cfg vdata lBytes nBytes w).events :=
  ⟨releasesAll_of_heldOk (doGenKeypair_heldOk ext cfg w lBits nBits),
    releasesAll_of_heldOk (doSign_heldOk ext cfg w sdata lBytes nBytes),
    releasesAll_of_heldOk (doVerify_heldOk ext cfg w vdata lBytes nBytes)⟩

end Operations

end CryptoDrivers.Caam
