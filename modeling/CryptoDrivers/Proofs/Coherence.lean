import CryptoDrivers.Proofs.DsaSteps

/-!
# Cache maintenance around the CAAM's jobs

The CAAM reads and writes memory, not the host's data cache, so every buffer a job reads must
have been cleaned (or flushed) to memory after the host last stored into it, every buffer a job
writes must have been flushed or invalidated after the host last stored into it (or a dirty line
evicted later lands over the CAAM's output), and the host may read what the CAAM wrote only
after invalidating it. `CacheObligations` states the three on a run's events, by the positions
of the events in the run.

They are checked by a monitor, `CacheOk`, which follows, for each buffer, what the cache may
hold that memory does not (`cacheNext`), and fails at a device access or host read that would
meet such a line (`cacheMeets`). A run it passes meets the obligations
(`cacheObligations_of_cacheOk`). It passes every run of the three operations from the state in
which every buffer has every kind of line, and so from every state (`cacheOk_mono`): the
caller's message and signature buffers may start with dirty or stale lines too.
-/

namespace CryptoDrivers.Caam

/-! ## The obligations -/

/-- Whether an event stores into a buffer from the host: a store, or an allocation the host
zeroes. -/
def Event.stores : Event → Buf → Bool
  | .alloc b _ true, b' => decide (b' = b)
  | .hostWrite b _ _, b' => decide (b' = b)
  | _, _ => false

/-- The cache obligations of a run, each between two positions of it. -/
structure CacheObligations (evs : List Event) : Prop where
  /-- A buffer the CAAM reads was cleaned or flushed after every host store into it. -/
  pushed : ∀ pre e mid b bs post, evs = pre ++ e :: mid ++ .devRead b bs :: post → e.stores b →
    .cache .clean b ∈ mid ∨ .cache .flush b ∈ mid
  /-- A buffer the CAAM writes was flushed or invalidated after every host store into it. -/
  synced : ∀ pre e mid b post, evs = pre ++ e :: mid ++ .devWrite b :: post → e.stores b →
    .cache .flush b ∈ mid ∨ .cache .invalidate b ∈ mid
  /-- A host read of a buffer the CAAM wrote comes after an invalidate that follows the write. -/
  pulled : ∀ pre mid b post, evs = pre ++ .devWrite b :: mid ++ .hostRead b :: post →
    .cache .invalidate b ∈ mid

/-! ## The monitor -/

/-- What the cache may hold of a buffer that memory does not agree with. -/
structure Lines where
  /-- Host stores not cleaned to memory yet: the CAAM would read around them. -/
  unpushed : Bool
  /-- Host stores that may still sit in dirty lines: evicted, they would land over what the
  CAAM writes. -/
  unsynced : Bool
  /-- Lines older than what the CAAM wrote: the host would read them instead. -/
  stale : Bool

/-- What the cache may hold of each buffer. -/
abbrev CacheState := BufMap Lines

/-- A host store into a buffer: its lines are dirty until cleaned. -/
def CacheState.stored (s : CacheState) (b : Buf) : CacheState :=
  s.set b { s.get b with unpushed := true, unsynced := true }

/-- A second store into a buffer changes nothing the first did not. -/
@[simp]
theorem CacheState.stored_stored (s : CacheState) (b : Buf) :
    (s.stored b).stored b = s.stored b := by
  cases b <;> rfl

/-- What an event leaves in the cache. -/
def cacheNext (c : CacheState) : Event → CacheState
  | .alloc b _ true => c.stored b
  | .alloc _ _ false => c
  | .free _ => c
  | .hostWrite b _ _ => c.stored b
  | .hostRead _ => c
  | .cache .clean b => c.set b { c.get b with unpushed := false }
  | .cache .flush b => c.set b { c.get b with unpushed := false, unsynced := false }
  | .cache .invalidate b => c.set b { c.get b with unsynced := false, stale := false }
  | .devRead _ _ => c
  | .devWrite b => c.set b { c.get b with stale := true }
  | .jobDone _ _ => c

/-- Whether an event meets a line it must not: a CAAM read of host stores not yet in memory, a
CAAM write under dirty lines, a host read of stale lines. -/
def cacheMeets (c : CacheState) : Event → Bool
  | .hostRead b => (c.get b).stale
  | .devRead b _ => (c.get b).unpushed
  | .devWrite b => (c.get b).unsynced
  | _ => false

/-- No event of a run, from a cache state, meets a line it must not. -/
def CacheOk (c : CacheState) : List Event → Prop
  | [] => True
  | e :: evs => cacheMeets c e = false ∧ CacheOk (cacheNext c e) evs

@[simp] theorem cacheOk_nil (c : CacheState) : CacheOk c [] := trivial

@[simp]
theorem cacheOk_cons (c : CacheState) (e : Event) (evs : List Event) :
    CacheOk c (e :: evs) ↔ cacheMeets c e = false ∧ CacheOk (cacheNext c e) evs := Iff.rfl

theorem cacheOk_append (c : CacheState) (l₁ l₂ : List Event) :
    CacheOk c (l₁ ++ l₂) ↔ CacheOk c l₁ ∧ CacheOk (l₁.foldl cacheNext c) l₂ := by
  induction l₁ generalizing c with
  | nil => simp
  | cons e l₁ ih => simp [ih, and_assoc]

/-! The three kinds of line the monitor follows, each with the events that raise it, clear it
and must not meet it. -/

/-- The kinds of line of `Lines`. -/
inductive Flag
  | unpushed
  | unsynced
  | stale

/-- A kind of line of a buffer's `Lines`. -/
def Lines.get (l : Lines) : Flag → Bool
  | .unpushed => l.unpushed
  | .unsynced => l.unsynced
  | .stale => l.stale

/-- Whether an event raises a kind of line of a buffer. -/
def Flag.raisedBy : Flag → Event → Buf → Bool
  | .unpushed, e, b | .unsynced, e, b => e.stores b
  | .stale, e, b => decide (.devWrite b = e)

/-- Whether an event clears a kind of line of a buffer. -/
def Flag.clearedBy : Flag → Event → Buf → Bool
  | .unpushed, e, b => decide (.cache .clean b = e ∨ .cache .flush b = e)
  | .unsynced, e, b => decide (.cache .flush b = e ∨ .cache .invalidate b = e)
  | .stale, e, b => decide (.cache .invalidate b = e)

/-- Whether an event must not meet a kind of line of a buffer. -/
def Flag.checkedBy : Flag → Event → Buf → Bool
  | .unpushed, .devRead b' _, b | .unsynced, .devWrite b', b | .stale, .hostRead b', b =>
    decide (b' = b)
  | _, _, _ => false

section Step

variable (c : CacheState) (e : Event)

/-- What an event does, line by line: it raises what it raises and keeps what it does not
clear. -/
theorem cacheNext_get (fl : Flag) (b : Buf) :
    ((cacheNext c e).get b).get fl =
      (fl.raisedBy e b || ((c.get b).get fl && !fl.clearedBy e b)) := by
  rcases e with ⟨b', n, _ | _⟩ | b' | ⟨b', off, len⟩ | b' | ⟨_ | _ | _, b'⟩ | ⟨b', bs⟩ | b' |
      ⟨d, st⟩ <;>
    (try by_cases hb : b = b') <;> cases fl <;>
    simp [cacheNext, CacheState.stored, BufMap.get_set, Lines.get, Flag.raisedBy,
      Flag.clearedBy, Event.stores, *]

variable {c e}

/-- An event meets no line it must not meet only where none is there. -/
theorem cacheMeets_checked {b : Buf} (h : cacheMeets c e = false) (fl : Flag)
    (hc : fl.checkedBy e b) : (c.get b).get fl = false := by
  cases fl <;> cases e <;>
    simp only [Flag.checkedBy, decide_eq_true_eq, Bool.false_eq_true] at hc <;> subst hc <;> exact h

end Step

/-- A line no event of a run clears is still there after it. -/
theorem foldl_cacheNext_keeps (fl : Flag) {b : Buf} :
    ∀ {c : CacheState} {evs : List Event}, (∀ e ∈ evs, fl.clearedBy e b = false) →
      (c.get b).get fl → ((evs.foldl cacheNext c).get b).get fl
  | _, [], _, hl => hl
  | c, e :: evs, hc, hl =>
    @foldl_cacheNext_keeps fl b (cacheNext c e) evs (fun x hx => hc x (List.mem_cons_of_mem _ hx))
      (by simp [cacheNext_get, hl, hc e (List.mem_cons_self _ _)])

/-- Between an event that raises a line and one that must not meet it, a run the monitor passes
clears it. -/
theorem cacheOk_cleared (fl : Flag) {c : CacheState} {pre mid post : List Event} {e g : Event}
    {b : Buf} (h : CacheOk c (pre ++ e :: mid ++ g :: post)) (hr : fl.raisedBy e b)
    (hg : fl.checkedBy g b) : ∃ x ∈ mid, fl.clearedBy x b := by
  by_contra hnone
  simp only [not_exists, not_and, Bool.not_eq_true] at hnone
  simp only [List.append_assoc, List.cons_append, cacheOk_append, cacheOk_cons] at h
  obtain ⟨-, -, -, hmet, -⟩ := h
  have hraised : ((cacheNext (pre.foldl cacheNext c) e).get b).get fl := by
    simp [cacheNext_get, hr]
  have hkept := foldl_cacheNext_keeps fl hnone hraised
  rw [cacheMeets_checked hmet fl hg] at hkept
  exact Bool.false_ne_true hkept

/-- A run the monitor passes, from any state, meets the cache obligations. -/
theorem cacheObligations_of_cacheOk {c : CacheState} {evs : List Event} (h : CacheOk c evs) :
    CacheObligations evs where
  pushed pre e mid b bs post hevs hs := by
    subst hevs
    obtain ⟨x, hx, hcl⟩ := cacheOk_cleared .unpushed h hs (by simp [Flag.checkedBy])
    simp only [Flag.clearedBy, decide_eq_true_eq] at hcl
    rcases hcl with rfl | rfl
    exacts [.inl hx, .inr hx]
  synced pre e mid b post hevs hs := by
    subst hevs
    obtain ⟨x, hx, hcl⟩ := cacheOk_cleared .unsynced h hs (by simp [Flag.checkedBy])
    simp only [Flag.clearedBy, decide_eq_true_eq] at hcl
    rcases hcl with rfl | rfl
    exacts [.inl hx, .inr hx]
  pulled pre mid b post hevs := by
    subst hevs
    obtain ⟨x, hx, hcl⟩ := cacheOk_cleared .stale h
      (show Flag.stale.raisedBy (.devWrite b) b by simp [Flag.raisedBy]) (by simp [Flag.checkedBy])
    simp only [Flag.clearedBy, decide_eq_true_eq] at hcl
    exact hcl ▸ hx

/-! ## More lines, more to meet

A cache state with more lines than another fails every run the other fails, so a run that passes
from the state with every line of every buffer passes from all. -/

/-- Every line of one state is a line of the other. -/
def CacheState.Le (c c' : CacheState) : Prop :=
  ∀ b fl, (c.get b).get fl = true → (c'.get b).get fl = true

/-- Every line of every buffer. -/
def CacheState.top : CacheState := .const ⟨true, true, true⟩

theorem CacheState.le_top (c : CacheState) : c.Le .top := by
  intro b fl _
  cases b <;> cases fl <;> rfl

section Mono

variable {c c' : CacheState}

theorem cacheNext_mono (h : c.Le c') (e : Event) : (cacheNext c e).Le (cacheNext c' e) := by
  intro b fl
  have hle := h b fl
  simp only [cacheNext_get]
  revert hle
  cases (c.get b).get fl <;> cases (c'.get b).get fl <;> simp +contextual

theorem cacheMeets_mono (h : c.Le c') {e : Event} (he : cacheMeets c' e = false) :
    cacheMeets c e = false := by
  cases e with
  | hostRead b => exact Bool.eq_false_iff.2 fun hc => Bool.eq_false_iff.1 he (h b .stale hc)
  | devRead b _ => exact Bool.eq_false_iff.2 fun hc => Bool.eq_false_iff.1 he (h b .unpushed hc)
  | devWrite b => exact Bool.eq_false_iff.2 fun hc => Bool.eq_false_iff.1 he (h b .unsynced hc)
  | _ => rfl

theorem cacheOk_mono : ∀ {c c' : CacheState} {evs : List Event}, c.Le c' → CacheOk c' evs →
    CacheOk c evs
  | _, _, [], _, _ => trivial
  | _, _, e :: _, h, ⟨he, hrest⟩ => ⟨cacheMeets_mono h he, cacheOk_mono (cacheNext_mono h e) hrest⟩

end Mono

/-! ## The monitor over the steps of an operation -/

/-- A step whose events may not happen: the monitor passes it when it passes both ways. -/
@[simp]
theorem cacheOk_ite_append (c : CacheState) (r : Prop) [Decidable r] (l rest : List Event) :
    CacheOk c ((if r then l else []) ++ rest) ↔
      (r → CacheOk c (l ++ rest)) ∧ (¬r → CacheOk c rest) := by
  split <;> simp [*]

@[simp]
theorem cacheOk_convEvents_append (c : CacheState) (fs : List (Buf × Nat × Nat))
    (rest : List Event) :
    CacheOk c (fs.flatMap convEvents ++ rest) ↔
      CacheOk (fs.foldl (fun s f => s.stored f.1) c) rest := by
  induction fs generalizing c with
  | nil => rfl
  | cons f fs ih => simp [convEvents, ih, cacheMeets, cacheNext]

@[simp]
theorem cacheOk_allocs_append (c : CacheState) (fs : List (Buf × Nat)) (rest : List Event) :
    CacheOk c ((fs.map fun f => .alloc f.1 f.2 true) ++ rest) ↔
      CacheOk (fs.foldl (fun s f => s.stored f.1) c) rest := by
  induction fs generalizing c with
  | nil => rfl
  | cons f fs ih => simp [ih, cacheMeets, cacheNext]

/-! ## The three operations -/

section Operations

variable (ext : Ext) (cfg : Cfg) (w : World)

theorem doGenKeypair_cacheOk (lBits nBits : Nat) :
    (doGenKeypair ext cfg lBits nBits).wp (fun _ _ evs => CacheOk .top evs) w := by
  simp [doGenKeypair, caamCallocAlignBuf, caamFreeDesc, storeEvents, cacheNext, cacheMeets,
    CacheState.top, BufMap.const, CacheState.stored, BufMap.get, BufMap.set]

theorem doSign_cacheOk (sdata : SignData DsaKeypair) (lBytes nBytes : Nat) :
    (doSign ext cfg sdata lBytes nBytes).wp (fun _ _ evs => CacheOk .top evs) w := by
  simp [doSign, doKeyprivConv, caamDmaobjCachePush, caamFreeDesc, caamDmaobjFree,
    caamDmaobjCopyToOrig, keyprivFields, convEvents, cacheNext, cacheMeets, CacheState.top,
    BufMap.const, CacheState.stored, BufMap.get, BufMap.set]

theorem doVerify_cacheOk (sdata : SignData DsaPublicKey) (lBytes nBytes : Nat) :
    (doVerify ext cfg sdata lBytes nBytes).wp (fun _ _ evs => CacheOk .top evs) w := by
  simp [doVerify, doKeypubConv, caamDmaobjCachePush, caamFreeDesc, caamDmaobjFree,
    keypubFields, convEvents, cacheNext, cacheMeets, CacheState.top, BufMap.const,
    CacheState.stored, BufMap.get, BufMap.set]

/-- On every path of the three operations, for every outcome of every step: a buffer the CAAM
reads was cleaned or flushed after the host's last store into it, a buffer it writes was flushed
or invalidated after the host's last store into it, and the host reads what it wrote only after
an invalidate. -/
theorem dsaOperations_cache_obligations (lBits nBits lBytes nBytes : Nat)
    (sdata : SignData DsaKeypair) (vdata : SignData DsaPublicKey) :
    CacheObligations (doGenKeypair ext cfg lBits nBits w).events ∧
    CacheObligations (doSign ext cfg sdata lBytes nBytes w).events ∧
    CacheObligations (doVerify ext cfg vdata lBytes nBytes w).events :=
  ⟨cacheObligations_of_cacheOk (doGenKeypair_cacheOk ext cfg w lBits nBits),
    cacheObligations_of_cacheOk (doSign_cacheOk ext cfg w sdata lBytes nBytes),
    cacheObligations_of_cacheOk (doVerify_cacheOk ext cfg w vdata lBytes nBytes)⟩

/-- Whatever lines the caller leaves in the cache, dirty or stale, in whichever buffers: no
CAAM read of the three operations meets host stores not in memory, no CAAM write lies under
dirty lines, and no host read meets lines older than memory. -/
theorem dsaOperations_cacheOk_any_state (c : CacheState) (lBits nBits lBytes nBytes : Nat)
    (sdata : SignData DsaKeypair) (vdata : SignData DsaPublicKey) :
    CacheOk c (doGenKeypair ext cfg lBits nBits w).events ∧
    CacheOk c (doSign ext cfg sdata lBytes nBytes w).events ∧
    CacheOk c (doVerify ext cfg vdata lBytes nBytes w).events :=
  ⟨cacheOk_mono c.le_top (doGenKeypair_cacheOk ext cfg w lBits nBits),
    cacheOk_mono c.le_top (doSign_cacheOk ext cfg w sdata lBytes nBytes),
    cacheOk_mono c.le_top (doVerify_cacheOk ext cfg w vdata lBytes nBytes)⟩

end Operations

end CryptoDrivers.Caam
