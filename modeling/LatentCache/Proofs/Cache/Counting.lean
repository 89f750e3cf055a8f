import LatentCache.Proofs.Cache.Failure
import Mathlib.Algebra.BigOperators.Group.Finset.Piecewise

/-!
# Counting

What caches count is what their answers say: every successful call adds what it answered to the
counts of its cache and to those that the process exports, and a call that fails adds nothing.
-/

namespace LatentCache

/-! ## What one call counts -/

/-- The counts after a call with an answer, for chunks of a size. -/
def Stats.next (s : Stats) (size : Nat) : CacheCall → Except CacheError CacheAnswer → Stats
  | .retrieve tokens, .ok (.retrieved r) =>
    s.addRetrieve (r.tokensCovered / size)
      (decide (r.tokensCovered < size * (tokens.length / size))) r.tokensCovered
  | .store _ _ _, .ok (.stored r) =>
    if 0 < r.chunksWritten then s.addStore r.chunksWritten r.bytesWritten else s
  | _, _ => s

def Metrics.next (m : Metrics) (size : Nat) : CacheCall → Except CacheError CacheAnswer → Metrics
  | .retrieve tokens, .ok (.retrieved r) =>
    m.addRetrieve (r.tokensCovered / size)
      (decide (r.tokensCovered < size * (tokens.length / size))) r.tokensCovered
  | .store _ _ _, .ok (.stored r) =>
    if 0 < r.chunksWritten then m.addStore r.chunksWritten r.bytesWritten else m
  | _, _ => m

/-- An answer is about whole chunks: no positions beside them, and no bytes without them. -/
def CacheAnswer.Whole (size : Nat) : CacheAnswer → Prop
  | stored r => r.chunksWritten = 0 → r.bytesWritten = 0
  | retrieved r => size ∣ r.tokensCovered

namespace Cache

variable {σ : Type} {m : Medium σ} {c : Cache} {s t : Session σ}

/-- A search that the medium lets finish misses a chunk exactly if it finds fewer than it looks
for. -/
theorem find_missed_iff {first? : Option Latent} {chunks : List (Nat × ContentAddress)} {s : σ}
    {found : Found} (h : (c.find m first? chunks s).1 = .ok found) :
    found.missed = true ↔ found.latents.length < chunks.length := by
  fun_induction find c m first? chunks s generalizing found with
  | case2 | case5 => cases h
  | case1 | case3 | case4 =>
    cases h
    simp
  | case6 _ _ _ _ _ _ _ _ _ _ _ _ hRest ih =>
    cases h
    rw [hRest] at ih
    simpa using ih rfl

theorem retrieve_counts {tokens : List Token} {r : Retrieved}
    (h : c.retrieve m tokens s = (.ok r, t)) :
    t.stats = s.stats.next c.chunkSize (.retrieve tokens) (.ok (.retrieved r)) ∧
      t.metrics = s.metrics.next c.chunkSize (.retrieve tokens) (.ok (.retrieved r)) ∧
      (CacheAnswer.retrieved r).Whole c.chunkSize := by
  obtain ⟨found, u, hFind, hCovered, rfl⟩ := retrieve_eq_ok h
  have hHits : r.tokensCovered / c.chunkSize = found.latents.length := by
    rw [hCovered, Nat.mul_div_cancel _ c.chunkSize_pos]
  have hMissed : decide (r.tokensCovered < c.chunkSize * (tokens.length / c.chunkSize)) =
      found.missed := by
    have hLength : (c.chunks tokens).length = tokens.length / c.chunkSize := by
      rw [chunks_eq, List.length_map, List.length_range']
    rw [Bool.eq_iff_iff, decide_eq_true_iff, find_missed_iff (congrArg Prod.fst hFind), hLength,
      hCovered, Nat.mul_comm, Nat.mul_lt_mul_left c.chunkSize_pos]
  refine ⟨?_, ?_, ⟨_, hCovered.trans (Nat.mul_comm _ _)⟩⟩
  · rw [Stats.next, hHits, hMissed, hCovered]
    rfl
  · rw [Metrics.next, hHits, hMissed, hCovered]
    rfl

theorem store_counts {tokens : List Token} {x : Latent} {offset : Nat} {r : Stored}
    (h : c.store m tokens x offset s = (.ok r, t)) :
    t.stats = s.stats.next c.chunkSize (.store tokens x offset) (.ok (.stored r)) ∧
      t.metrics = s.metrics.next c.chunkSize (.store tokens x offset) (.ok (.stored r)) ∧
      (CacheAnswer.stored r).Whole c.chunkSize := by
  obtain ⟨-, rfl, rfl⟩ | ⟨record, rest, u, -, -, rfl, rfl⟩ := store_eq_ok h
  · exact ⟨rfl, rfl, fun _ => rfl⟩
  · exact ⟨rfl, rfl, fun hNone => by cases hNone⟩

/-- Where a call fails, the medium may have changed its state in any way; the counts are no part
of it. -/
theorem perform_counts {call : CacheCall} {answer : Except CacheError CacheAnswer}
    (h : c.perform m call s = (answer, t)) :
    t.stats = s.stats.next c.chunkSize call answer ∧
      t.metrics = s.metrics.next c.chunkSize call answer ∧
      ∀ a, answer = .ok a → a.Whole c.chunkSize := by
  cases answer with
  | error e =>
    have hKeeps : m.Keeps fun _ => () := ⟨fun _ _ => rfl, fun _ _ _ _ _ => rfl⟩
    obtain ⟨hSame, -⟩ := perform_error hKeeps h
    rw [hSame]
    cases call <;> exact ⟨rfl, rfl, fun a hOk => by cases hOk⟩
  | ok answer =>
    cases call with
    | store tokens x offset =>
      rcases hStore : c.store m tokens x offset s with ⟨e | r, u⟩ <;>
        simp only [perform, hStore, Except.map] at h <;> cases h
      obtain ⟨hStats, hMetrics, hWhole⟩ := store_counts hStore
      exact ⟨hStats, hMetrics, fun a hOk => by cases hOk; exact hWhole⟩
    | retrieve tokens =>
      rcases hRetrieve : c.retrieve m tokens s with ⟨e | r, u⟩ <;>
        simp only [perform, hRetrieve, Except.map] at h <;> cases h
      obtain ⟨hStats, hMetrics, hWhole⟩ := retrieve_counts hRetrieve
      exact ⟨hStats, hMetrics, fun a hOk => by cases hOk; exact hWhole⟩

end Cache

/-! ## What answers say -/

/-- The counts of a cache are what its successful retrievals, each with the tokens that it was asked
for, and its successful stores answered. -/
structure Stats.Counts (s : Stats) (size : Nat) (restored : List (List Token × Retrieved))
    (written : List Stored) : Prop where
  retrieves : s.retrieves = restored.length
  chunkHits : s.chunkHits = (restored.map fun r => r.2.tokensCovered / size).sum
  tokensRestored : s.tokensRestored = size * s.chunkHits
  chunkMisses : s.chunkMisses =
    restored.countP fun r => r.2.tokensCovered < size * (r.1.length / size)
  stores : s.stores = written.countP fun r => 0 < r.chunksWritten
  chunksStored : s.chunksStored = (written.map (·.chunksWritten)).sum
  bytesStored : s.bytesStored = (written.map (·.bytesWritten)).sum

namespace Stats

variable {s : Stats} {size : Nat} {restored : List (List Token × Retrieved)}
  {written : List Stored}

theorem counts_nil (size : Nat) : Counts {} size [] [] := by
  constructor <;> rfl

theorem Counts.retrieve (h : s.Counts size restored written) (tokens : List Token)
    {r : Retrieved} (hWhole : size ∣ r.tokensCovered) :
    (s.addRetrieve (r.tokensCovered / size)
      (decide (r.tokensCovered < size * (tokens.length / size))) r.tokensCovered).Counts size
      (restored ++ [(tokens, r)]) written where
  retrieves := by simp [addRetrieve, h.retrieves]
  chunkHits := by simp [addRetrieve, h.chunkHits]
  tokensRestored := by
    simp [addRetrieve, h.tokensRestored, Nat.mul_add, Nat.mul_div_cancel' hWhole]
  chunkMisses := by
    by_cases hMissed : r.tokensCovered < size * (tokens.length / size) <;>
      simp [addRetrieve, h.chunkMisses, hMissed]
  stores := h.stores
  chunksStored := h.chunksStored
  bytesStored := h.bytesStored

theorem Counts.store (h : s.Counts size restored written) {r : Stored}
    (hSome : 0 < r.chunksWritten) :
    (s.addStore r.chunksWritten r.bytesWritten).Counts size restored (written ++ [r]) where
  retrieves := h.retrieves
  chunkHits := h.chunkHits
  tokensRestored := h.tokensRestored
  chunkMisses := h.chunkMisses
  stores := by simp [addStore, h.stores, hSome]
  chunksStored := by simp [addStore, h.chunksStored]
  bytesStored := by simp [addStore, h.bytesStored]

theorem Counts.store_nothing (h : s.Counts size restored written) {r : Stored}
    (hChunks : r.chunksWritten = 0) (hBytes : r.bytesWritten = 0) :
    s.Counts size restored (written ++ [r]) where
  retrieves := h.retrieves
  chunkHits := h.chunkHits
  tokensRestored := h.tokensRestored
  chunkMisses := h.chunkMisses
  stores := by simp [h.stores, hChunks]
  chunksStored := by simp [h.chunksStored, hChunks]
  bytesStored := by simp [h.bytesStored, hBytes]

end Stats

/-- Calls with their answers, in order. -/
abbrev CallLog := List (CacheCall × Except CacheError CacheAnswer)

namespace CallLog

/-- The successful retrievals with the tokens that they were asked for. -/
def restored (log : CallLog) : List (List Token × Retrieved) :=
  log.filterMap fun
    | (.retrieve tokens, .ok (.retrieved r)) => some (tokens, r)
    | _ => none

/-- The successful stores. -/
def written (log : CallLog) : List Stored :=
  log.filterMap fun
    | (.store _ _ _, .ok (.stored r)) => some r
    | _ => none

theorem restored_append (log rest : CallLog) :
    restored (log ++ rest) = log.restored ++ restored rest := List.filterMap_append

theorem written_append (log rest : CallLog) :
    written (log ++ rest) = log.written ++ written rest := List.filterMap_append

end CallLog

theorem Stats.Counts.next {s : Stats} {size : Nat} {log : CallLog}
    (h : s.Counts size log.restored log.written) (call : CacheCall)
    {answer : Except CacheError CacheAnswer} (hWhole : ∀ a, answer = .ok a → a.Whole size) :
    (s.next size call answer).Counts size (CallLog.restored (log ++ [(call, answer)]))
      (CallLog.written (log ++ [(call, answer)])) := by
  rw [CallLog.restored_append, CallLog.written_append]
  have hSame : s.Counts size (log.restored ++ []) (log.written ++ []) := by
    rwa [List.append_nil, List.append_nil]
  match call, answer with
  | .retrieve tokens, .ok (.retrieved r) =>
    change (s.addRetrieve _ _ _).Counts size (log.restored ++ [(tokens, r)]) (log.written ++ [])
    rw [List.append_nil]
    exact h.retrieve tokens (hWhole _ rfl)
  | .store tokens x offset, .ok (.stored r) =>
    change Counts (if 0 < r.chunksWritten then _ else s) size (log.restored ++ [])
      (log.written ++ [r])
    rw [List.append_nil]
    split
    · next hSome => exact h.store hSome
    · next hNone =>
      have hZero := Nat.eq_zero_of_not_pos hNone
      exact h.store_nothing hZero (hWhole _ rfl hZero)
  | .retrieve _, .ok (.stored _) | .store _ _ _, .ok (.retrieved _) | .retrieve _, .error _
  | .store _ _ _, .error _ => exact hSame

/-! ## Exported counts -/

/-- The count of a cache that a counter sums up over all caches. -/
def Stats.share (s : Stats) : Counter → Nat
  | .chunkHits => s.chunkHits
  | .chunkMisses => s.chunkMisses
  | .chunksStored => s.chunksStored
  | .storeBytes => s.bytesStored

namespace Metrics

/-- A counter that was never reported stands at zero. -/
def total (m : Metrics) (counter : Counter) : Nat := (m.counters counter).getD 0

@[simp] theorem total_add (m : Metrics) (c d : Counter) (n : Nat) :
    (m.add c n).total d = m.total d + if d = c then n else 0 := by
  by_cases h : d = c
  · simp [total, add, h]
  · simp [total, add, h]

theorem total_addRetrieve (m : Metrics) (s : Stats) (hits : Nat) (missed : Bool) (tokens : Nat)
    (c : Counter) : ∃ n, (m.addRetrieve hits missed tokens).total c = m.total c + n ∧
      (s.addRetrieve hits missed tokens).share c = s.share c + n := by
  have hTotal : (m.addRetrieve hits missed tokens).total c =
      (if missed then (m.add .chunkHits hits).add .chunkMisses 1
        else m.add .chunkHits hits).total c := rfl
  rw [hTotal]
  cases c <;> cases missed <;> simp [Stats.addRetrieve, Stats.share]

theorem total_addStore (m : Metrics) (s : Stats) (chunks bytes : Nat) (c : Counter) :
    ∃ n, (m.addStore chunks bytes).total c = m.total c + n ∧
      (s.addStore chunks bytes).share c = s.share c + n := by
  rw [addStore]
  cases c <;> simp [Stats.addStore, Stats.share]

/-- A call adds as much to a counter as to the share of its cache. -/
theorem total_next (m : Metrics) (s : Stats) (size : Nat) (call : CacheCall)
    (answer : Except CacheError CacheAnswer) (c : Counter) :
    ∃ n, (m.next size call answer).total c = m.total c + n ∧
      (s.next size call answer).share c = s.share c + n := by
  match call, answer with
  | .retrieve tokens, .ok (.retrieved r) => exact m.total_addRetrieve s _ _ _ c
  | .store tokens x offset, .ok (.stored r) =>
    rw [next, Stats.next]
    split
    · exact m.total_addStore s _ _ c
    · exact ⟨0, rfl, rfl⟩
  | .retrieve _, .ok (.stored _) | .store _ _ _, .ok (.retrieved _) | .retrieve _, .error _
  | .store _ _ _, .error _ => exact ⟨0, rfl, rfl⟩

theorem retrieveTokens_next (m : Metrics) (size : Nat) (call : CacheCall)
    (answer : Except CacheError CacheAnswer) :
    (m.next size call answer).retrieveTokens =
      m.retrieveTokens ++ (CallLog.restored [(call, answer)]).map (·.2.tokensCovered) := by
  match call, answer with
  | .retrieve tokens, .ok (.retrieved r) =>
    rw [next, addRetrieve]
    cases decide (r.tokensCovered < size * (tokens.length / size)) <;> rfl
  | .store tokens x offset, .ok (.stored r) =>
    rw [next]
    split <;> simp [addStore, add, CallLog.restored]
  | .retrieve _, .ok (.stored _) | .store _ _ _, .ok (.retrieved _) | .retrieve _, .error _
  | .store _ _ _, .error _ => simp [next, CallLog.restored]

end Metrics

/-! ## Runs of a fleet -/

namespace Fleet

variable {ι σ : Type} [DecidableEq ι]

/-- The calls on the caches of a fleet with their answers, in order. -/
abbrev Log (ι : Type) := List (ι × CacheCall × Except CacheError CacheAnswer)

def Log.calls (log : Log ι) : CallLog := log.map (·.2)

def Log.callsOf (log : Log ι) (i : ι) : CallLog := (log.filter (·.1 = i)).map (·.2)

/-- A fleet whose caches have not been called. -/
def start (storage : σ) : Fleet ι σ := ⟨storage, fun _ => {}, {}, []⟩

/-- Makes calls one after another, also after failures. Every cache has a medium of its own; two
media share what they keep as far as they work on the same part of the state. -/
def runOn (caches : ι → Cache) (media : ι → Medium σ) (f : Fleet ι σ) :
    List (ι × CacheCall) → Log ι × Fleet ι σ
  | [] => ([], f)
  | call :: rest =>
    let (answer, f) := f.perform caches (media call.1) call
    let (log, f) := runOn caches media f rest
    ((call.1, call.2, answer) :: log, f)

/-- On one medium for all caches this is a run. -/
theorem runOn_eq_run (caches : ι → Cache) (m : Medium σ) (calls : List (ι × CacheCall))
    (f : Fleet ι σ) :
    (f.runOn caches (fun _ => m) calls).1.map (·.2.2) = (f.run caches m calls).1 ∧
      (f.runOn caches (fun _ => m) calls).2 = (f.run caches m calls).2 := by
  induction calls generalizing f with
  | nil => exact ⟨rfl, rfl⟩
  | cons call rest ih =>
    obtain ⟨hAnswers, hFleet⟩ := ih (f.perform caches m call).2
    exact ⟨congrArg (List.cons _) hAnswers, hFleet⟩

theorem calls_runOn (caches : ι → Cache) (media : ι → Medium σ) (calls : List (ι × CacheCall))
    (f : Fleet ι σ) :
    (f.runOn caches media calls).1.map (fun entry => (entry.1, entry.2.1)) = calls := by
  induction calls generalizing f with
  | nil => rfl
  | cons call rest ih => exact congrArg (List.cons call) (ih _)

/-- All counts of a fleet are what the answers to its calls say. -/
structure Counted [Fintype ι] (caches : ι → Cache) (f : Fleet ι σ) (log : Log ι) : Prop where
  stats : ∀ i, (f.stats i).Counts (caches i).chunkSize (log.callsOf i).restored
    (log.callsOf i).written
  counters : ∀ counter, f.metrics.total counter = ∑ i, (f.stats i).share counter
  retrieveTokens : f.metrics.retrieveTokens = log.calls.restored.map (·.2.tokensCovered)

theorem start_counted [Fintype ι] (caches : ι → Cache) (storage : σ) :
    (start storage).Counted caches [] where
  stats i := Stats.counts_nil (caches i).chunkSize
  counters counter := by cases counter <;> simp [start, Metrics.total, Stats.share]
  retrieveTokens := rfl

theorem Log.callsOf_append (log : Log ι) (i j : ι)
    (entry : CacheCall × Except CacheError CacheAnswer) :
    callsOf (log ++ [(i, entry)]) j = log.callsOf j ++ if i = j then [entry] else [] := by
  by_cases h : i = j <;> simp [callsOf, h]

theorem sum_update [Fintype ι] (field : Stats → Nat) (stats : ι → Stats) (i : ι) {s : Stats}
    {n : Nat} (h : field s = field (stats i) + n) :
    ∑ j, field (Function.update stats i s j) = ∑ j, field (stats j) + n := by
  have hUpdate : (fun j => field (Function.update stats i s j)) =
      Function.update (fun j => field (stats j)) i (field s) := by
    funext j
    exact Function.apply_update (fun _ => field) stats i s j
  rw [hUpdate, Finset.sum_update_of_mem (Finset.mem_univ i), h,
    ← Finset.add_sum_erase _ _ (Finset.mem_univ i), ← Finset.sdiff_singleton_eq_erase]
  omega

theorem Counted.perform [Fintype ι] {caches : ι → Cache} {f : Fleet ι σ} {log : Log ι}
    (h : f.Counted caches log) (m : Medium σ) (i : ι) (call : CacheCall) :
    (f.perform caches m (i, call)).2.Counted caches
      (log ++ [(i, call, (f.perform caches m (i, call)).1)]) := by
  rcases hCall : (caches i).perform m call (f.session i) with ⟨answer, t⟩
  obtain ⟨hStats, hMetrics, hWhole⟩ := Cache.perform_counts hCall
  have hPerform : f.perform caches m (i, call) = (answer, f.resume i t) := by
    rw [Fleet.perform, hCall]
  rw [hPerform]
  constructor
  · intro j
    rw [Log.callsOf_append]
    change (Function.update f.stats i t.stats j).Counts _ _ _
    by_cases hSame : i = j
    · subst hSame
      rw [Function.update_self, if_pos rfl, hStats]
      exact (h.stats i).next call hWhole
    · rw [Function.update_of_ne (Ne.symm hSame), if_neg hSame, List.append_nil]
      exact h.stats j
  · intro counter
    obtain ⟨n, hTotal, hShare⟩ :=
      Metrics.total_next f.metrics (f.stats i) (caches i).chunkSize call answer counter
    change t.metrics.total counter = ∑ j, (Function.update f.stats i t.stats j).share counter
    rw [hMetrics, sum_update (·.share counter) f.stats i (hStats ▸ hShare)]
    exact hTotal.trans (congrArg (· + n) (h.counters counter))
  · change t.metrics.retrieveTokens = _
    rw [hMetrics, Metrics.retrieveTokens_next]
    change f.metrics.retrieveTokens ++ _ = _
    rw [h.retrieveTokens, Log.calls, Log.calls, List.map_append, CallLog.restored_append,
      List.map_append]
    rfl

theorem Counted.run [Fintype ι] {caches : ι → Cache} {f : Fleet ι σ} {log : Log ι}
    (h : f.Counted caches log) (media : ι → Medium σ) (calls : List (ι × CacheCall)) :
    (f.runOn caches media calls).2.Counted caches (log ++ (f.runOn caches media calls).1) := by
  induction calls generalizing f log with
  | nil =>
    rw [runOn, List.append_nil]
    exact h
  | cons call rest ih =>
    have hRest := ih (h.perform (media call.1) call.1 call.2)
    rw [List.append_assoc] at hRest
    exact hRest

/-- After any run of any caches over any media, with all the failures in it, the counts of every
cache and the exported ones are what the answers say. -/
theorem counts_of_run [Fintype ι] (caches : ι → Cache) (media : ι → Medium σ) (storage : σ)
    (calls : List (ι × CacheCall)) :
    ∃ (log : Log ι) (f : Fleet ι σ),
      (start storage).runOn caches media calls = (log, f) ∧
      log.map (fun entry => (entry.1, entry.2.1)) = calls ∧
      (∀ i, (f.stats i).Counts (caches i).chunkSize (log.callsOf i).restored
        (log.callsOf i).written) ∧
      (∀ counter, (f.metrics.counters counter).getD 0 = ∑ i, (f.stats i).share counter) ∧
      f.metrics.retrieveTokens = log.calls.restored.map (·.2.tokensCovered) := by
  have hCounted := (start_counted caches storage).run media calls
  refine ⟨_, _, rfl, calls_runOn caches media calls (start storage), ?_⟩
  exact ⟨hCounted.stats, hCounted.counters, hCounted.retrieveTokens⟩

end Fleet

end LatentCache
