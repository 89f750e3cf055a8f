import LatentCache.Proofs.Cache.Fleet

/-!
# Calls that fail

A call that fails leaves no trace but in the watch over the storage. A retrieval fails exactly when
the storage fails to answer one of its questions, and with that failure.
-/

namespace LatentCache

/-! ## What a medium keeps when it fails -/

/-- Questions and failed batches do not change a part of the state. -/
structure Medium.Keeps {σ τ : Type} (m : Medium σ) (part : σ → τ) : Prop where
  get : ∀ key s, part (m.get key s).2 = part s
  batchPut : ∀ records s e t, m.batchPut records s = (.error e, t) → part t = part s

theorem Memory.keeps : Memory.medium.Keeps id where
  get _ _ := rfl
  batchPut _ _ _ _ h := by cases h

theorem MappedEnvironment.keeps : MappedEnvironment.medium.Keeps id where
  get _ _ := rfl
  batchPut records env e t h := by
    change env.commit records = _ at h
    rw [commit] at h
    split at h
    · cases h
    · split at h
      · cases h
        rfl
      · cases h

theorem Medium.Keeps.watched {σ : Type} {m : Medium σ} (h : m.Keeps id) :
    m.watched.Keeps Prod.snd where
  get key s := by
    change (Watch.guard (.get key) (m.get key) s).2.2 = s.2
    rw [Watch.guard]
    split
    · rfl
    · exact h.get key s.2
  batchPut records s e t hPut := by
    change Watch.guard _ (m.batchPut records) s = _ at hPut
    rw [Watch.guard] at hPut
    split at hPut
    · cases hPut
      rfl
    · rcases hAnswer : m.batchPut records s.2 with ⟨answer, u⟩
      simp only [hAnswer] at hPut
      cases hPut
      exact h.batchPut records s.2 e u hAnswer

namespace Cache

variable {σ τ : Type} {m : Medium σ} {part : σ → τ} {c : Cache} {tokens : List Token}

theorem find_keeps (h : m.Keeps part) (first? : Option Latent)
    (chunks : List (Nat × ContentAddress)) (s : σ) :
    part (c.find m first? chunks s).2 = part s := by
  have hStep {key : ContentAddress} {s t : σ} {answer : Except StorageError (Option Bytes)}
      (hGet : m.get key s = (answer, t)) : part t = part s := by
    rw [← h.get key s, hGet]
  fun_induction find c m first? chunks s with
  | case1 => rfl
  | case2 _ _ _ _ _ _ _ hGet => exact hStep hGet
  | case3 _ _ _ _ _ _ hGet => exact hStep hGet
  | case4 _ _ _ _ _ _ _ hGet => exact hStep hGet
  | case5 _ _ _ _ _ _ _ hGet _ _ _ _ hRest ih =>
    rw [hRest] at ih
    exact ih.trans (hStep hGet)
  | case6 _ _ _ _ _ _ _ hGet _ _ _ _ hRest ih =>
    rw [hRest] at ih
    exact ih.trans (hStep hGet)

/-- What a search finds can follow the latent that it knows, or else the first one it finds. -/
theorem find_compatible {first? : Option Latent} {chunks : List (Nat × ContentAddress)} {s : σ}
    {found : Found} (h : (c.find m first? chunks s).1 = .ok found) {first : Latent}
    (hFirst : first?.or found.latents.head? = some first) :
    ∀ x ∈ found.latents, first.Compatible x := by
  fun_induction find c m first? chunks s generalizing found with
  | case2 | case5 => cases h
  | case1 | case3 | case4 =>
    cases h
    intro x hx
    cases hx
  | case6 first? _ _ _ _ _ _ _ y hUsable _ _ hRest ih =>
    cases h
    change first?.or (some y) = some first at hFirst
    rw [hRest, hFirst] at ih
    intro x hx
    rcases List.mem_cons.mp hx with rfl | hx
    · cases first? with
      | none =>
        cases hFirst
        exact .refl _
      | some known => exact (usable_eq_ok_iff.mp hUsable).2.2 first hFirst
    · exact ih rfl rfl x hx

theorem answer_isOk {chunks : List (Nat × ContentAddress)} {s : σ} {found : Found}
    (h : (c.find m none chunks s).1 = .ok found) : ∃ r, c.answer found = .ok r := by
  cases hLatents : found.latents with
  | nil =>
    refine ⟨⟨none, 0⟩, ?_⟩
    rw [answer, hLatents]
    rfl
  | cons first others =>
    have hFirst : Option.or none found.latents.head? = some first := by
      rw [hLatents]
      rfl
    have hOthers : ∀ x ∈ others, first.Compatible x := by
      intro x hx
      refine find_compatible h hFirst x ?_
      rw [hLatents]
      exact List.mem_cons_of_mem _ hx
    obtain ⟨y, hConcat, -⟩ := Latent.concat_isOk hOthers
    refine ⟨⟨some y, found.latents.length * c.chunkSize⟩, ?_⟩
    simp only [answer, hLatents, hConcat, List.isEmpty_cons, Bool.false_eq_true, if_false]

theorem retrieve_error {s t : Session σ} {e : CacheError}
    (h : c.retrieve m tokens s = (.error e, t)) :
    ∃ cause u, c.find m none (c.chunks tokens) s.storage = (.error cause, u) ∧
      e = .storage cause ∧ t = { s with storage := u } := by
  rcases hFind : c.find m none (c.chunks tokens) s.storage with ⟨cause | found, u⟩
  · rw [retrieve_failed hFind] at h
    cases h
    exact ⟨cause, u, rfl, rfl, rfl⟩
  · obtain ⟨r, hAnswer⟩ := answer_isOk (congrArg Prod.fst hFind)
    rw [retrieve_found hFind, hAnswer] at h
    cases h

theorem retrieve_keeps (h : m.Keeps part) (c : Cache) (tokens : List Token) (s : Session σ) :
    part (c.retrieve m tokens s).2.storage = part s.storage := by
  have hFind := find_keeps (c := c) h none (c.chunks tokens) s.storage
  rcases hResult : c.find m none (c.chunks tokens) s.storage with ⟨e | found, t⟩ <;>
    rw [hResult] at hFind
  · rw [retrieve_failed hResult]
    exact hFind
  · rw [retrieve_found hResult]
    exact hFind

theorem store_error (h : m.Keeps part) {x : Latent} {offset : Nat} {s t : Session σ}
    {e : CacheError} (hStore : c.store m tokens x offset s = (.error e, t)) :
    t = { s with storage := t.storage } ∧ part t.storage = part s.storage := by
  obtain ⟨-, rfl⟩ | ⟨records, cause, u, -, hPut, -, rfl⟩ := store_eq_error hStore
  · exact ⟨rfl, rfl⟩
  · exact ⟨rfl, h.batchPut _ _ _ _ hPut⟩

theorem perform_error (h : m.Keeps part) {call : CacheCall} {s t : Session σ} {e : CacheError}
    (hCall : c.perform m call s = (.error e, t)) :
    t = { s with storage := t.storage } ∧ part t.storage = part s.storage := by
  cases call with
  | store tokens x offset =>
    rcases hStore : c.store m tokens x offset s with ⟨cause | stored, u⟩ <;>
      simp only [perform, hStore, Except.map] at hCall <;> cases hCall
    exact store_error h hStore
  | retrieve tokens =>
    rcases hRetrieve : c.retrieve m tokens s with ⟨cause | r, u⟩ <;>
      simp only [perform, hRetrieve, Except.map] at hCall <;> cases hCall
    obtain ⟨failure, v, -, -, rfl⟩ := retrieve_error hRetrieve
    have hKeeps := retrieve_keeps h c tokens s
    rw [hRetrieve] at hKeeps
    exact ⟨rfl, hKeeps⟩

end Cache

theorem Fleet.perform_error {ι σ τ : Type} [DecidableEq ι] {m : Medium σ} {part : σ → τ}
    (h : m.Keeps part) {caches : ι → Cache} {call : ι × CacheCall} {f g : Fleet ι σ}
    {e : CacheError} (hCall : f.perform caches m call = (.error e, g)) :
    g = { f with storage := g.storage } ∧ part g.storage = part f.storage := by
  rcases hPerform : (caches call.1).perform m call.2 (f.session call.1) with ⟨answer, s⟩
  rw [perform, hPerform] at hCall
  cases hCall
  obtain ⟨hSession, hKept⟩ := Cache.perform_error h hPerform
  refine ⟨?_, hKept⟩
  rw [hSession]
  simp [resume, session]

/-! ## The log of a watch -/

/-- Two watched states with the same planned faults over the same state; the calls noted so far may
differ. -/
def Watch.SamePlan {σ : Type} (s t : Watch × σ) : Prop := s.1.faults = t.1.faults ∧ s.2 = t.2

theorem Watch.guard_samePlan {σ α : Type} (call : Call)
    (act : σ → Except StorageError α × σ) {s t : Watch × σ} (h : SamePlan s t) :
    (guard call act s).1 = (guard call act t).1 ∧
      SamePlan (guard call act s).2 (guard call act t).2 := by
  obtain ⟨⟨calls, faults⟩, u⟩ := s
  obtain ⟨⟨calls', faults'⟩, u'⟩ := t
  obtain ⟨hFaults, hState⟩ := h
  cases hFaults
  cases hState
  rw [guard, guard, note, note]
  rcases takeFault call.kind faults with ⟨_ | e, left⟩ <;> exact ⟨rfl, rfl, rfl⟩

theorem Medium.watched_simulates {σ : Type} (m : Medium σ) :
    m.watched.Simulates m.watched Watch.SamePlan where
  get key _ _ h := Watch.guard_samePlan (.get key) (m.get key) h
  batchPut records _ _ h := Watch.guard_samePlan _ (m.batchPut records) h

/-! ## The answers to the questions of a retrieval -/

/-- A medium that notes its answers to questions. -/
def Medium.traced {σ : Type} (m : Medium σ) :
    Medium (List (Except StorageError (Option Bytes)) × σ) :=
  { kind := m.kind
    get := fun key s =>
      let (answer, t) := m.get key s.2
      (answer, (s.1 ++ [answer], t))
    put := fun key value s =>
      let (answer, t) := m.put key value s.2
      (answer, (s.1, t))
    batchPut := fun records s =>
      let (answer, t) := m.batchPut records s.2
      (answer, (s.1, t)) }

theorem Medium.traced_simulates {σ : Type} (m : Medium σ) :
    m.traced.Simulates m fun s t => s.2 = t where
  get key s t h := by
    cases h
    exact ⟨rfl, rfl⟩
  batchPut records s t h := by
    cases h
    exact ⟨rfl, rfl⟩

def firstFailure? (answers : List (Except StorageError (Option Bytes))) : Option StorageError :=
  answers.findSome? fun answer =>
    match answer with
    | .error e => some e
    | .ok _ => none

namespace Cache

variable {σ : Type}

/-- What the medium answers to the questions that a retrieval asks, in order. -/
def answers (c : Cache) (m : Medium σ) (tokens : List Token) (s : Session σ) :
    List (Except StorageError (Option Bytes)) :=
  (c.retrieve m.traced tokens { s with storage := ([], s.storage) }).2.storage.1

theorem find_traced (c : Cache) (m : Medium σ) (first? : Option Latent)
    (chunks : List (Nat × ContentAddress)) (s : List (Except StorageError (Option Bytes)) × σ) :
    ∃ answers, (c.find m.traced first? chunks s).2.1 = s.1 ++ answers ∧
      ∀ e, (c.find m.traced first? chunks s).1 = .error e ↔ firstFailure? answers = some e := by
  have hNoted {key : ContentAddress} {s t : List (Except StorageError (Option Bytes)) × σ}
      {answer : Except StorageError (Option Bytes)} (hGet : m.traced.get key s = (answer, t)) :
      t.1 = s.1 ++ [answer] := by
    cases hGet
    rfl
  fun_induction find c m.traced first? chunks s with
  | case1 => exact ⟨[], (List.append_nil _).symm, fun e => by simp [firstFailure?]⟩
  | case2 _ _ _ _ _ e _ hGet =>
    exact ⟨[.error e], hNoted hGet, fun cause => by simp [firstFailure?]⟩
  | case3 _ _ _ _ _ _ hGet =>
    exact ⟨[.ok none], hNoted hGet, fun cause => by simp [firstFailure?]⟩
  | case4 _ _ _ _ _ bytes _ hGet =>
    exact ⟨[.ok (some bytes)], hNoted hGet, fun cause => by simp [firstFailure?]⟩
  | case5 _ _ _ _ _ bytes _ hGet _ _ _ _ hRest ih =>
    obtain ⟨answers, hLog, hFailure⟩ := ih
    rw [hRest] at hLog hFailure
    rw [hNoted hGet, List.append_assoc] at hLog
    refine ⟨.ok (some bytes) :: answers, hLog, fun cause => ?_⟩
    simp only [firstFailure?, List.findSome?_cons] at hFailure ⊢
    exact hFailure cause
  | case6 _ _ _ _ _ bytes _ hGet _ _ _ _ hRest ih =>
    obtain ⟨answers, hLog, hFailure⟩ := ih
    rw [hRest] at hLog hFailure
    rw [hNoted hGet, List.append_assoc] at hLog
    refine ⟨.ok (some bytes) :: answers, hLog, fun cause => ?_⟩
    have hNone := hFailure cause
    simp only [firstFailure?, List.findSome?_cons, reduceCtorEq, false_iff] at hNone ⊢
    exact hNone

theorem retrieve_error_iff (c : Cache) (m : Medium σ) (tokens : List Token) (s : Session σ)
    (e : CacheError) :
    (c.retrieve m tokens s).1 = .error e ↔
      ∃ cause, firstFailure? (c.answers m tokens s) = some cause ∧ e = .storage cause := by
  have hTraced : Session.Alike (fun (s : List (Except StorageError (Option Bytes)) × σ) t =>
      s.2 = t) { s with storage := ([], s.storage) } s := ⟨rfl, rfl, rfl, rfl⟩
  rw [← (retrieve_simulates m.traced_simulates c tokens hTraced).1, answers]
  obtain ⟨answers, hLog, hFailure⟩ := c.find_traced m none (c.chunks tokens) ([], s.storage)
  rw [List.nil_append] at hLog
  rcases hFind : c.find m.traced none (c.chunks tokens) ([], s.storage) with ⟨cause | found, u⟩ <;>
    rw [hFind] at hLog hFailure
  · rw [retrieve_failed hFind]
    change _ ↔ ∃ cause, firstFailure? u.1 = some cause ∧ _
    rw [hLog, (hFailure cause).mp rfl]
    simp [eq_comm]
  · obtain ⟨r, hAnswer⟩ := answer_isOk (congrArg Prod.fst hFind)
    rw [retrieve_found hFind, hAnswer]
    change _ ↔ ∃ cause, firstFailure? u.1 = some cause ∧ _
    rw [hLog]
    constructor
    · intro h
      cases h
    · rintro ⟨cause, hCause, -⟩
      cases (hFailure cause).mpr hCause

end Cache

/-! ## No trace -/

/-- What failed calls on a watched medium do, for all fleets of caches in all states. -/
structure Medium.FailsWithoutTrace {σ : Type} (m : Medium σ) : Prop where
  /-- A failed call changes neither the contents nor any counts, only the watch. -/
  unchanged : ∀ {ι : Type} [DecidableEq ι] (caches : ι → Cache) (call : ι × CacheCall)
    (f g : Fleet ι (Watch × σ)) (e : CacheError),
    f.perform caches m.watched call = (.error e, g) →
      g = { f with storage := (g.storage.1, f.storage.2) }
  /-- Whatever faults are planned for later calls, these answer as if it had not been made. -/
  later : ∀ {ι : Type} [DecidableEq ι] (caches : ι → Cache) (call : ι × CacheCall)
    (f g : Fleet ι (Watch × σ)) (e : CacheError),
    f.perform caches m.watched call = (.error e, g) →
      ∀ (calls : List (ι × CacheCall)) (w v : Watch), w.faults = v.faults →
        (Fleet.run caches m.watched { g with storage := (w, g.storage.2) } calls).1 =
          (Fleet.run caches m.watched { f with storage := (v, f.storage.2) } calls).1
  /-- Noting the answers of the medium does not change what a retrieval answers. -/
  traced : ∀ (c : Cache) (tokens : List Token) (s : Session (Watch × σ)),
    (c.retrieve m.watched.traced tokens { s with storage := ([], s.storage) }).1 =
      (c.retrieve m.watched tokens s).1
  /-- A retrieval fails exactly when one of its questions fails, and with the first failure. -/
  retrieve_error : ∀ (c : Cache) (tokens : List Token) (s : Session (Watch × σ)) (e : CacheError),
    (c.retrieve m.watched tokens s).1 = .error e ↔
      ∃ cause, firstFailure? (c.answers m.watched tokens s) = some cause ∧ e = .storage cause

theorem Medium.Keeps.failsWithoutTrace {σ : Type} {m : Medium σ} (h : m.Keeps id) :
    m.FailsWithoutTrace := by
  have hUnchanged {ι : Type} [DecidableEq ι] (caches : ι → Cache) (call : ι × CacheCall)
      (f g : Fleet ι (Watch × σ)) (e : CacheError)
      (hCall : f.perform caches m.watched call = (.error e, g)) :
      g = { f with storage := (g.storage.1, f.storage.2) } := by
    obtain ⟨hFleet, hKept⟩ := Fleet.perform_error h.watched hCall
    rw [hFleet, ← hKept]
  constructor
  · exact hUnchanged
  · intro ι _ caches call f g e hCall calls w v hPlan
    have hAlike : Fleet.Alike Watch.SamePlan { f with storage := (w, f.storage.2) }
        { f with storage := (v, f.storage.2) } := ⟨⟨hPlan, rfl⟩, rfl, rfl, rfl⟩
    rw [hUnchanged caches call f g e hCall]
    exact (Fleet.run_simulates m.watched_simulates caches calls hAlike).1
  · intro c tokens s
    exact (Cache.retrieve_simulates m.watched.traced_simulates c tokens ⟨rfl, rfl, rfl, rfl⟩).1
  · exact fun c tokens s e => c.retrieve_error_iff m.watched tokens s e

theorem failed_calls_leave_no_trace :
    Memory.medium.FailsWithoutTrace ∧ MappedEnvironment.medium.FailsWithoutTrace :=
  ⟨Memory.keeps.failsWithoutTrace, MappedEnvironment.keeps.failsWithoutTrace⟩

end LatentCache
