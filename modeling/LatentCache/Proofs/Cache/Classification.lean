import LatentCache.Proofs.Cache.Decision
import LatentCache.Proofs.Cache.Failure

/-!
# Whose fault an error is

A store fails before any call because of its arguments, or because its one call failed; a retrieval
fails because one of its calls did. Errors of calls are classified as those calls say. Errors about
the arguments are the caller's, but for one that is not recognized: raw records that cannot hold the
latent.
-/

namespace LatentCache.Cache

variable {c : Cache} {tokens : List Token} {x : Latent} {offset : Nat} {e : CacheError}

/-- The codec writes raw records of another element type or with other rows. -/
def Foreign (c : Cache) (x : Latent) : Prop :=
  ∃ layout, c.codec = .raw layout ∧ ¬(x.type = layout.type ∧ x.shape.SameRows layout.shape)

/-! ## Errors about the arguments -/

theorem Refuses.isTransient_eq (h : c.Refuses tokens x offset e) : e.isTransient = false := by
  cases h <;> rfl

theorem Refuses.isCallerError_eq_false_iff (h : c.Refuses tokens x offset e) :
    e.isCallerError = false ↔
      offset % c.chunkSize = 0 ∧ c.Reaches tokens offset x ∧ c.Foreign x := by
  cases h with
  | invalidOffset hOffset =>
    refine iff_of_false (by simp [CacheError.isCallerError]) ?_
    rintro ⟨hAligned, -⟩
    exact hOffset hAligned
  | latentTooShort _ _ hShort =>
    refine iff_of_false (by simp [CacheError.isCallerError]) ?_
    rintro ⟨-, hReaches, -⟩
    exact Nat.not_lt_of_le hReaches hShort
  | layoutMismatch hOffset _ hReaches hCodec hRows =>
    exact iff_of_true rfl ⟨hOffset, hReaches, _, hCodec, hRows⟩

/-! ## Errors of calls -/

theorem store_silent_iff {σ : Type} {m : Medium σ} {s t : Session (Watch × σ)}
    (h : c.store m.watched tokens x offset s = (.error e, t)) :
    t.storage.1.calls = s.storage.1.calls ↔ c.records tokens x offset = .error e := by
  obtain ⟨hRecords, rfl⟩ | ⟨records, cause, u, hRecords, hPut, -, rfl⟩ := store_eq_error h
  · exact iff_of_true rfl hRecords
  · have hCalls := m.calls_watched_batchPut records s.storage
    rw [hPut] at hCalls
    rw [hRecords]
    refine iff_of_false ?_ (fun hError => by cases hError)
    intro hSilent
    exact List.cons_ne_nil _ _ (List.self_eq_append_right.mp (hSilent.symm.trans hCalls))

/-- How the errors of calls on a watched medium are classified. -/
structure Classified {σ : Type} (c : Cache) (m : Medium σ) (tokens : List Token) (x : Latent)
    (offset : Nat) (s : Session (Watch × σ)) : Prop where
  /-- Without a call the arguments are to blame, and the error says so unless nothing but the kind
  of raw records is wrong. -/
  refused : ∀ e t, c.store m.watched tokens x offset s = (.error e, t) →
    t.storage.1.calls = s.storage.1.calls →
      e.isTransient = false ∧
      (e.isCallerError = true ↔
        ¬(offset % c.chunkSize = 0 ∧ c.Reaches tokens offset x ∧ c.Foreign x))
  /-- With a call, that call failed. -/
  store_failed : ∀ e t, c.store m.watched tokens x offset s = (.error e, t) →
    t.storage.1.calls ≠ s.storage.1.calls →
      ∃ records cause, c.IsBatch tokens x offset records ∧
        (m.watched.batchPut records s.storage).1 = .error cause ∧
        e.isCallerError = false ∧ e.isTransient = cause.isTransient
  retrieve_failed : ∀ e t, c.retrieve m.watched tokens s = (.error e, t) →
    ∃ cause, firstFailure? (c.answers m.watched tokens s) = some cause ∧
      e.isCallerError = false ∧ e.isTransient = cause.isTransient

theorem errors_classified {σ : Type} (c : Cache) (m : Medium σ) (tokens : List Token) (x : Latent)
    (hSound : x.Sound) (offset : Nat) (s : Session (Watch × σ)) :
    c.Classified m tokens x offset s where
  refused e t hStore hSilent := by
    have hRefuses := (records_eq_error_iff hSound).mp ((store_silent_iff hStore).mp hSilent)
    refine ⟨hRefuses.isTransient_eq, ?_⟩
    rw [← hRefuses.isCallerError_eq_false_iff, Bool.not_eq_false]
  store_failed e t hStore hCalled := by
    obtain ⟨hRecords, -⟩ | ⟨records, cause, u, hRecords, hPut, rfl, -⟩ := store_eq_error hStore
    · exact absurd ((store_silent_iff hStore).mpr hRecords) hCalled
    · exact ⟨records, cause, isBatch_of_records hRecords, congrArg Prod.fst hPut, rfl, rfl⟩
  retrieve_failed e t hRetrieve := by
    have hError := congrArg Prod.fst hRetrieve
    obtain ⟨cause, hFirst, rfl⟩ := (c.retrieve_error_iff m.watched tokens s e).mp hError
    exact ⟨cause, hFirst, rfl, rfl⟩

/-- Memory whose next batch fails. -/
def busy : Session (Watch × Memory) :=
  { storage := ({ faults := [⟨.batchPut, 0, .transient "busy"⟩] }, Table.empty) }

theorem busy_store_transient : (single 10 11).Sound ∧ ∃ e t,
    singles.store Memory.medium.watched [7] (single 10 11) 0 busy = (.error e, t) ∧
      e.isCallerError = false ∧ e.isTransient = true := by
  have hSound : (single 10 11).Sound := ⟨by decide, by decide⟩
  have hRecords : singles.records [7] (single 10 11) 0 = .ok [(.ofTokens [7], [10, 11])] := by
    rw [records_eq]
    decide +kernel
  have hStore := store_failed (m := Memory.medium.watched) (s := busy) hRecords rfl
  have hClassified := errors_classified singles Memory.medium [7] (single 10 11) hSound 0 busy
  obtain ⟨records, cause, -, hCause, hCaller, hTransient⟩ :=
    hClassified.store_failed _ _ hStore (List.cons_ne_nil _ _)
  cases hCause
  exact ⟨hSound, _, _, hStore, hCaller, hTransient⟩

/-- A latent of two columns, refused by raw records of one: the caller is not blamed. -/
theorem foreign_not_blamed :
    ∃ e, singles.store Memory.medium.watched [7] ⟨.f16, ⟨1, 1, [2]⟩, [10, 11, 12, 13]⟩ 0
        { storage := ({}, Table.empty) } = (.error e, { storage := ({}, Table.empty) }) ∧
      e.isTransient = false ∧ e.isCallerError ≠ true := by
  have hSound : Latent.Sound ⟨.f16, ⟨1, 1, [2]⟩, [10, 11, 12, 13]⟩ := ⟨by decide, by decide⟩
  have hRefuses : singles.Refuses [7] ⟨.f16, ⟨1, 1, [2]⟩, [10, 11, 12, 13]⟩ 0 _ :=
    .layoutMismatch rfl (by decide) (by unfold Reaches; decide) rfl (by decide)
  exact ⟨_, store_refused (hRefuses.records_eq hSound), rfl, by decide⟩

end LatentCache.Cache
