import LatentCache.Proofs.Cache.Retrieval
import LatentCache.Proofs.Cache.Storing

/-!
# Caches that share a storage

A fleet of caches works on one storage, call after call. What its calls answer depends only on what
the medium answers, and a call that fails leaves whatever a medium keeps when it fails.
-/

namespace LatentCache

inductive CacheCall where
  | store (tokens : List Token) (x : Latent) (offset : Nat)
  | retrieve (tokens : List Token)

inductive CacheAnswer where
  | stored (r : Stored)
  | retrieved (r : Retrieved)
deriving DecidableEq

def Cache.perform {σ : Type} (c : Cache) (m : Medium σ) (call : CacheCall) (s : Session σ) :
    Except CacheError CacheAnswer × Session σ :=
  match call with
  | .store tokens x offset =>
    let (answer, s) := c.store m tokens x offset s
    (answer.map .stored, s)
  | .retrieve tokens =>
    let (answer, s) := c.retrieve m tokens s
    (answer.map .retrieved, s)

/-- The caches of a process: what they share, and the counts of each of them. -/
structure Fleet (ι σ : Type) where
  storage : σ
  stats : ι → Stats
  metrics : Metrics
  warnings : List Warning

namespace Fleet

variable {ι σ : Type} [DecidableEq ι]

def session (f : Fleet ι σ) (i : ι) : Session σ := ⟨f.storage, f.stats i, f.metrics, f.warnings⟩

def resume (f : Fleet ι σ) (i : ι) (s : Session σ) : Fleet ι σ :=
  ⟨s.storage, Function.update f.stats i s.stats, s.metrics, s.warnings⟩

def perform (caches : ι → Cache) (m : Medium σ) (f : Fleet ι σ) (call : ι × CacheCall) :
    Except CacheError CacheAnswer × Fleet ι σ :=
  let (answer, s) := (caches call.1).perform m call.2 (f.session call.1)
  (answer, f.resume call.1 s)

/-- Makes calls one after another, also after failures. -/
def run (caches : ι → Cache) (m : Medium σ) (f : Fleet ι σ) :
    List (ι × CacheCall) → List (Except CacheError CacheAnswer) × Fleet ι σ
  | [] => ([], f)
  | call :: rest =>
    let (answer, f) := f.perform caches m call
    let (answers, f) := run caches m f rest
    (answer :: answers, f)

end Fleet

/-! ## Media that answer alike -/

namespace Medium

variable {σ τ : Type}

/-- From related states two media give the same answers and move to related states. -/
structure Simulates (m : Medium σ) (n : Medium τ) (R : σ → τ → Prop) : Prop where
  get : ∀ key s t, R s t → (m.get key s).1 = (n.get key t).1 ∧ R (m.get key s).2 (n.get key t).2
  batchPut : ∀ records s t, R s t →
    (m.batchPut records s).1 = (n.batchPut records t).1 ∧
      R (m.batchPut records s).2 (n.batchPut records t).2

end Medium

/-- Sessions that differ at most in related states of their storage. -/
structure Session.Alike {σ τ : Type} (R : σ → τ → Prop) (s : Session σ) (t : Session τ) :
    Prop where
  storage : R s.storage t.storage
  stats : s.stats = t.stats
  metrics : s.metrics = t.metrics
  warnings : s.warnings = t.warnings

structure Fleet.Alike {ι σ τ : Type} (R : σ → τ → Prop) (f : Fleet ι σ) (g : Fleet ι τ) :
    Prop where
  storage : R f.storage g.storage
  stats : f.stats = g.stats
  metrics : f.metrics = g.metrics
  warnings : f.warnings = g.warnings

section Simulates

variable {σ τ : Type} {m : Medium σ} {n : Medium τ} {R : σ → τ → Prop} (h : m.Simulates n R)
include h

namespace Cache

theorem find_simulates (c : Cache) (first? : Option Latent)
    (chunks : List (Nat × ContentAddress)) {s : σ} {t : τ} (hs : R s t) :
    (c.find m first? chunks s).1 = (c.find n first? chunks t).1 ∧
      R (c.find m first? chunks s).2 (c.find n first? chunks t).2 := by
  induction chunks generalizing first? s t with
  | nil => exact ⟨rfl, hs⟩
  | cons chunk rest ih =>
    obtain ⟨i, key⟩ := chunk
    obtain ⟨hAnswer, hNext⟩ := h.get key s t hs
    rcases hm : m.get key s with ⟨e | found?, s'⟩ <;>
      rcases hn : n.get key t with ⟨e' | found?', t'⟩ <;> rw [hm, hn] at hAnswer hNext <;>
      cases hAnswer
    · rw [find_failed hm, find_failed hn]
      exact ⟨rfl, hNext⟩
    · cases found? with
      | none =>
        rw [find_missing hm, find_missing hn]
        exact ⟨rfl, hNext⟩
      | some bytes =>
        cases hUsable : c.usable first? bytes with
        | error fault =>
          rw [find_unusable hm hUsable, find_unusable hn hUsable]
          exact ⟨rfl, hNext⟩
        | ok x =>
          obtain ⟨hFound, hLast⟩ := ih (first?.or (some x)) hNext
          rw [find_usable hm hUsable, find_usable hn hUsable, hFound]
          exact ⟨rfl, hLast⟩

theorem retrieve_simulates (c : Cache) (tokens : List Token) {s : Session σ} {t : Session τ}
    (hs : s.Alike R t) :
    (c.retrieve m tokens s).1 = (c.retrieve n tokens t).1 ∧
      (c.retrieve m tokens s).2.Alike R (c.retrieve n tokens t).2 := by
  obtain ⟨hAnswer, hNext⟩ := find_simulates h c none (c.chunks tokens) hs.storage
  rcases hm : c.find m none (c.chunks tokens) s.storage with ⟨e | found, s'⟩ <;>
    rcases hn : c.find n none (c.chunks tokens) t.storage with ⟨e' | found', t'⟩ <;>
    rw [hm, hn] at hAnswer hNext <;> cases hAnswer
  · rw [retrieve_failed hm, retrieve_failed hn]
    exact ⟨rfl, hNext, hs.stats, hs.metrics, hs.warnings⟩
  · rw [retrieve_found hm, retrieve_found hn]
    refine ⟨rfl, hNext, ?_, ?_, ?_⟩
    · exact congrArg (Stats.addRetrieve · _ _ _) hs.stats
    · exact congrArg (Metrics.addRetrieve · _ _ _) hs.metrics
    · exact congrArg (· ++ found.warnings) hs.warnings

theorem store_simulates (c : Cache) (tokens : List Token) (x : Latent) (offset : Nat)
    {s : Session σ} {t : Session τ} (hs : s.Alike R t) :
    (c.store m tokens x offset s).1 = (c.store n tokens x offset t).1 ∧
      (c.store m tokens x offset s).2.Alike R (c.store n tokens x offset t).2 := by
  cases hRecords : c.records tokens x offset with
  | error e =>
    rw [store_refused hRecords, store_refused hRecords]
    exact ⟨rfl, hs⟩
  | ok records =>
    cases records with
    | nil =>
      rw [store_nothing hRecords, store_nothing hRecords]
      exact ⟨rfl, hs⟩
    | cons record rest =>
      obtain ⟨hAnswer, hNext⟩ := h.batchPut (record :: rest) s.storage t.storage hs.storage
      rcases hm : m.batchPut (record :: rest) s.storage with ⟨e | done, s'⟩ <;>
        rcases hn : n.batchPut (record :: rest) t.storage with ⟨e' | done', t'⟩ <;>
        rw [hm, hn] at hAnswer hNext <;> cases hAnswer
      · rw [store_failed hRecords hm, store_failed hRecords hn]
        exact ⟨rfl, hNext, hs.stats, hs.metrics, hs.warnings⟩
      · rw [store_written hRecords hm, store_written hRecords hn]
        refine ⟨rfl, hNext, ?_, ?_, hs.warnings⟩
        · exact congrArg (Stats.addStore · _ _) hs.stats
        · exact congrArg (Metrics.addStore · _ _) hs.metrics

theorem perform_simulates (c : Cache) (call : CacheCall) {s : Session σ} {t : Session τ}
    (hs : s.Alike R t) :
    (c.perform m call s).1 = (c.perform n call t).1 ∧
      (c.perform m call s).2.Alike R (c.perform n call t).2 := by
  cases call with
  | store tokens x offset =>
    obtain ⟨hAnswer, hNext⟩ := store_simulates h c tokens x offset hs
    exact ⟨congrArg (Except.map CacheAnswer.stored) hAnswer, hNext⟩
  | retrieve tokens =>
    obtain ⟨hAnswer, hNext⟩ := retrieve_simulates h c tokens hs
    exact ⟨congrArg (Except.map CacheAnswer.retrieved) hAnswer, hNext⟩

end Cache

namespace Fleet

variable {ι : Type} [DecidableEq ι]

theorem perform_simulates (caches : ι → Cache) (call : ι × CacheCall) {f : Fleet ι σ}
    {g : Fleet ι τ} (hf : f.Alike R g) :
    (f.perform caches m call).1 = (g.perform caches n call).1 ∧
      (f.perform caches m call).2.Alike R (g.perform caches n call).2 := by
  have hSession : (f.session call.1).Alike R (g.session call.1) :=
    ⟨hf.storage, congrFun hf.stats call.1, hf.metrics, hf.warnings⟩
  obtain ⟨hAnswer, hNext⟩ := (caches call.1).perform_simulates h call.2 hSession
  refine ⟨hAnswer, hNext.storage, ?_, hNext.metrics, hNext.warnings⟩
  exact congrArg₂ (fun stats s => Function.update stats call.1 s) hf.stats hNext.stats

theorem run_simulates (caches : ι → Cache) (calls : List (ι × CacheCall)) {f : Fleet ι σ}
    {g : Fleet ι τ} (hf : f.Alike R g) :
    (f.run caches m calls).1 = (g.run caches n calls).1 ∧
      (f.run caches m calls).2.Alike R (g.run caches n calls).2 := by
  induction calls generalizing f g with
  | nil => exact ⟨rfl, hf⟩
  | cons call rest ih =>
    obtain ⟨hAnswer, hNext⟩ := perform_simulates h caches call hf
    obtain ⟨hAnswers, hLast⟩ := ih hNext
    exact ⟨congrArg₂ List.cons hAnswer hAnswers, hLast⟩

end Fleet

end Simulates

end LatentCache
