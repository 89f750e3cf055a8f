import LatentCache.Proofs.Storage.Contents

/-!
# Calls on storage media

A map from addresses to byte strings answers calls in the simplest way: the last write under an
address wins, and a batch writes its records in order. Every medium answers like the map of its
contents, as long as it can take what is written.
-/

namespace LatentCache

inductive StorageCall where
  | get (key : ContentAddress)
  | put (key : ContentAddress) (value : Bytes)
  | batchPut (records : List Record)

inductive StorageAnswer where
  | found (value? : Option Bytes)
  | done
deriving DecidableEq

/-- The batches that a call writes. -/
def StorageCall.batches : StorageCall → List (List Record)
  | get _ => []
  | put key value => [[(key, value)]]
  | batchPut records => [records]

/-! ## The reference -/

abbrev Contents := ContentAddress → Option Bytes

namespace Contents

/-- The answer of a map to a call and the map after it. -/
def perform (f : Contents) : StorageCall → StorageAnswer × Contents
  | .get key => (.found (f key), f)
  | .put key value => (.done, Function.update f key (some value))
  | .batchPut records => (.done, overwrite f records)

def answers (f : Contents) : List StorageCall → List StorageAnswer
  | [] => []
  | call :: rest => (f.perform call).1 :: answers (f.perform call).2 rest

def after (f : Contents) (calls : List StorageCall) : Contents :=
  calls.foldl (fun f call => (f.perform call).2) f

theorem answers_append (f : Contents) (calls later : List StorageCall) :
    f.answers (calls ++ later) = f.answers calls ++ (f.after calls).answers later := by
  induction calls generalizing f with
  | nil => rfl
  | cons call rest ih => exact congrArg _ (ih (f.perform call).2)

end Contents

/-! ## Media -/

namespace Medium

variable {σ τ : Type}

def perform (m : Medium σ) : StorageCall → σ → Except StorageError StorageAnswer × σ
  | .get key, s =>
    let (answer, s) := m.get key s
    (answer.map .found, s)
  | .put key value, s =>
    let (answer, s) := m.put key value s
    (answer.map fun _ => .done, s)
  | .batchPut records, s =>
    let (answer, s) := m.batchPut records s
    (answer.map fun _ => .done, s)

/-- Makes calls one after another, also after failures. -/
def run (m : Medium σ) : List StorageCall → σ → List (Except StorageError StorageAnswer) × σ
  | [], s => ([], s)
  | call :: rest, s =>
    let (answer, s) := m.perform call s
    let (answers, s) := run m rest s
    (answer :: answers, s)

/-- A medium that is ready for some batches accepts them one after another, and answers every `get`
between them from its contents. A single record is a batch of one. -/
structure Realizes (m : Medium σ) (ready : List (List Record) → σ → Prop)
    (contents : σ → Contents) : Prop where
  get : ∀ key batches s, ready batches s →
    (m.get key s).1 = .ok (contents s key) ∧ ready batches (m.get key s).2 ∧
      contents (m.get key s).2 = contents s
  put : ∀ key value s, m.put key value s = m.batchPut [(key, value)] s
  batchPut : ∀ records batches s, ready (records :: batches) s →
    (m.batchPut records s).1 = .ok () ∧ ready batches (m.batchPut records s).2 ∧
      contents (m.batchPut records s).2 = overwrite (contents s) records

section Realizes

variable {m : Medium σ} {ready : List (List Record) → σ → Prop} {contents : σ → Contents}
  (h : m.Realizes ready contents)
include h

theorem Realizes.perform (call : StorageCall) (batches : List (List Record)) {s : σ}
    (hs : ready (call.batches ++ batches) s) :
    (m.perform call s).1 = .ok ((contents s).perform call).1 ∧
      ready batches (m.perform call s).2 ∧
      contents (m.perform call s).2 = ((contents s).perform call).2 := by
  cases call with
  | get key =>
    obtain ⟨hAnswer, hReady, hContents⟩ := h.get key batches s hs
    exact ⟨congrArg (Except.map StorageAnswer.found) hAnswer, hReady, hContents⟩
  | put key value =>
    obtain ⟨hAnswer, hReady, hContents⟩ := h.batchPut [(key, value)] batches s hs
    rw [← h.put] at hAnswer hReady hContents
    exact ⟨congrArg (Except.map fun _ => StorageAnswer.done) hAnswer, hReady, hContents⟩
  | batchPut records =>
    obtain ⟨hAnswer, hReady, hContents⟩ := h.batchPut records batches s hs
    exact ⟨congrArg (Except.map fun _ => StorageAnswer.done) hAnswer, hReady, hContents⟩

theorem Realizes.run {calls : List StorageCall} {batches : List (List Record)} {s : σ}
    (hs : ready (calls.flatMap StorageCall.batches ++ batches) s) :
    (m.run calls s).1 = ((contents s).answers calls).map .ok ∧
      ready batches (m.run calls s).2 ∧
      contents (m.run calls s).2 = (contents s).after calls := by
  induction calls generalizing s with
  | nil => exact ⟨rfl, hs, rfl⟩
  | cons call rest ih =>
    rw [List.flatMap_cons, List.append_assoc] at hs
    obtain ⟨hAnswer, hReady, hContents⟩ := h.perform call _ hs
    obtain ⟨hAnswers, hReady, hLast⟩ := ih hReady
    rw [hContents] at hAnswers hLast
    exact ⟨congrArg₂ List.cons hAnswer hAnswers, hReady, hLast⟩

/-- A part of a larger state that takes what is written to it keeps its laws there. -/
theorem Realizes.within (part : τ → σ) (replace : σ → τ → τ) (present : τ → Prop)
    (hPart : ∀ s t, present t → part (replace s t) = s)
    (hPresent : ∀ s t, present t → present (replace s t)) :
    (m.within part replace).Realizes (fun batches t => present t ∧ ready batches (part t))
      (fun t => contents (part t)) where
  get key batches t ht := by
    obtain ⟨hAnswer, hReady, hContents⟩ := h.get key batches (part t) ht.2
    refine ⟨hAnswer, ⟨hPresent _ t ht.1, ?_⟩, ?_⟩
    · change ready batches (part (replace _ t))
      rwa [hPart _ t ht.1]
    · change contents (part (replace _ t)) = _
      rwa [hPart _ t ht.1]
  put key value t :=
    congrArg (fun result => (result.1, replace result.2 t)) (h.put key value (part t))
  batchPut records batches t ht := by
    obtain ⟨hAnswer, hReady, hContents⟩ := h.batchPut records batches (part t) ht.2
    refine ⟨hAnswer, ⟨hPresent _ t ht.1, ?_⟩, ?_⟩
    · change ready batches (part (replace _ t))
      rwa [hPart _ t ht.1]
    · change contents (part (replace _ t)) = _
      rwa [hPart _ t ht.1]

end Realizes

end Medium

/-! ## Memory -/

theorem Memory.realizes : Memory.medium.Realizes (fun _ _ => True) Table.get? where
  get _ _ _ _ := ⟨rfl, trivial, rfl⟩
  put _ _ _ := rfl
  batchPut records _ t _ := ⟨rfl, trivial, t.get?_insertAll records⟩

/-! ## Memory-mapped environments -/

/-- Whether the pages of a map suffice to enter some batches, one commit for each that is not
empty. -/
def PageTree.hasRoom : List (List Record) → PageTree → Bool
  | [], _ => true
  | records :: rest, t =>
    if records.isEmpty then hasRoom rest t
    else
      match t.commit? (records.map fun r => (r.1.toNat, r.2.length)) with
      | none => false
      | some t => hasRoom rest t

namespace MappedEnvironment

theorem commit_of_hasRoom {env : MappedEnvironment} {records : List Record}
    {batches : List (List Record)} (h : env.tree.hasRoom (records :: batches) = true) :
    (env.commit records).1 = .ok () ∧ (env.commit records).2.tree.hasRoom batches = true := by
  rw [PageTree.hasRoom] at h
  rw [commit]
  by_cases hEmpty : records.isEmpty
  · rw [if_pos hEmpty] at h ⊢
    exact ⟨rfl, h⟩
  · rw [if_neg hEmpty] at h ⊢
    cases hCommit : env.tree.commit? (records.map fun r => (r.1.toNat, r.2.length)) with
    | none =>
      rw [hCommit] at h
      cases h
    | some tree =>
      rw [hCommit] at h
      exact ⟨rfl, h⟩

theorem mapSize_commit (env : MappedEnvironment) (records : List Record) :
    (env.commit records).2.mapSize = env.mapSize := by
  rw [commit]
  split
  · rfl
  · split <;> rfl

theorem realizes (mapSize : Nat) : medium.Realizes
    (fun batches env => env.mapSize = mapSize ∧ env.tree.hasRoom batches = true) contents where
  get _ _ _ h := ⟨rfl, h, rfl⟩
  put _ _ _ := rfl
  batchPut records _ env h := by
    obtain ⟨hAnswer, hRoom⟩ := commit_of_hasRoom h.2
    exact ⟨hAnswer, ⟨(env.mapSize_commit records).trans h.1, hRoom⟩, contents_commit hAnswer⟩

end MappedEnvironment

/-! ## Clients of a service -/

namespace Client

theorem put_eq_batchPut (c : Client) (key : ContentAddress) (value : Bytes) (link : Link) :
    c.put key value link = c.batchPut [(key, value)] link := by
  cases c with
  | plain p =>
    change _ = (plain p).putEach [(key, value)] link
    rw [putEach]
    rcases (plain p).put key value link with ⟨e | done, link⟩ <;> rfl
  | pipelined p =>
    simp only [batchPut, sendAll, put, Option.or_none]
    cases (pipelined p).failure? (link.send (.set ((pipelined p).key key) value)).1 <;> rfl

/-- The commands of a client and its reports do not end a property of its link. -/
structure Preserves (c : Client) (P : Link → Prop) : Prop where
  get : ∀ key link, P link → P (link.send (.get (c.key key))).2
  set : ∀ key value link, P link → P (link.send (.set (c.key key) value)).2
  report : ∀ e link, P link → P (link.report e)

section Preserves

variable {c : Client} {P : Link → Prop} (h : c.Preserves P)
include h

theorem Preserves.after_get (key : ContentAddress) {link : Link} (hLink : P link) :
    P (c.get key link).2 := by
  have hSent := h.get key link hLink
  rw [Client.get]
  split
  · next hSend =>
    rw [hSend] at hSent
    exact hSent
  · next hSend =>
    rw [hSend] at hSent
    split
    · exact h.report _ _ hSent
    · exact hSent

theorem Preserves.after_put (key : ContentAddress) (value : Bytes) {link : Link}
    (hLink : P link) : P (c.put key value link).2 := by
  have hSent := h.set key value link hLink
  rw [Client.put]
  rcases hSend : link.send (.set (c.key key) value) with ⟨reply, sent⟩
  rw [hSend] at hSent
  dsimp only
  split
  · exact h.report _ _ hSent
  · exact hSent

theorem Preserves.after_putEach (records : List Record) {link : Link} (hLink : P link) :
    P (c.putEach records link).2 := by
  induction records generalizing link with
  | nil => exact hLink
  | cons record rest ih =>
    have hPut := h.after_put record.1 record.2 hLink
    rw [putEach]
    split
    · next hFirst =>
      rw [hFirst] at hPut
      exact ih hPut
    · next hFirst =>
      rw [hFirst] at hPut
      exact hPut

theorem Preserves.after_sendAll (records : List Record) {link : Link} (hLink : P link) :
    P (c.sendAll records link).2 := by
  induction records generalizing link with
  | nil => exact hLink
  | cons record rest ih => exact ih (h.set record.1 record.2 link hLink)

theorem Preserves.after_batchPut (records : List Record) {link : Link} (hLink : P link) :
    P (c.batchPut records link).2 := by
  cases c with
  | plain p => exact h.after_putEach records hLink
  | pipelined p =>
    have hSent := h.after_sendAll records hLink
    rw [batchPut]
    split
    · next hSend =>
      rw [hSend] at hSent
      exact h.report _ _ hSent
    · next hSend =>
      rw [hSend] at hSent
      exact hSent

theorem Preserves.after_perform (call : StorageCall) {link : Link} (hLink : P link) :
    P (c.medium.perform call link).2 := by
  cases call with
  | get key => exact h.after_get key hLink
  | put key value => exact h.after_put key value hLink
  | batchPut records => exact h.after_batchPut records hLink

theorem Preserves.realizes :
    c.medium.Realizes (fun _ link => link.service.faults = [] ∧ P link) c.contents where
  get key _ link hLink := by
    obtain ⟨hFaults, hLink⟩ := hLink
    exact ⟨c.serves.get key link hFaults,
      ⟨c.serves.sound_get key link hFaults, h.after_get key hLink⟩,
      c.serves.contents_get key link hFaults⟩
  put := c.put_eq_batchPut
  batchPut records _ link hLink := by
    obtain ⟨hFaults, hLink⟩ := hLink
    have hAnswer : (c.batchPut records link).1 = .ok () := by
      have hHolds := Holds.mk hFaults rfl
      cases c with
      | plain p => exact (hHolds.putEach (plain p) records).1
      | pipelined p =>
        have hSend : (pipelined p).sendAll records link =
            (none, ((pipelined p).sendAll records link).2) :=
          Prod.ext (hHolds.sendAll (pipelined p) records).1 rfl
        rw [batchPut, hSend]
    exact ⟨hAnswer,
      ⟨c.serves.sound_batchPut records link hFaults hAnswer, h.after_batchPut records hLink⟩,
      c.serves.contents_batchPut records link hFaults hAnswer⟩

end Preserves

theorem preserves_reachable (c : Client) : c.Preserves (·.reachable = true) where
  get _ _ h := h
  set _ _ _ h := h
  report e _ h := by cases e <;> exact h

end Client

end LatentCache
