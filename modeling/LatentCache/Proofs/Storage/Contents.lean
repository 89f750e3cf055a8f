import LatentCache.Storage.Client
import LatentCache.Storage.Mapped
import LatentCache.Storage.Medium
import LatentCache.Storage.Watch
import Mathlib.Data.List.Forall2
import Mathlib.Logic.Function.Basic

/-!
# Contents of storage media

What a medium keeps is a partial function of addresses. A medium serves its contents if it answers
every `get` from them and enters the records of a successful batch in order.
-/

namespace LatentCache

section Overwrite

variable {κ ι α β : Type} [DecidableEq κ] [DecidableEq ι]

/-- A partial function with new values under some keys, the last one for each key. -/
def overwrite (f : κ → Option α) (entries : List (κ × α)) : κ → Option α :=
  entries.foldl (fun f entry => Function.update f entry.1 (some entry.2)) f

theorem overwrite_cons (f : κ → Option α) (entry : κ × α) (rest : List (κ × α)) :
    overwrite f (entry :: rest) = overwrite (Function.update f entry.1 (some entry.2)) rest := rfl

theorem overwrite_of_ne {f : κ → Option α} {entries : List (κ × α)} {key : κ}
    (h : ∀ entry ∈ entries, entry.1 ≠ key) : overwrite f entries key = f key := by
  induction entries generalizing f with
  | nil => rfl
  | cons entry rest ih =>
    rw [overwrite_cons, ih fun e he => h e (List.mem_cons_of_mem _ he)]
    exact Function.update_of_ne (h entry List.mem_cons_self).symm _ _

theorem overwrite_of_mem {f : κ → Option α} {entries : List (κ × α)} {key : κ} {value : α}
    (hMem : (key, value) ∈ entries) (h : ∀ entry ∈ entries, entry.1 = key → entry.2 = value) :
    overwrite f entries key = some value := by
  induction entries generalizing f with
  | nil => cases hMem
  | cons entry rest ih =>
    have hRest : ∀ e ∈ rest, e.1 = key → e.2 = value := fun e he =>
      h e (List.mem_cons_of_mem _ he)
    rw [overwrite_cons]
    by_cases hLater : (key, value) ∈ rest
    · exact ih hLater hRest
    · obtain rfl : (key, value) = entry := (List.mem_cons.mp hMem).resolve_right hLater
      rw [overwrite_of_ne, Function.update_self]
      -- A later entry under the key would be the same one.
      rintro ⟨k, v⟩ he rfl
      obtain rfl := hRest _ he rfl
      exact hLater he

/-- Values that are related under some keys are so after related entries were made under these
keys. -/
theorem overwrite_related {R : Option α → Option β → Prop} (key : ι → κ) (keys : ι → Prop)
    (hKey : ∀ p q, keys p → keys q → key p = key q → p = q) {entries : List (κ × α)}
    {others : List (ι × β)} (hEntries : List.Forall₂ (fun e o =>
      e.1 = key o.1 ∧ keys o.1 ∧ R (some e.2) (some o.2)) entries others)
    {f : κ → Option α} {g : ι → Option β} (h : ∀ p, keys p → R (f (key p)) (g p)) :
    ∀ p, keys p → R (overwrite f entries (key p)) (overwrite g others p) := by
  induction hEntries generalizing f g with
  | nil => exact h
  | @cons entry other _ _ hHead _ ih =>
    obtain ⟨hEq, hIn, hValue⟩ := hHead
    refine ih fun p hp => ?_
    change R (Function.update f entry.1 _ (key p)) (Function.update g other.1 _ p)
    by_cases hSame : p = other.1
    · rw [hSame, hEq, Function.update_self, Function.update_self]
      exact hValue
    · rw [hEq, Function.update_of_ne hSame, Function.update_of_ne]
      · exact h p hp
      · exact fun hAddress => hSame (hKey p _ hp hIn hAddress)

end Overwrite

theorem Table.get?_insertAll {κ : Type} [DecidableEq κ] (t : Table κ)
    (entries : List (κ × Bytes)) : (t.insertAll entries).get? = overwrite t.get? entries := by
  induction entries generalizing t with
  | nil => rfl
  | cons entry rest ih =>
    have hEntry : (t.insert entry.1 entry.2).get? =
        Function.update t.get? entry.1 (some entry.2) := by
      funext key
      rw [get?_insert, Function.update_apply]
      by_cases hKey : entry.1 = key
      · rw [if_pos hKey, if_pos hKey.symm]
      · rw [if_neg hKey, if_neg (Ne.symm hKey)]
    rw [insertAll_cons, ih, hEntry, overwrite_cons]

theorem Table.insertAll_append {κ : Type} [DecidableEq κ] (t : Table κ)
    (entries others : List (κ × Bytes)) :
    t.insertAll (entries ++ others) = (t.insertAll entries).insertAll others :=
  List.foldl_append

theorem Table.get?_insert_insert {κ : Type} [DecidableEq κ] (t : Table κ) {first second : κ}
    (hNe : second ≠ first) (x y : Bytes) :
    ((t.insert first x).insert second y).get? first = some x ∧
      ((t.insert first x).insert second y).get? second = some y := by
  constructor
  · rw [get?_insert, if_neg hNe, get?_insert, if_pos rfl]
  · rw [get?_insert, if_pos rfl]

/-! ## Media -/

namespace Medium

variable {σ : Type}

/-- While its state is sound, a medium answers every `get` from its contents and keeps them. -/
structure Readable (m : Medium σ) (sound : σ → Prop)
    (contents : σ → ContentAddress → Option Bytes) : Prop where
  get : ∀ key s, sound s → (m.get key s).1 = .ok (contents s key)
  sound_get : ∀ key s, sound s → sound (m.get key s).2
  contents_get : ∀ key s, sound s → contents (m.get key s).2 = contents s

/-- A readable medium that keeps the records of every batch it accepts. -/
structure Serves (m : Medium σ) (sound : σ → Prop)
    (contents : σ → ContentAddress → Option Bytes) : Prop extends m.Readable sound contents where
  sound_batchPut : ∀ records s, sound s → (m.batchPut records s).1 = .ok () →
    sound (m.batchPut records s).2
  contents_batchPut : ∀ records s, sound s → (m.batchPut records s).1 = .ok () →
    contents (m.batchPut records s).2 = overwrite (contents s) records

def afterGets (m : Medium σ) (keys : List ContentAddress) (s : σ) : σ :=
  keys.foldl (fun s key => (m.get key s).2) s

theorem Readable.sound_afterGets {m : Medium σ} {sound : σ → Prop}
    {contents : σ → ContentAddress → Option Bytes} (h : m.Readable sound contents)
    (keys : List ContentAddress) {s : σ} (hs : sound s) :
    sound (m.afterGets keys s) ∧ contents (m.afterGets keys s) = contents s := by
  induction keys generalizing s with
  | nil => exact ⟨hs, rfl⟩
  | cons key keys ih =>
    obtain ⟨hSound, hContents⟩ := ih (h.sound_get key s hs)
    exact ⟨hSound, hContents.trans (h.contents_get key s hs)⟩

/-- A part of a larger state that takes what is written to it serves there as it does alone. -/
theorem Serves.within {τ : Type} {m : Medium σ} {sound : σ → Prop}
    {contents : σ → ContentAddress → Option Bytes} (h : m.Serves sound contents) (part : τ → σ)
    (replace : σ → τ → τ) (present : τ → Prop)
    (hPart : ∀ s t, present t → part (replace s t) = s)
    (hPresent : ∀ s t, present t → present (replace s t)) :
    (m.within part replace).Serves (fun t => present t ∧ sound (part t))
      (fun t => contents (part t)) where
  get key t ht := h.get key (part t) ht.2
  sound_get key t ht := by
    refine ⟨hPresent _ t ht.1, ?_⟩
    change sound (part (replace _ t))
    rw [hPart _ t ht.1]
    exact h.sound_get key (part t) ht.2
  contents_get key t ht := by
    change contents (part (replace _ t)) = _
    rw [hPart _ t ht.1]
    exact h.contents_get key (part t) ht.2
  sound_batchPut records t ht hAccepted := by
    refine ⟨hPresent _ t ht.1, ?_⟩
    change sound (part (replace _ t))
    rw [hPart _ t ht.1]
    exact h.sound_batchPut records (part t) ht.2 hAccepted
  contents_batchPut records t ht hAccepted := by
    change contents (part (replace _ t)) = _
    rw [hPart _ t ht.1]
    exact h.contents_batchPut records (part t) ht.2 hAccepted

end Medium

theorem Memory.serves : Memory.medium.Serves (fun _ => True) Table.get? where
  get _ _ _ := rfl
  sound_get _ _ _ := trivial
  contents_get _ _ _ := rfl
  sound_batchPut _ _ _ _ := trivial
  contents_batchPut records t _ _ := t.get?_insertAll records

theorem Table.get?_insertAll_key {key : ContentAddress → String}
    (hKey : ∀ a b, key a = key b → a = b) (t : Table String) (records : List Record) :
    (fun a => (t.insertAll (records.map fun r => (key r.1, r.2))).get? (key a)) =
      overwrite (fun a => t.get? (key a)) records := by
  funext a
  rw [get?_insertAll]
  refine overwrite_related (R := Eq) key (fun _ => True) (fun p q _ _ => hKey p q) ?_
    (fun _ _ => rfl) a trivial
  rw [List.forall₂_map_left_iff, List.forall₂_same]
  exact fun r _ => ⟨rfl, trivial, rfl⟩

namespace MappedEnvironment

def contents (env : MappedEnvironment) (key : ContentAddress) : Option Bytes :=
  env.database.get? key.toHex

theorem contents_commit {env : MappedEnvironment} {records : List Record}
    (h : (env.commit records).1 = .ok ()) :
    (env.commit records).2.contents = overwrite env.contents records := by
  unfold commit at h ⊢
  split
  · next hEmpty =>
    rw [List.isEmpty_iff.mp hEmpty]
    rfl
  · split
    · next hEntries _ hFull =>
      rw [if_neg hEntries, hFull] at h
      cases h
    · exact env.database.get?_insertAll_key (fun _ _ => ContentAddress.toHex_injective) records

theorem serves : medium.Serves (fun _ => True) contents where
  get _ _ _ := rfl
  sound_get _ _ _ := trivial
  contents_get _ _ _ := rfl
  sound_batchPut _ _ _ _ := trivial
  contents_batchPut _ _ _ h := contents_commit h

end MappedEnvironment

namespace Client

def contents (c : Client) (link : Link) (key : ContentAddress) : Option Bytes :=
  link.service.table.get? (c.key key)

theorem key_injective (c : Client) {a b : ContentAddress} (h : c.key a = c.key b) : a = b := by
  have hChars := congrArg String.toList h
  rw [key, key, String.toList_append, String.toList_append] at hChars
  exact ContentAddress.toHex_injective (String.toList_injective (List.append_cancel_left hChars))

/-- A service without faults has the given table behind a link. -/
structure Holds (link : Link) (table : Table String) : Prop where
  faults : link.service.faults = []
  table : link.service.table = table

theorem Holds.send {link : Link} {table : Table String} (h : Holds link table)
    (command : Service.Command) :
    (link.send command).1 = (link.service.execute command).1 ∧
      Holds (link.send command).2 (link.service.execute command).2.table := by
  have hHandle : link.service.handle command =
      { link.service with log := link.service.log ++ [command] }.execute command := by
    rw [Service.handle, h.faults]
    simp only [Service.takeFault, ← h.faults]
  rw [Link.send, hHandle]
  cases command <;> exact ⟨rfl, h.faults, rfl⟩

theorem Holds.get {link : Link} {table : Table String} (h : Holds link table) (c : Client)
    (address : ContentAddress) :
    (c.get address link).1 = .ok (table.get? (c.key address)) ∧
      Holds (c.get address link).2 table := by
  obtain ⟨hReply, hHolds⟩ := h.send (.get (c.key address))
  change _ = Service.Reply.value (link.service.table.get? _) at hReply
  rw [h.table] at hReply
  have hSend : link.send (.get (c.key address)) =
      (.value (table.get? (c.key address)), (link.send (.get (c.key address))).2) :=
    Prod.ext hReply rfl
  rw [Client.get, hSend]
  exact ⟨rfl, hHolds.faults, hHolds.table.trans h.table⟩

theorem Holds.put {link : Link} {table : Table String} (h : Holds link table) (c : Client)
    (address : ContentAddress) (value : Bytes) :
    (c.put address value link).1 = .ok () ∧
      Holds (c.put address value link).2 (table.insert (c.key address) value) := by
  obtain ⟨hReply, hHolds⟩ := h.send (.set (c.key address) value)
  have hSend : link.send (.set (c.key address) value) =
      (.done, (link.send (.set (c.key address) value)).2) := Prod.ext hReply rfl
  rw [Client.put, hSend]
  exact ⟨rfl, hHolds.faults, hHolds.table.trans (by rw [← h.table]; rfl)⟩

theorem Holds.putEach {link : Link} {table : Table String} (h : Holds link table) (c : Client)
    (records : List Record) :
    (c.putEach records link).1 = .ok () ∧
      Holds (c.putEach records link).2
        (table.insertAll (records.map fun r => (c.key r.1, r.2))) := by
  induction records generalizing link table with
  | nil => exact ⟨rfl, h⟩
  | cons record rest ih =>
    obtain ⟨hAnswer, hHolds⟩ := h.put c record.1 record.2
    have hPut : c.put record.1 record.2 link = (.ok (), (c.put record.1 record.2 link).2) :=
      Prod.ext hAnswer rfl
    rw [Client.putEach, hPut]
    exact ih hHolds

theorem Holds.sendAll {link : Link} {table : Table String} (h : Holds link table) (c : Client)
    (records : List Record) :
    (c.sendAll records link).1 = none ∧
      Holds (c.sendAll records link).2
        (table.insertAll (records.map fun r => (c.key r.1, r.2))) := by
  induction records generalizing link table with
  | nil => exact ⟨rfl, h⟩
  | cons record rest ih =>
    obtain ⟨hReply, hHolds⟩ := h.send (.set (c.key record.1) record.2)
    have hTable : Holds (link.send (.set (c.key record.1) record.2)).2
        (table.insert (c.key record.1) record.2) :=
      ⟨hHolds.faults, hHolds.table.trans (by rw [← h.table]; rfl)⟩
    obtain ⟨hLater, hRest⟩ := ih hTable
    refine ⟨?_, hRest⟩
    change (c.failure? (link.send (.set (c.key record.1) record.2)).1).or
      (c.sendAll rest (link.send (.set (c.key record.1) record.2)).2).1 = none
    rw [hReply, hLater]
    rfl

theorem Holds.batchPut {link : Link} {table : Table String} (h : Holds link table) (c : Client)
    (records : List Record) :
    Holds (c.batchPut records link).2
      (table.insertAll (records.map fun r => (c.key r.1, r.2))) := by
  cases c with
  | plain p => exact (h.putEach (plain p) records).2
  | pipelined p =>
    obtain ⟨hNone, hHolds⟩ := h.sendAll (pipelined p) records
    have hSend : (pipelined p).sendAll records link =
        (none, ((pipelined p).sendAll records link).2) := Prod.ext hNone rfl
    rw [Client.batchPut, hSend]
    exact hHolds

theorem serves (c : Client) : c.medium.Serves (·.service.faults = []) c.contents where
  get key _ h := ((Holds.mk h rfl).get c key).1
  sound_get key _ h := ((Holds.mk h rfl).get c key).2.faults
  contents_get key link h := by
    funext a
    exact congrArg (Table.get? · (c.key a)) ((Holds.mk h rfl).get c key).2.table
  sound_batchPut records _ h _ := ((Holds.mk h rfl).batchPut c records).faults
  contents_batchPut records link h _ := by
    have hTable := ((Holds.mk h rfl).batchPut c records).table
    refine Eq.trans ?_
      (link.service.table.get?_insertAll_key (fun _ _ => c.key_injective) records)
    funext a
    exact congrArg (Table.get? · (c.key a)) hTable

end Client

/-! ## Watched media -/

/-- No planned fault will fail a `get`. -/
def Watch.LetsGet (w : Watch) : Prop := ∀ fault ∈ w.faults, fault.kind ≠ .get

theorem Watch.takeFault_of_ne {kind : CallKind} {faults : List PlannedFault}
    (h : ∀ fault ∈ faults, fault.kind ≠ kind) : takeFault kind faults = (none, faults) := by
  induction faults with
  | nil => rfl
  | cons fault rest ih =>
    rw [takeFault, if_neg (h fault List.mem_cons_self),
      ih fun f hf => h f (List.mem_cons_of_mem _ hf)]

theorem Medium.watched_get {σ : Type} (m : Medium σ) {w : Watch} (h : w.LetsGet)
    (key : ContentAddress) (t : σ) :
    m.watched.get key (w, t) =
      ((m.get key t).1, ({ w with calls := w.calls ++ [.get key] }, (m.get key t).2)) := by
  have hNote : w.note (.get key) = (none, { w with calls := w.calls ++ [.get key] }) := by
    rw [Watch.note, Call.kind, Watch.takeFault_of_ne h]
  change Watch.guard (.get key) (m.get key) (w, t) = _
  rw [Watch.guard, hNote]

theorem Medium.Readable.watched {σ : Type} {m : Medium σ} {sound : σ → Prop}
    {contents : σ → ContentAddress → Option Bytes} (h : m.Readable sound contents) :
    m.watched.Readable (fun s => s.1.LetsGet ∧ sound s.2) (fun s => contents s.2) where
  get key s hs := by rw [m.watched_get hs.1]; exact h.get key s.2 hs.2
  sound_get key s hs := by rw [m.watched_get hs.1]; exact ⟨hs.1, h.sound_get key s.2 hs.2⟩
  contents_get key s hs := by rw [m.watched_get hs.1]; exact h.contents_get key s.2 hs.2

theorem Medium.afterGets_watched {σ : Type} (m : Medium σ) {w : Watch} (h : w.LetsGet)
    (keys : List ContentAddress) (t : σ) :
    m.watched.afterGets keys (w, t) =
      ({ w with calls := w.calls ++ keys.map .get }, m.afterGets keys t) := by
  induction keys generalizing w t with
  | nil => simp [afterGets]
  | cons key keys ih =>
    have hRest := ih (w := { w with calls := w.calls ++ [.get key] }) h (m.get key t).2
    rw [afterGets, List.foldl_cons, m.watched_get h]
    simpa [afterGets] using hRest

end LatentCache
