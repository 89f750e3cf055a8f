import LatentCache.Proofs.Storage.Calls

/-!
# Namespaces on a service

Clients with different prefixes never meet on a service, since all hexadecimal addresses have the
same length. Whatever others do, the clients with one prefix get the answers of one shared map.
-/

namespace LatentCache

/-- What is stored under a prefix. -/
def Link.under (link : Link) (keyPrefix : String) : Contents := fun key =>
  link.service.table.get? (keyPrefix ++ key.toHex)

/-- A call through a client, with the faults that strike the service during the call. -/
structure ServiceCall where
  client : Client
  call : StorageCall
  faults : List Service.Fault

namespace ServiceCall

def keyPrefix (c : ServiceCall) : String := c.client.keyPrefix

def perform (c : ServiceCall) (link : Link) : Except StorageError StorageAnswer × Link :=
  c.client.medium.perform c.call { link with service := { link.service with faults := c.faults } }

/-- Calls with their answers, made one after another, also after failures. -/
def run : List ServiceCall → Link → List (ServiceCall × Except StorageError StorageAnswer)
  | [], _ => []
  | c :: rest, link => (c, (c.perform link).1) :: run rest (c.perform link).2

end ServiceCall

/-! ## Other prefixes -/

theorem Client.keyPrefix_eq_of_key {c : Client} {keyPrefix : String} {a b : ContentAddress}
    (h : c.key a = keyPrefix ++ b.toHex) : c.keyPrefix = keyPrefix := by
  have hChars := congrArg String.toList h
  rw [key, String.toList_append, String.toList_append] at hChars
  have hLength : a.toHex.toList.length = b.toHex.toList.length := by
    rw [a.length_toList_toHex, b.length_toList_toHex]
  exact String.toList_injective (List.append_inj_left' hChars hLength)

theorem Link.table_send_get (link : Link) (key : String) :
    (link.send (.get key)).2.service.table = link.service.table := by
  rw [send, Service.handle]
  rcases Service.takeFault (Service.Command.get key).name link.service.faults with
    ⟨_ | reply, faults⟩ <;> rfl

theorem Link.table_send_set (link : Link) (key : String) (value : Bytes) :
    (link.send (.set key value)).2.service.table = link.service.table ∨
      (link.send (.set key value)).2.service.table = link.service.table.insert key value := by
  rw [send, Service.handle]
  rcases Service.takeFault (Service.Command.set key value).name link.service.faults with
    ⟨_ | reply, faults⟩
  · exact .inr rfl
  · exact .inl rfl

theorem Client.preserves_under {c : Client} {keyPrefix : String} (h : c.keyPrefix ≠ keyPrefix)
    (f : Contents) : c.Preserves (·.under keyPrefix = f) where
  get key link hLink := by
    funext a
    rw [Link.under, link.table_send_get, ← hLink]
    rfl
  set key value link hLink := by
    funext a
    rw [Link.under, ← hLink]
    rcases link.table_send_set (c.key key) value with hSame | hInsert
    · rw [hSame]
      rfl
    · rw [hInsert, Table.get?_insert, if_neg]
      · rfl
      · intro hKey
        exact h (keyPrefix_eq_of_key hKey)
  report e _ hLink := by cases e <;> exact hLink

theorem ServiceCall.under_perform {c : ServiceCall} {keyPrefix : String}
    (h : c.keyPrefix ≠ keyPrefix) (link : Link) :
    (c.perform link).2.under keyPrefix = link.under keyPrefix :=
  (Client.preserves_under h _).after_perform c.call rfl

/-! ## The same prefix -/

namespace Client

/-- Two services behave alike for a client: they have the same faults and the same contents. -/
structure Agree (c : Client) (l l' : Link) : Prop where
  faults : l.service.faults = l'.service.faults
  contents : c.contents l = c.contents l'

section Agree

variable {c : Client} {l l' : Link} (h : c.Agree l l')
include h

theorem Agree.report (e : StorageError) : c.Agree (l.report e) (l'.report e) := by
  cases e <;> exact ⟨h.faults, h.contents⟩

theorem Agree.send_get (key : ContentAddress) :
    (l.send (.get (c.key key))).1 = (l'.send (.get (c.key key))).1 ∧
      c.Agree (l.send (.get (c.key key))).2 (l'.send (.get (c.key key))).2 := by
  rw [Link.send, Link.send, Service.handle, Service.handle, h.faults]
  rcases Service.takeFault (Service.Command.get (c.key key)).name l'.service.faults with
    ⟨_ | reply, faults⟩
  · exact ⟨congrArg Service.Reply.value (congrFun h.contents key), rfl, h.contents⟩
  · exact ⟨rfl, rfl, h.contents⟩

theorem Agree.send_set (key : ContentAddress) (value : Bytes) :
    (l.send (.set (c.key key) value)).1 = (l'.send (.set (c.key key) value)).1 ∧
      c.Agree (l.send (.set (c.key key) value)).2 (l'.send (.set (c.key key) value)).2 := by
  rw [Link.send, Link.send, Service.handle, Service.handle, h.faults]
  rcases Service.takeFault (Service.Command.set (c.key key) value).name l'.service.faults with
    ⟨_ | reply, faults⟩
  · refine ⟨rfl, rfl, funext fun a => ?_⟩
    change (l.service.table.insert _ _).get? _ = (l'.service.table.insert _ _).get? _
    rw [Table.get?_insert, Table.get?_insert]
    exact congrArg (ite _ _) (congrFun h.contents a)
  · exact ⟨rfl, rfl, h.contents⟩

theorem Agree.get (key : ContentAddress) :
    (c.get key l).1 = (c.get key l').1 ∧ c.Agree (c.get key l).2 (c.get key l').2 := by
  obtain ⟨hReply, hNext⟩ := h.send_get key
  rcases hm : l.send (.get (c.key key)) with ⟨reply, s⟩
  rcases hn : l'.send (.get (c.key key)) with ⟨reply', s'⟩
  rw [hm, hn] at hReply hNext
  cases hReply
  rw [Client.get, Client.get, hm, hn]
  cases reply with
  | value found => exact ⟨rfl, hNext⟩
  | done => exact ⟨rfl, hNext⟩
  | refused code text => exact ⟨rfl, hNext.report (.backend (refusalText code text))⟩
  | closed => exact ⟨rfl, hNext.report (.transient c.closedText)⟩

theorem Agree.put (key : ContentAddress) (value : Bytes) :
    (c.put key value l).1 = (c.put key value l').1 ∧
      c.Agree (c.put key value l).2 (c.put key value l').2 := by
  obtain ⟨hReply, hNext⟩ := h.send_set key value
  rcases hm : l.send (.set (c.key key) value) with ⟨reply, s⟩
  rcases hn : l'.send (.set (c.key key) value) with ⟨reply', s'⟩
  rw [hm, hn] at hReply hNext
  cases hReply
  rw [Client.put, Client.put, hm, hn]
  dsimp only
  cases c.failure? reply with
  | none => exact ⟨rfl, hNext⟩
  | some e => exact ⟨rfl, hNext.report e⟩

theorem Agree.putEach (records : List Record) :
    (c.putEach records l).1 = (c.putEach records l').1 ∧
      c.Agree (c.putEach records l).2 (c.putEach records l').2 := by
  induction records generalizing l l' with
  | nil => exact ⟨rfl, h⟩
  | cons record rest ih =>
    obtain ⟨hAnswer, hNext⟩ := h.put record.1 record.2
    rcases hm : c.put record.1 record.2 l with ⟨e | done, s⟩ <;>
      rcases hn : c.put record.1 record.2 l' with ⟨e' | done', s'⟩ <;>
      rw [hm, hn] at hAnswer hNext <;> cases hAnswer <;>
      rw [Client.putEach, Client.putEach, hm, hn]
    · exact ⟨rfl, hNext⟩
    · exact ih hNext

theorem Agree.sendAll (records : List Record) :
    (c.sendAll records l).1 = (c.sendAll records l').1 ∧
      c.Agree (c.sendAll records l).2 (c.sendAll records l').2 := by
  induction records generalizing l l' with
  | nil => exact ⟨rfl, h⟩
  | cons record rest ih =>
    obtain ⟨hReply, hNext⟩ := h.send_set record.1 record.2
    obtain ⟨hLater, hLast⟩ := ih hNext
    exact ⟨congrArg₂ (fun reply later? => (c.failure? reply).or later?) hReply hLater, hLast⟩

theorem Agree.batchPut (records : List Record) :
    (c.batchPut records l).1 = (c.batchPut records l').1 ∧
      c.Agree (c.batchPut records l).2 (c.batchPut records l').2 := by
  cases c with
  | plain p => exact h.putEach records
  | pipelined p =>
    obtain ⟨hFailure, hNext⟩ := h.sendAll records
    rcases hm : (pipelined p).sendAll records l with ⟨_ | e, s⟩ <;>
      rcases hn : (pipelined p).sendAll records l' with ⟨_ | e', s'⟩ <;>
      rw [hm, hn] at hFailure hNext <;> cases hFailure <;>
      rw [Client.batchPut, Client.batchPut, hm, hn]
    · exact ⟨rfl, hNext⟩
    · exact ⟨rfl, hNext.report e⟩

theorem Agree.perform (call : StorageCall) :
    (c.medium.perform call l).1 = (c.medium.perform call l').1 ∧
      c.Agree (c.medium.perform call l).2 (c.medium.perform call l').2 := by
  cases call with
  | get key =>
    obtain ⟨hAnswer, hNext⟩ := h.get key
    exact ⟨congrArg (Except.map StorageAnswer.found) hAnswer, hNext⟩
  | put key value =>
    obtain ⟨hAnswer, hNext⟩ := h.put key value
    exact ⟨congrArg (Except.map fun _ => StorageAnswer.done) hAnswer, hNext⟩
  | batchPut records =>
    obtain ⟨hAnswer, hNext⟩ := h.batchPut records
    exact ⟨congrArg (Except.map fun _ => StorageAnswer.done) hAnswer, hNext⟩

end Agree

theorem preserves_true (c : Client) : c.Preserves fun _ => True :=
  ⟨fun _ _ _ => trivial, fun _ _ _ _ => trivial, fun _ _ _ => trivial⟩

end Client

namespace ServiceCall

theorem perform_under (c : ServiceCall) {l l' : Link}
    (h : l.under c.keyPrefix = l'.under c.keyPrefix) :
    (c.perform l).1 = (c.perform l').1 ∧
      (c.perform l).2.under c.keyPrefix = (c.perform l').2.under c.keyPrefix := by
  have hAgree : c.client.Agree { l with service := { l.service with faults := c.faults } }
      { l' with service := { l'.service with faults := c.faults } } := ⟨rfl, h⟩
  obtain ⟨hAnswer, hNext⟩ := hAgree.perform c.call
  exact ⟨hAnswer, hNext.contents⟩

theorem perform_of_no_faults {c : ServiceCall} (hFaults : c.faults = []) (link : Link) :
    (c.perform link).1 = .ok ((link.under c.keyPrefix).perform c.call).1 ∧
      (c.perform link).2.under c.keyPrefix = ((link.under c.keyPrefix).perform c.call).2 := by
  obtain ⟨hAnswer, -, hContents⟩ := c.client.preserves_true.realizes.perform c.call []
    (s := { link with service := { link.service with faults := c.faults } }) ⟨hFaults, trivial⟩
  exact ⟨hAnswer, hContents⟩

/-! ## Runs -/

/-- The answers to the calls with one prefix are those of a run of these calls alone. -/
theorem filter_run (keyPrefix : String) (calls : List ServiceCall) {l l' : Link}
    (h : l.under keyPrefix = l'.under keyPrefix) :
    (run calls l).filter (·.1.keyPrefix = keyPrefix) =
      run (calls.filter (·.keyPrefix = keyPrefix)) l' := by
  induction calls generalizing l l' with
  | nil => rfl
  | cons c rest ih =>
    by_cases hSame : c.keyPrefix = keyPrefix
    · obtain ⟨hAnswer, hNext⟩ := c.perform_under (hSame ▸ h)
      rw [hSame] at hNext
      rw [List.filter_cons_of_pos (by simpa using hSame), run, run,
        List.filter_cons_of_pos (by simpa using hSame), hAnswer, ih hNext]
    · rw [List.filter_cons_of_neg (by simpa using hSame), run,
        List.filter_cons_of_neg (by simpa using hSame)]
      exact ih ((under_perform hSame l).trans h)

theorem run_answers {keyPrefix : String} {calls : List ServiceCall}
    (hCalls : ∀ c ∈ calls, c.keyPrefix = keyPrefix ∧ c.faults = []) (link : Link) :
    (run calls link).map (·.2) =
      ((link.under keyPrefix).answers (calls.map (·.call))).map .ok := by
  induction calls generalizing link with
  | nil => rfl
  | cons c rest ih =>
    obtain ⟨rfl, hFaults⟩ := hCalls c List.mem_cons_self
    obtain ⟨hAnswer, hContents⟩ := perform_of_no_faults hFaults link
    have hRest := ih (fun d hd => hCalls d (List.mem_cons_of_mem _ hd)) (c.perform link).2
    rw [hContents] at hRest
    exact congrArg₂ List.cons hAnswer hRest

/-- Two prefixes, even one that starts with the other, are namespaces of their own: the calls under
one of them get the same answers when those under the other are left out. Without faults they get
the answers of one map, whichever clients make them. -/
theorem namespaces_isolated {p q : String} (hNe : p ≠ q) (calls : List ServiceCall)
    (link : Link) :
    (run calls link).filter (·.1.keyPrefix = p) =
        (run (calls.filter (·.keyPrefix ≠ q)) link).filter (·.1.keyPrefix = p) ∧
      ((∀ c ∈ calls, c.keyPrefix = p → c.faults = []) →
        ((run calls link).filter (·.1.keyPrefix = p)).map (·.2) =
          ((link.under p).answers ((calls.filter (·.keyPrefix = p)).map (·.call))).map .ok) := by
  constructor
  · have hKept : (calls.filter (·.keyPrefix ≠ q)).filter (·.keyPrefix = p) =
        calls.filter (·.keyPrefix = p) := by
      rw [List.filter_filter]
      refine List.filter_congr fun c _ => ?_
      by_cases hSame : c.keyPrefix = p
      · simp [hSame, hNe]
      · simp [hSame]
    rw [filter_run p calls rfl, filter_run p _ rfl, hKept]
  · intro hFaults
    rw [filter_run p calls rfl]
    refine run_answers (fun c hc => ?_) link
    obtain ⟨hMem, hSame⟩ := List.mem_filter.mp hc
    have hSame := of_decide_eq_true hSame
    exact ⟨hSame, hFaults c hMem hSame⟩

theorem shorter_prefix_isolated :
    let calls : List ServiceCall :=
      [⟨.plain "", .put ⟨List.replicate 32 0, rfl⟩ [1], []⟩,
        ⟨.pipelined "0", .batchPut [(⟨List.replicate 32 0, rfl⟩, [2])], []⟩,
        ⟨.plain "0", .put ⟨List.replicate 32 0, rfl⟩ [3], [⟨"SET", 0, .refused "ERR" "no"⟩]⟩,
        ⟨.pipelined "", .get ⟨List.replicate 32 0, rfl⟩, []⟩]
    ((run calls ⟨true, .empty, []⟩).filter (·.1.keyPrefix = "")).map (·.2) =
      [.ok .done, .ok (.found (some [1]))] := by
  intro calls
  refine ((namespaces_isolated (q := "0") (by decide) calls _).2 ?_).trans ?_
  · decide
  · decide +kernel

end ServiceCall

end LatentCache
