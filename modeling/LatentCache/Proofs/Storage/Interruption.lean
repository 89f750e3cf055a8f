import LatentCache.Proofs.Storage.Calls

/-!
# Batches that a service interrupts

A service refuses one `SET` of a batch and executes the others that reach it. The plain client stops
there, so the records before it stay. The pipelined client has sent all records by then, and only
the refused one is missing.
-/

namespace LatentCache

namespace Service

theorem takeFault_now (name : String) (reply : Reply) (rest : List Fault) :
    takeFault name (⟨name, 0, reply⟩ :: rest) = (some reply, rest) := by
  rw [takeFault, if_pos rfl]

theorem takeFault_later (name : String) (after : Nat) (reply : Reply) (rest : List Fault) :
    takeFault name (⟨name, after + 1, reply⟩ :: rest) = (none, ⟨name, after, reply⟩ :: rest) := by
  rw [takeFault, if_pos rfl]

end Service

/-- The link after its service received some commands, entered some values and was left with some
faults. -/
def Link.after (link : Link) (received : List Service.Command) (entered : List (String × Bytes))
    (faults : List Service.Fault) : Link :=
  { link with
    service := ⟨link.service.table.insertAll entered, link.service.log ++ received, faults⟩ }

theorem Link.after_after (link : Link) (received later : List Service.Command)
    (entered more : List (String × Bytes)) (faults left : List Service.Fault) :
    (link.after received entered faults).after later more left =
      link.after (received ++ later) (entered ++ more) left := by
  simp [Link.after, Table.insertAll]

section Send

variable {link : Link} (key : String) (value : Bytes)

theorem Link.send_set (h : link.service.faults = []) :
    link.send (.set key value) = (.done, link.after [.set key value] [(key, value)] []) := by
  rw [Link.send, Service.handle, h]
  rfl

theorem Link.send_set_refused {reply : Service.Reply} {rest : List Service.Fault}
    (h : link.service.faults = ⟨"SET", 0, reply⟩ :: rest) :
    link.send (.set key value) = (reply, link.after [.set key value] [] rest) := by
  rw [Link.send, Service.handle, h, Service.Command.name, Service.takeFault_now]
  rfl

theorem Link.send_set_before {j : Nat} {reply : Service.Reply} {rest : List Service.Fault}
    (h : link.service.faults = ⟨"SET", j + 1, reply⟩ :: rest) :
    link.send (.set key value) =
      (.done, link.after [.set key value] [(key, value)] (⟨"SET", j, reply⟩ :: rest)) := by
  rw [Link.send, Service.handle, h, Service.Command.name, Service.takeFault_later]
  rfl

end Send

namespace Client

def entry (c : Client) (record : Record) : String × Bytes := (c.key record.1, record.2)

def setCommand (c : Client) (record : Record) : Service.Command := .set (c.key record.1) record.2

/-- The items of a batch that a client sends to a service that refuses the one at place `j`. -/
def sent {α : Type} (j : Nat) : Client → List α → List α
  | plain _, items => items.take (j + 1)
  | pipelined _, items => items

/-- The items of the batch that the service executes. -/
def kept {α : Type} (j : Nat) : Client → List α → List α
  | plain _, items => items.take j
  | pipelined _, items => items.take j ++ items.drop (j + 1)

section Refused

variable (c : Client) {link : Link} {j : Nat} {code text : String} {records : List Record}

theorem sendAll_of_no_faults (h : link.service.faults = []) :
    c.sendAll records link =
      (none, link.after (records.map c.setCommand) (records.map c.entry) []) := by
  induction records generalizing link with
  | nil =>
    obtain ⟨reachable, ⟨table, log, faults⟩, failures⟩ := link
    cases h
    simp [sendAll, Link.after]
  | cons record rest ih =>
    rw [sendAll, Link.send_set _ _ h]
    dsimp only
    rw [ih, Link.after_after]
    · rfl
    · rfl

theorem putEach_refused (hFaults : link.service.faults = [⟨"SET", j, .refused code text⟩])
    (hj : j < records.length) :
    c.putEach records link = (.error (.backend (refusalText code text)),
      link.after ((records.take (j + 1)).map c.setCommand) ((records.take j).map c.entry) []) := by
  induction records generalizing j link with
  | nil => cases hj
  | cons record rest ih =>
    cases j with
    | zero =>
      rw [putEach, put, Link.send_set_refused _ _ hFaults]
      rfl
    | succ j =>
      have hPut : c.put record.1 record.2 link =
          (.ok (), link.after [c.setCommand record] [c.entry record]
            [⟨"SET", j, .refused code text⟩]) := by
        rw [put, Link.send_set_before _ _ hFaults]
        rfl
      rw [putEach, hPut]
      dsimp only
      rw [ih _ (Nat.lt_of_succ_lt_succ hj), Link.after_after]
      · rfl
      · rfl

theorem sendAll_refused (hFaults : link.service.faults = [⟨"SET", j, .refused code text⟩])
    (hj : j < records.length) :
    c.sendAll records link = (some (.backend (refusalText code text)),
      link.after (records.map c.setCommand)
        ((records.take j ++ records.drop (j + 1)).map c.entry) []) := by
  induction records generalizing j link with
  | nil => cases hj
  | cons record rest ih =>
    cases j with
    | zero =>
      rw [sendAll, Link.send_set_refused _ _ hFaults]
      dsimp only
      rw [sendAll_of_no_faults, Link.after_after]
      · rfl
      · rfl
    | succ j =>
      rw [sendAll, Link.send_set_before _ _ hFaults]
      dsimp only
      rw [ih _ (Nat.lt_of_succ_lt_succ hj), Link.after_after]
      · rfl
      · rfl

theorem batchPut_refused (hFaults : link.service.faults = [⟨"SET", j, .refused code text⟩])
    (hj : j < records.length) :
    c.batchPut records link = (.error (.backend (refusalText code text)),
      link.after ((c.sent j records).map c.setCommand) ((c.kept j records).map c.entry) []) := by
  cases c with
  | plain p => exact (plain p).putEach_refused hFaults hj
  | pipelined p =>
    rw [batchPut, (pipelined p).sendAll_refused hFaults hj]
    rfl

end Refused

/-! ## What is kept -/

theorem mem_kept_range' (c : Client) {i j n : Nat} (hi : i < j) (hj : j < n) :
    i ∈ c.kept j (List.range' 0 n) := by
  have hBefore : i ∈ (List.range' 0 n).take j := by
    rw [← List.range_eq_range', List.take_range, List.mem_range]
    omega
  cases c with
  | plain p => exact hBefore
  | pipelined p => exact List.mem_append_left _ hBefore

theorem notMem_kept_range' (c : Client) (j n : Nat) : j ∉ c.kept j (List.range' 0 n) := by
  have hBefore : j ∉ (List.range' 0 n).take j := by
    rw [← List.range_eq_range', List.take_range, List.mem_range]
    omega
  cases c with
  | plain p => exact hBefore
  | pipelined p =>
    intro hMem
    rcases List.mem_append.mp hMem with hMem | hAfter
    · exact hBefore hMem
    · rw [List.drop_range', List.mem_range'_1] at hAfter
      omega

theorem forall₂_kept {α β : Type} {R : α → β → Prop} {xs : List α} {ys : List β}
    (h : List.Forall₂ R xs ys) (c : Client) (j : Nat) :
    List.Forall₂ R (c.kept j xs) (c.kept j ys) := by
  cases c with
  | plain p => exact List.forall₂_take j h
  | pipelined p =>
    exact List.rel_append (List.forall₂_take j h) (List.forall₂_drop (j + 1) h)

theorem contents_after (c : Client) (link : Link) (received : List Service.Command)
    (records : List Record) (faults : List Service.Fault) :
    c.contents (link.after received (records.map c.entry) faults) =
      overwrite (c.contents link) records :=
  link.service.table.get?_insertAll_key (fun _ _ => c.key_injective) records

end Client

end LatentCache
