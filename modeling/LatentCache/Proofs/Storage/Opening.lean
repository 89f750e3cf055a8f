import LatentCache.Proofs.Host.Directories
import LatentCache.Proofs.Storage.Calls

/-!
# Storage that is opened again

All backends answer calls as one map does. What a mapped environment or a service holds is still
there when it is opened again; memory is opened once.
-/

namespace LatentCache

/-- Opens storage anew for every list of calls, and makes the calls. Where it cannot be opened, they
all fail. -/
def BackendSettings.serve (s : BackendSettings) :
    List (List StorageCall) → Host → List (Except StorageError StorageAnswer) × Host
  | [], h => ([], h)
  | calls :: rest, h =>
    match s.openIn h with
    | (.error e, h) =>
      let (later, h) := serve s rest h
      (calls.map (fun _ => .error e) ++ later, h)
    | (.ok b, h) =>
      let (answers, h) := b.medium.run calls h
      let (later, h) := serve s rest h
      (answers ++ later, h)

namespace Backend

def contents : Backend → Host → Contents
  | memory index, h => (h.memory index).get?
  | mapped _ location, h => (h.environment location).contents
  | service client, h => client.contents h.link

/-- Whether an opened backend can serve some lists of calls, opened anew for each of them: the pages
of a map suffice, and a service has no faults. Memory serves only one list. -/
def CanServe (sessions : List (List StorageCall)) (h : Host) : Backend → Prop
  | memory _ => sessions.length ≤ 1
  | mapped _ location =>
    (h.environment location).tree.hasRoom (sessions.flatten.flatMap StorageCall.batches) = true
  | service _ => h.link.service.faults = []

end Backend

/-- Storage that is ready for some batches is opened as the same backend, with the same contents. -/
def BackendSettings.Reopens (s : BackendSettings) (b : Backend)
    (ready : List (List Record) → Host → Prop) : Prop :=
  ∀ batches h, ready batches h →
    ∃ h', s.openIn h = (.ok b, h') ∧ ready batches h' ∧ b.contents h' = b.contents h

theorem BackendSettings.serve_opened {s : BackendSettings} {b : Backend}
    {ready : List (List Record) → Host → Prop} (hRealizes : b.medium.Realizes ready b.contents)
    (sessions : List (List StorageCall)) (hReopens : 1 < sessions.length → s.Reopens b ready)
    {h h₀ : Host} (hOpen : s.openIn h = (.ok b, h₀))
    (hReady : ready (sessions.flatten.flatMap StorageCall.batches) h₀) :
    (s.serve sessions h).1 = ((b.contents h₀).answers sessions.flatten).map .ok := by
  induction sessions generalizing h h₀ with
  | nil => rfl
  | cons calls rest ih =>
    rw [List.flatten_cons, List.flatMap_append] at hReady
    obtain ⟨hAnswers, hReady, hContents⟩ := hRealizes.run hReady
    have hServe : (s.serve (calls :: rest) h).1 =
        (b.medium.run calls h₀).1 ++ (s.serve rest (b.medium.run calls h₀).2).1 := by
      rw [serve, hOpen]
    have hLater : (s.serve rest (b.medium.run calls h₀).2).1 =
        (((b.contents h₀).after calls).answers rest.flatten).map .ok := by
      cases rest with
      | nil => rfl
      | cons next others =>
        have hMore := hReopens (by simp)
        obtain ⟨h₁, hAgain, hReady, hSame⟩ := hMore _ _ hReady
        rw [← hContents, ← hSame]
        exact ih (fun _ => hMore) hAgain hReady
    rw [hServe, hAnswers, hLater, List.flatten_cons, Contents.answers_append, List.map_append]

/-! ## Memory -/

namespace Backend

theorem memory_setMemory {index : Nat} {h : Host} (hIndex : index < h.memories.length)
    (t : Memory) : (h.setMemory index t).memory index = t := by
  rw [Host.memory, Host.setMemory, List.getElem?_set_self hIndex]
  rfl

theorem length_memories_setMemory (h : Host) (index : Nat) (t : Memory) :
    (h.setMemory index t).memories.length = h.memories.length := by
  rw [Host.setMemory, List.length_set]

theorem memory_realizes (index : Nat) : (memory index).medium.Realizes
    (fun _ h => index < h.memories.length ∧ True) (memory index).contents := by
  refine Memory.realizes.within (Host.memory · index) (fun t h => h.setMemory index t)
    (fun h => index < h.memories.length) (fun t h hIndex => memory_setMemory hIndex t) ?_
  intro t h hIndex
  rwa [length_memories_setMemory]

theorem memory_serves (index : Nat) : (memory index).medium.Serves
    (fun h => index < h.memories.length ∧ True) (memory index).contents := by
  refine Memory.serves.within (Host.memory · index) (fun t h => h.setMemory index t)
    (fun h => index < h.memories.length) (fun t h hIndex => memory_setMemory hIndex t) ?_
  intro t h hIndex
  rwa [length_memories_setMemory]

/-! ## Memory-mapped environments -/

theorem lookup_map_set {location : Location} {env : MappedEnvironment}
    {environments : List (Location × MappedEnvironment)}
    (h : (environments.lookup location).isSome) :
    (environments.map fun e => if e.1 = location then (location, env) else e).lookup location =
      some env := by
  induction environments with
  | nil => cases h
  | cons entry rest ih =>
    rw [List.map_cons]
    by_cases hHere : entry.1 = location
    · rw [if_pos hHere, List.lookup_cons, beq_self_eq_true]
    · have hOther : (location == entry.1) = false := by simpa using Ne.symm hHere
      rw [List.lookup_cons, hOther] at h
      rw [if_neg hHere, List.lookup_cons, hOther]
      exact ih h

/-- An environment is open in a directory that needs no further preparation. -/
def IsOpen (path : String) (location : Location) (h : Host) : Prop :=
  prepareDirectory path h.files = (.ok location, h.files) ∧
    (h.environments.lookup location).isSome

theorem environment_setEnvironment {path : String} {location : Location} {h : Host}
    (hOpen : IsOpen path location h) (env : MappedEnvironment) :
    (h.setEnvironment location env).environment location = env := by
  rw [Host.environment, Host.setEnvironment, lookup_map_set hOpen.2]
  rfl

theorem IsOpen.setEnvironment {path : String} {location : Location} {h : Host}
    (hOpen : IsOpen path location h) (env : MappedEnvironment) :
    IsOpen path location (h.setEnvironment location env) := by
  refine ⟨hOpen.1, ?_⟩
  rw [Host.setEnvironment, lookup_map_set hOpen.2]
  rfl

theorem mapped_realizes (path : String) (location : Location) (mapSize : Nat) :
    (mapped path location).medium.Realizes
      (fun batches h => IsOpen path location h ∧ (h.environment location).mapSize = mapSize ∧
        (h.environment location).tree.hasRoom batches = true) (mapped path location).contents :=
  (MappedEnvironment.realizes mapSize).within (Host.environment · location)
    (fun env h => h.setEnvironment location env) (IsOpen path location)
    (fun env _ hOpen => environment_setEnvironment hOpen env)
    (fun env _ hOpen => hOpen.setEnvironment env)

theorem mapped_serves (path : String) (location : Location) : (mapped path location).medium.Serves
    (fun h => IsOpen path location h ∧ True) (mapped path location).contents :=
  MappedEnvironment.serves.within (Host.environment · location)
    (fun env h => h.setEnvironment location env) (IsOpen path location)
    (fun env _ hOpen => environment_setEnvironment hOpen env)
    (fun env _ hOpen => hOpen.setEnvironment env)

theorem openRounded_eq_ok {path : String} {mapSize : Nat} {b : Backend} {h h₀ : Host}
    (hOpen : openRounded path mapSize h = (.ok b, h₀)) :
    ∃ location, b = mapped path location ∧ IsOpen path location h₀ ∧
      (h₀.environment location).mapSize = mapSize := by
  rcases hPrepare : prepareDirectory path h.files with ⟨e | location, files⟩ <;>
    rw [openRounded, hPrepare] at hOpen
  · cases hOpen
  · have hAgain := prepareDirectory_again hPrepare
    dsimp only at hOpen
    cases hLookup : h.environments.lookup location with
    | some env =>
      rw [hLookup] at hOpen
      dsimp only at hOpen
      split at hOpen
      · next hSize =>
        cases hOpen
        refine ⟨location, rfl, ⟨hAgain, ?_⟩, ?_⟩
        · rw [hLookup]
          rfl
        · rw [Host.environment, hLookup]
          exact hSize
      · cases hOpen
    | none =>
      rw [hLookup] at hOpen
      cases hObstacle : obstacle? location mapSize files with
      | some reason =>
        rw [hObstacle] at hOpen
        cases hOpen
      | none =>
        rw [hObstacle] at hOpen
        cases hOpen
        have hNew : (h.environments ++ [(location, MappedEnvironment.new mapSize)]).lookup location =
            some (.new mapSize) := by
          rw [List.lookup_append, hLookup, List.lookup_cons, beq_self_eq_true]
          rfl
        refine ⟨location, rfl, ⟨hAgain, ?_⟩, ?_⟩
        · rw [hNew]
          rfl
        · rw [Host.environment, hNew]
          rfl

theorem openRounded_of_isOpen {path : String} {location : Location} {h : Host}
    (hOpen : IsOpen path location h) :
    openRounded path (h.environment location).mapSize h = (.ok (mapped path location), h) := by
  obtain ⟨hPrepare, hSome⟩ := hOpen
  obtain ⟨env, hLookup⟩ := Option.isSome_iff_exists.mp hSome
  rw [openRounded, hPrepare, Host.environment, hLookup]
  dsimp only
  rw [hLookup]
  exact congrArg (·, h) (if_pos rfl)

theorem openMapped_of_rounded {s : MappedSettings} {mapSize : Nat}
    (hRound : roundMapSize s.mapSize = .ok mapSize) (h : Host) :
    openMapped s h = openRounded s.path mapSize h := by
  rw [openMapped, openEnvironment, hRound, openOrEnd]
  rfl

theorem openMapped_eq_ok {s : MappedSettings} {b : Backend} {h h₀ : Host}
    (hOpen : openMapped s h = (.ok b, h₀)) :
    ∃ location, b = mapped s.path location ∧ IsOpen s.path location h₀ ∧
      roundMapSize s.mapSize = .ok (h₀.environment location).mapSize := by
  cases hRound : roundMapSize s.mapSize with
  | ok mapSize =>
    rw [openMapped_of_rounded hRound] at hOpen
    obtain ⟨location, hBackend, hIsOpen, hSize⟩ := openRounded_eq_ok hOpen
    exact ⟨location, hBackend, hIsOpen, congrArg Except.ok hSize.symm⟩
  | error o =>
    rw [openMapped, openEnvironment, hRound, openOrEnd] at hOpen
    rcases hMake : FileTree.makeDirectories s.path h.files with ⟨e | ⟨⟩, files⟩ <;>
      rw [hMake] at hOpen <;> cases hOpen

theorem openMapped_of_isOpen {s : MappedSettings} {location : Location} {h : Host}
    (hOpen : IsOpen s.path location h)
    (hRound : roundMapSize s.mapSize = .ok (h.environment location).mapSize) :
    openMapped s h = (.ok (mapped s.path location), h) := by
  rw [openMapped_of_rounded hRound, openRounded_of_isOpen hOpen]

/-! ## Services -/

end Backend

namespace Client

theorem reachable_greet (c : Client) (commands : List Service.Command) (link : Link) :
    (c.greet commands link).2.reachable = link.reachable := by
  induction commands generalizing link with
  | nil => rfl
  | cons command rest ih =>
    rw [greet]
    dsimp only
    split
    · rfl
    · exact ih (link.send command).2

/-- A service without faults accepts every greeting. -/
theorem Holds.greet {link : Link} {table : Table String} (h : Holds link table) (c : Client)
    {commands : List Service.Command}
    (hCommands : ∀ command ∈ commands, ∀ key value, command ≠ .set key value) :
    (c.greet commands link).1 = none ∧ Holds (c.greet commands link).2 table := by
  induction commands generalizing link with
  | nil => exact ⟨rfl, h⟩
  | cons command rest ih =>
    obtain ⟨hReply, hHolds⟩ := h.send command
    have hFine : c.commandError? (link.send command).1 = none := by
      rw [hReply]
      cases command <;> rfl
    have hKept : (link.service.execute command).2 = link.service := by
      cases command with
      | set key value => exact absurd rfl (hCommands _ List.mem_cons_self key value)
      | _ => rfl
    rw [hKept, h.table] at hHolds
    rw [Client.greet]
    dsimp only
    rw [hFine]
    exact ih hHolds fun other hOther => hCommands other (List.mem_cons_of_mem _ hOther)

theorem greeting_ne_set {url : ServiceUrl} {command : Service.Command}
    (h : command ∈ greeting url) (key : String) (value : Bytes) : command ≠ .set key value := by
  rintro rfl
  simp only [greeting, List.mem_append, List.mem_singleton] at h
  rcases h with (hIntroduction | hChoice) | hPing
  · unfold introduction at hIntroduction
    split at hIntroduction <;> simp at hIntroduction
  · split at hChoice <;> simp at hChoice
  · cases hPing

theorem obstacle?_eq_none_iff {files : FileTree} {link : Link} {location : ServiceLocation} :
    obstacle? files link location = none ↔
      (∃ host, location = .network host) ∧ link.reachable = true := by
  cases location with
  | network host => simp [obstacle?]
  | socket path =>
    rw [obstacle?]
    constructor
    · intro h
      split at h <;> cases h
    · rintro ⟨⟨host, h⟩, -⟩
      cases h

theorem connect_eq_ok {c d : Client} {text : String} {files : FileTree} {link link₀ : Link}
    (h : c.connect text files link = (.ok d, link₀)) :
    d = c ∧ link₀.reachable = true ∧
      ∃ url host, ServiceUrl.parse text = .ok url ∧ url.location = .network host := by
  rw [connect] at h
  cases hParse : ServiceUrl.parse text with
  | error e =>
    rw [hParse] at h
    cases h
  | ok url =>
    rw [hParse] at h
    dsimp only at h
    cases hObstacle : obstacle? files link url.location with
    | some reason =>
      rw [hObstacle] at h
      cases h
    | none =>
      rw [hObstacle] at h
      obtain ⟨⟨host, hHost⟩, hReachable⟩ := obstacle?_eq_none_iff.mp hObstacle
      have hGreeted := c.reachable_greet (greeting url) link
      dsimp only at h
      split at h
      · cases h
      · next hGreet =>
        cases h
        rw [hGreet] at hGreeted
        exact ⟨rfl, hGreeted.trans hReachable, url, host, rfl, hHost⟩

theorem connect_of_holds (c : Client) {text : String} {url : ServiceUrl} {host : List Char}
    (hParse : ServiceUrl.parse text = .ok url) (hHost : url.location = .network host)
    (files : FileTree) {link : Link} {table : Table String} (hReachable : link.reachable = true)
    (hHolds : Holds link table) :
    ∃ link₀, c.connect text files link = (.ok c, link₀) ∧ link₀.reachable = true ∧
      Holds link₀ table := by
  have hGreeting : ∀ command ∈ greeting url, ∀ key value, command ≠ .set key value :=
    fun _ => greeting_ne_set
  obtain ⟨hGreet, hKept⟩ := hHolds.greet c hGreeting
  have hGreet : c.greet (greeting url) link = (none, (c.greet (greeting url) link).2) :=
    Prod.ext hGreet rfl
  refine ⟨(c.greet (greeting url) link).2, ?_, ?_, hKept⟩
  · rw [connect, hParse]
    dsimp only
    rw [obstacle?_eq_none_iff.mpr ⟨⟨host, hHost⟩, hReachable⟩, hGreet]
  · exact (c.reachable_greet _ _).trans hReachable

end Client

namespace Backend

theorem service_realizes (c : Client) : (service c).medium.Realizes
    (fun _ h => True ∧ h.link.service.faults = [] ∧ h.link.reachable = true)
    (service c).contents :=
  c.preserves_reachable.realizes.within Host.link (fun link h => { h with link := link })
    (fun _ => True) (fun _ _ _ => rfl) (fun _ _ _ => trivial)

theorem openService_eq_ok {c : Client} {text : String} {b : Backend} {h h₀ : Host}
    (hOpen : openService c text h = (.ok b, h₀)) :
    b = service c ∧ h₀.link.reachable = true ∧
      ∃ url host, ServiceUrl.parse text = .ok url ∧ url.location = .network host := by
  rcases hConnect : c.connect text h.files h.link with ⟨e | d, link⟩ <;>
    rw [openService, hConnect] at hOpen
  · cases hOpen
  · obtain ⟨rfl, hReachable, hUrl⟩ := Client.connect_eq_ok hConnect
    cases hOpen
    exact ⟨rfl, hReachable, hUrl⟩

/-- A service that was reached once is reached again. -/
theorem service_reopens {s : BackendSettings} {c : Client} {text : String} {h h₀ : Host}
    (hOpen : openService c text h = (.ok (service c), h₀))
    (hSame : ∀ h, s.openIn h = openService c text h) :
    s.Reopens (service c)
      (fun _ h => True ∧ h.link.service.faults = [] ∧ h.link.reachable = true) := by
  rintro - later ⟨-, hFaults, hReachable⟩
  obtain ⟨-, -, url, host, hParse, hHost⟩ := openService_eq_ok hOpen
  obtain ⟨link, hConnect, hReachable, hHolds⟩ :=
    c.connect_of_holds hParse hHost later.files hReachable ⟨hFaults, rfl⟩
  refine ⟨{ later with link := link }, ?_, ⟨trivial, hHolds.faults, hReachable⟩, ?_⟩
  · rw [hSame, openService, hConnect]
    rfl
  · funext key
    exact congrArg (Table.get? · (c.key key)) hHolds.table

/-! ## All backends -/

theorem serve_service {s : BackendSettings} {c : Client} {text : String} {b : Backend}
    {h h₀ : Host} (hSame : ∀ h, s.openIn h = openService c text h)
    (hOpen : openService c text h = (.ok b, h₀)) {sessions : List (List StorageCall)}
    (hServe : b.CanServe sessions h₀) :
    (s.serve sessions h).1 = ((b.contents h₀).answers sessions.flatten).map .ok := by
  obtain ⟨rfl, hReachable, -⟩ := openService_eq_ok hOpen
  exact BackendSettings.serve_opened (service_realizes c) sessions
    (fun _ => service_reopens hOpen hSame) ((hSame h).trans hOpen) ⟨trivial, hServe, hReachable⟩

/-- Whatever storage is opened answers all calls as the map of its contents does, also when it is
opened again between them. -/
theorem answers_as_map {s : BackendSettings} {b : Backend} {h h₀ : Host}
    (hOpen : s.openIn h = (.ok b, h₀)) {sessions : List (List StorageCall)}
    (hServe : b.CanServe sessions h₀) :
    (s.serve sessions h).1 = ((b.contents h₀).answers sessions.flatten).map .ok := by
  cases s with
  | memory s =>
    cases hOpen
    refine BackendSettings.serve_opened (memory_realizes _) sessions ?_ rfl ⟨?_, trivial⟩
    · intro hMore
      exact absurd hMore (Nat.not_lt.mpr hServe)
    · simp
  | mapped s =>
    obtain ⟨location, rfl, hIsOpen, hRound⟩ := openMapped_eq_ok hOpen
    refine BackendSettings.serve_opened (mapped_realizes _ _ _) sessions (fun _ => ?_) hOpen
      ⟨hIsOpen, rfl, hServe⟩
    rintro batches later ⟨hIsOpen, hSize, hRoom⟩
    rw [← hSize] at hRound
    exact ⟨later, openMapped_of_isOpen hIsOpen hRound, ⟨hIsOpen, hSize, hRoom⟩, rfl⟩
  | service s => exact serve_service (fun _ => rfl) hOpen hServe
  | pipelined s => exact serve_service (fun _ => rfl) hOpen hServe

theorem mapped_answers_when_opened_again :
    ((BackendSettings.mapped ⟨"db", 1048576⟩).serve
      [[.batchPut [(⟨List.replicate 32 0, rfl⟩, [1]), (⟨List.replicate 32 1, rfl⟩, [2]),
          (⟨List.replicate 32 0, rfl⟩, [])], .get ⟨List.replicate 32 2, rfl⟩],
        [.batchPut [], .put ⟨List.replicate 32 1, rfl⟩ [3, 4], .get ⟨List.replicate 32 0, rfl⟩,
          .get ⟨List.replicate 32 1, rfl⟩]] (.ofFiles .empty)).1 =
      [.ok .done, .ok (.found none), .ok .done, .ok .done, .ok (.found (some [])),
        .ok (.found (some [3, 4]))] := by
  refine (answers_as_map (b := .mapped "db" ["", "db"]) (Prod.ext ?_ rfl) ?_).trans ?_
  · decide +kernel
  · change PageTree.hasRoom _ _ = true
    decide +kernel
  · decide +kernel

end Backend

end LatentCache
