import LatentCache.Proofs.Lookup
import LatentCache.Proofs.Settings.Overlay
import LatentCache.Settings.Summary

/-!
# Reading shown settings back

A summary is shown as assignments, one a line. The lines are cut at their first equals sign, and an
environment of these assignments overlays the default settings with everything that was shown.
-/

namespace LatentCache

/-! ## The lines of a summary -/

namespace Summary

/-- The assignment on a line, cut at its first equals sign. -/
def readLine? (line : List Char) : Option (Variable × String) :=
  match line.dropWhile (· != '=') with
  | [] => none
  | _ :: value =>
    (Variable.named? (String.ofList (line.takeWhile (· != '=')))).map (·, String.ofList value)

def read? (text : String) : Option (List (Variable × String)) :=
  (text.toList.splitOn '\n').mapM readLine?

theorem name_plain (v : Variable) : ∀ c ∈ v.name.toList, c ≠ '=' ∧ c ≠ '\n' := by
  have hAll : (v.name.toList.all fun c => c != '=' && c != '\n') = true := by
    cases v <;> decide
  simpa using hAll

theorem toList_line (assignment : Variable × String) :
    (line assignment).toList = assignment.1.name.toList ++ '=' :: assignment.2.toList := by
  rw [line, String.toList_append, String.toList_append, List.append_assoc]
  rfl

theorem readLine?_line (assignment : Variable × String) :
    readLine? (line assignment).toList = some assignment := by
  have hName : ∀ c ∈ assignment.1.name.toList, (c != '=') = true := by
    intro c hc
    simpa using (name_plain assignment.1 c hc).1
  rw [readLine?, toList_line, List.dropWhile_append_of_pos hName,
    List.takeWhile_append_of_pos hName]
  simp [Variable.named?_name]

theorem mapM_readLine? (assignments : List (Variable × String)) :
    (assignments.map fun a => (line a).toList).mapM readLine? = some assignments := by
  induction assignments with
  | nil => rfl
  | cons assignment rest ih =>
    rw [List.map_cons, List.mapM_cons, readLine?_line, ih]
    rfl

theorem read?_text {s : Summary} (h : ∀ a ∈ s.assignments, '\n' ∉ a.2.toList) :
    read? s.text = some s.assignments := by
  have hLines : ∀ l ∈ s.assignments.map fun a => (line a).toList, '\n' ∉ l := by
    intro l hl hBreak
    obtain ⟨a, ha, rfl⟩ := List.mem_map.mp hl
    rw [toList_line, List.mem_append, List.mem_cons] at hBreak
    rcases hBreak with hBreak | hBreak | hBreak
    · exact (name_plain a.1 _ hBreak).2 rfl
    · cases hBreak
    · exact h a ha hBreak
  rw [read?, text, String.toList_intercalate, List.map_map]
  have hSplit := List.splitOn_intercalate '\n' hLines (by simp [assignments])
  exact (congrArg (List.mapM readLine?) hSplit).trans (mapM_readLine? _)

end Summary

/-! ## Printed values -/

theorem Decimal.newline_not_mem_text (n : Nat) : '\n' ∉ (Decimal.text n).toList := by
  rw [Decimal.text, String.toList_ofList]
  intro h
  exact absurd (Decimal.isDigit_of_mem_digits h) (by decide)

namespace Environment

variable {env : Environment}

theorem sizes_text {v : Variable} {n : Nat} (present : Nat) (h : env v = some (Decimal.text n))
    (hSmall : n < Size.limit) : env.Sizes v present n := by
  have hText : (Decimal.text n).toList = Decimal.digits n := by
    rw [Decimal.text, String.toList_ofList]
  have hDigits : ∀ c ∈ Decimal.digits n, c.isDigit := fun c => Decimal.isDigit_of_mem_digits
  refine .given h (Text.trims_trim _) (Decimal.size?_eq_some_iff.mp ?_)
  rw [hText, Text.trim_eq_self]
  · rw [Decimal.size?_digits (Decimal.digits_ne_nil n) hDigits] <;>
      rw [Decimal.ofDigits_digits]
    exact hSmall
  · intro c hc
    exact Decimal.not_isBlank_of_isDigit (hDigits c hc)

end Environment

/-! ## The overlay of what was shown -/

/-- The environment of assignments. -/
def Environment.ofAssignments (assignments : List (Variable × String)) : Environment :=
  fun v => assignments.lookup v

/-- The texts of storage settings, each of which is shown as it stands. -/
def BackendSettings.texts : BackendSettings → List String
  | memory _ => []
  | mapped s => [s.path]
  | service s => [s.url, s.keyPrefix]
  | pipelined s => [s.url, s.keyPrefix]

/-- The numbers are machine sizes, and no text has a line break. -/
structure Settings.Showable (s : Settings) : Prop where
  sizes : ∀ n ∈ [s.chunkSize, s.codec.rawLayers, s.codec.rawHidden] ++ s.backend.mapSize?.toList,
    n < Size.limit
  texts : ∀ text ∈ s.log.level :: s.backend.texts, '\n' ∉ text.toList

/-- The summaries agree but for the layout of raw records where records are not raw. -/
structure Summary.SameShown (a b : Summary) : Prop where
  chunkSize : a.chunkSize = b.chunkSize
  backend : a.backend = b.backend
  location : a.location = b.location
  mapSize : a.mapSize = b.mapSize
  keyPrefix : a.keyPrefix = b.keyPrefix
  codec : a.codec = b.codec
  raw : b.codec = .raw → a.rawType = b.rawType ∧ a.rawLayers = b.rawLayers ∧
    a.rawHidden = b.rawHidden
  logLevel : a.logLevel = b.logLevel
  logFormat : a.logFormat = b.logFormat

/-- What is shown of storage settings, over the defaults of their kind. -/
def BackendSettings.shown : BackendSettings → BackendSettings
  | memory _ => memory 0
  | mapped s => mapped s
  | service s => service { url := s.url, keyPrefix := s.keyPrefix }
  | pipelined s => pipelined { url := s.url, keyPrefix := s.keyPrefix }

def CodecSettings.shown (s : CodecSettings) : CodecSettings :=
  match s.kind with
  | .selfDescribing => { kind := .selfDescribing }
  | .raw => s

/-- What is shown of settings, over the default settings. -/
def Settings.shown (s : Settings) : Settings :=
  { chunkSize := s.chunkSize
    backend := s.backend.shown
    codec := s.codec.shown
    log := { format := s.log.format, level := s.log.level } }

theorem BackendSettings.kind_shown (s : BackendSettings) : s.shown.kind = s.kind := by
  cases s <;> rfl

theorem BackendSettings.location_shown (s : BackendSettings) : s.shown.location = s.location := by
  cases s <;> rfl

theorem BackendSettings.mapSize?_shown (s : BackendSettings) : s.shown.mapSize? = s.mapSize? := by
  cases s <;> rfl

theorem BackendSettings.keyPrefix?_shown (s : BackendSettings) :
    s.shown.keyPrefix? = s.keyPrefix? := by
  cases s <;> rfl

theorem CodecSettings.kind_shown (s : CodecSettings) : s.shown.kind = s.kind := by
  rw [shown]
  split
  next hKind => exact hKind.symm
  next => rfl

theorem CodecSettings.shown_of_raw {s : CodecSettings} (h : s.kind = .raw) : s.shown = s := by
  rw [shown, h]

namespace Summary

theorem SameShown.assignments_eq {a b : Summary} (h : a.SameShown b) :
    a.assignments = b.assignments := by
  have hBackend : a.backendAssignments = b.backendAssignments := by
    rw [backendAssignments, backendAssignments, h.backend, h.location, h.mapSize, h.keyPrefix]
  have hRaw : a.rawAssignments = b.rawAssignments := by
    rw [rawAssignments, rawAssignments, h.codec]
    cases hCodec : b.codec with
    | selfDescribing => rfl
    | raw =>
      obtain ⟨hType, hLayers, hHidden⟩ := h.raw hCodec
      rw [hType, hLayers, hHidden]
  rw [assignments, assignments, hBackend, hRaw, h.chunkSize, h.backend, h.codec, h.logLevel,
    h.logFormat]

theorem mem_assignments {s : Summary} {a : Variable × String} :
    a ∈ s.assignments ↔ a = (.chunkSize, Decimal.text s.chunkSize) ∨
      a = (.backend, s.backend.name) ∨ a ∈ s.backendAssignments ∨ a = (.codec, s.codec.name) ∨
      a ∈ s.rawAssignments ∨ a = (.logLevel, s.logLevel) ∨ a = (.logFormat, s.logFormat.name) := by
  simp only [assignments, List.mem_append, List.mem_cons, List.not_mem_nil, or_false, or_assoc]

/-- The variables that a summary may assign, in its order. -/
def shownKeys : CodecKind → List Variable
  | .selfDescribing =>
    [.chunkSize, .backend, .mapPath, .mapSize, .serviceUrl, .keyPrefix, .codec, .logLevel,
      .logFormat]
  | .raw =>
    [.chunkSize, .backend, .mapPath, .mapSize, .serviceUrl, .keyPrefix, .codec, .rawType,
      .rawLayers, .rawHidden, .logLevel, .logFormat]

theorem keys_sublist (s : Summary) : (s.assignments.map Prod.fst).Sublist (shownKeys s.codec) := by
  obtain ⟨chunkSize, backend, location, mapSize, keyPrefix, codec, _⟩ := s
  cases backend <;> cases codec <;> cases mapSize <;> cases keyPrefix <;>
    simp only [assignments, backendAssignments, rawAssignments, optional, List.append_nil,
      List.cons_append, List.nil_append, List.map_cons, List.map_nil] <;>
    decide

theorem nodup_keys (s : Summary) : (s.assignments.map Prod.fst).Nodup := by
  apply s.keys_sublist.nodup
  cases s.codec <;> decide

theorem not_mem_keys {s : Summary} {v : Variable} (h : v ∉ shownKeys s.codec) :
    v ∉ s.assignments.map Prod.fst :=
  fun hMem => h (s.keys_sublist.subset hMem)

end Summary

namespace Settings

theorem sameShown_shown (s : Settings) : s.shown.summary.SameShown s.summary where
  chunkSize := rfl
  backend := s.backend.kind_shown
  location := s.backend.location_shown
  mapSize := s.backend.mapSize?_shown
  keyPrefix := s.backend.keyPrefix?_shown
  codec := s.codec.kind_shown
  raw := by
    intro hRaw
    have hShown : s.shown.codec = s.codec := CodecSettings.shown_of_raw hRaw
    simp only [summary, hShown, and_self]
  logLevel := rfl
  logFormat := rfl

theorem mem_backendAssignments {s : Settings} {a : Variable × String}
    (h : a ∈ s.summary.backendAssignments) :
    a.2 ∈ s.backend.texts ∨ ∃ n, a.2 = Decimal.text n := by
  obtain ⟨chunkSize, backend, codec, log⟩ := s
  cases backend with
  | memory hint => cases h
  | mapped s =>
    rcases List.mem_cons.mp h with rfl | h
    · exact .inl List.mem_cons_self
    · cases List.mem_singleton.mp h
      exact .inr ⟨_, rfl⟩
  | service s | pipelined s =>
    rcases List.mem_cons.mp h with rfl | h
    · exact .inl List.mem_cons_self
    · cases List.mem_singleton.mp h
      exact .inl (List.mem_cons_of_mem _ List.mem_cons_self)

theorem newline_not_mem_assignments {s : Settings} (h : s.Showable) :
    ∀ a ∈ s.summary.assignments, '\n' ∉ a.2.toList := by
  intro a ha
  rcases Summary.mem_assignments.mp ha with rfl | rfl | ha | rfl | ha | rfl | rfl
  · exact Decimal.newline_not_mem_text _
  · generalize s.summary.backend = kind
    cases kind <;> decide
  · rcases mem_backendAssignments ha with hText | ⟨n, hNumber⟩
    · exact h.texts _ (List.mem_cons_of_mem _ hText)
    · rw [hNumber]
      exact Decimal.newline_not_mem_text n
  · generalize s.summary.codec = kind
    cases kind <;> decide
  · rw [Summary.rawAssignments] at ha
    split at ha
    · cases ha
    · simp only [List.mem_cons, List.not_mem_nil, or_false] at ha
      rcases ha with rfl | rfl | rfl
      · generalize s.summary.rawType = t
        cases t <;> decide
      · exact Decimal.newline_not_mem_text _
      · exact Decimal.newline_not_mem_text _
  · exact h.texts _ List.mem_cons_self
  · generalize s.summary.logFormat = format
    cases format <;> decide

/-- The environment that a summary shows. -/
def shownEnvironment (s : Settings) : Environment :=
  Environment.ofAssignments s.summary.assignments

theorem shownEnvironment_eq_some {s : Settings} {a : Variable × String}
    (h : a ∈ s.summary.assignments) : s.shownEnvironment a.1 = some a.2 :=
  (lookup_eq_some_iff_mem s.summary.nodup_keys).mpr h

theorem shownEnvironment_eq_none {s : Settings} {v : Variable}
    (h : v ∉ s.summary.assignments.map Prod.fst) : s.shownEnvironment v = none := by
  rw [shownEnvironment, Environment.ofAssignments, List.lookup_eq_none_iff]
  intro a ha
  rw [bne_iff_ne]
  rintro rfl
  exact h (List.mem_map_of_mem ha)

theorem shownEnvironment_backend {s : Settings} {a : Variable × String}
    (h : a ∈ s.summary.backendAssignments) : s.shownEnvironment a.1 = some a.2 :=
  shownEnvironment_eq_some (Summary.mem_assignments.mpr (.inr (.inr (.inl h))))

theorem shownEnvironment_raw {s : Settings} {a : Variable × String}
    (h : a ∈ s.summary.rawAssignments) : s.shownEnvironment a.1 = some a.2 :=
  shownEnvironment_eq_some (Summary.mem_assignments.mpr (.inr (.inr (.inr (.inr (.inl h))))))

/-- The time to connect is not shown, so a service takes the default. -/
theorem overlays_service_shown {env : Environment} {s : ServiceSettings}
    (hShown : ∀ a ∈ [(Variable.serviceUrl, s.url), (.keyPrefix, s.keyPrefix)],
      env a.1 = some a.2)
    (hTimeout : env .connectTimeout = none) :
    ServiceSettings.Overlays env {} { url := s.url, keyPrefix := s.keyPrefix } where
  url := by
    rw [hShown _ List.mem_cons_self]
    rfl
  keyPrefix := by
    rw [hShown _ (List.mem_cons_of_mem _ List.mem_cons_self)]
    rfl
  connectTimeout := Environment.sizes_absent _ hTimeout

theorem overlays_backend_shown {s : Settings} (h : s.Showable) :
    (BackendSettings.default s.backend.kind).Overlays s.shownEnvironment s.backend.shown := by
  have hTimeout : s.shownEnvironment .connectTimeout = none := by
    apply shownEnvironment_eq_none (Summary.not_mem_keys ?_)
    cases s.summary.codec <;> decide
  have hShown : ∀ a ∈ s.summary.backendAssignments, s.shownEnvironment a.1 = some a.2 :=
    fun _ => shownEnvironment_backend
  obtain ⟨chunkSize, backend, codec, log⟩ := s
  cases backend with
  | memory hint => exact .memory 0
  | mapped m =>
    have hShown : ∀ a ∈ [(Variable.mapPath, m.path), (.mapSize, Decimal.text m.mapSize)], _ :=
      hShown
    refine .mapped ?_ ?_
    · rw [hShown _ List.mem_cons_self]
      rfl
    · apply Environment.sizes_text _ (hShown _ (List.mem_cons_of_mem _ List.mem_cons_self))
      exact h.sizes _ (List.mem_append_right _ List.mem_cons_self)
  | service service => exact .service (overlays_service_shown hShown hTimeout)
  | pipelined service => exact .pipelined (overlays_service_shown hShown hTimeout)

theorem overlays_raw_shown {s : Settings} (h : s.Showable) :
    NameChoice.rawType.Chooses s.shownEnvironment .f16 s.shown.codec.rawType ∧
      s.shownEnvironment.Sizes .rawLayers 0 s.shown.codec.rawLayers ∧
      s.shownEnvironment.Sizes .rawHidden 0 s.shown.codec.rawHidden := by
  cases hKind : s.codec.kind with
  | selfDescribing =>
    have hShown : s.shown.codec = { kind := .selfDescribing } := by
      rw [shown, CodecSettings.shown, hKind]
    have hNone : ∀ v ∈ [Variable.rawType, .rawLayers, .rawHidden], s.shownEnvironment v = none := by
      intro v hv
      apply shownEnvironment_eq_none (Summary.not_mem_keys ?_)
      rw [show s.summary.codec = .selfDescribing from hKind]
      revert v
      decide
    rw [hShown]
    exact ⟨.absent (hNone _ (by decide)), Environment.sizes_absent _ (hNone _ (by decide)),
      Environment.sizes_absent _ (hNone _ (by decide))⟩
  | raw =>
    have hShown : s.shown.codec = s.codec := CodecSettings.shown_of_raw hKind
    have hRaw : s.summary.rawAssignments =
        [(.rawType, s.codec.rawType.name), (.rawLayers, Decimal.text s.codec.rawLayers),
          (.rawHidden, Decimal.text s.codec.rawHidden)] := by
      rw [Summary.rawAssignments, show s.summary.codec = .raw from hKind]
      rfl
    have hEnv : ∀ a ∈ s.summary.rawAssignments, s.shownEnvironment a.1 = some a.2 :=
      fun _ => shownEnvironment_raw
    simp only [hRaw, List.forall_mem_cons] at hEnv
    obtain ⟨hType, hLayers, hHidden, -⟩ := hEnv
    rw [hShown]
    exact ⟨.named hType (NameChoice.rawType_names_name _),
      Environment.sizes_text _ hLayers (h.sizes _ (by simp)),
      Environment.sizes_text _ hHidden (h.sizes _ (by simp))⟩

theorem overlays_shown {s : Settings} (h : s.Showable) :
    Overlays s.shownEnvironment {} s.shown := by
  have hEnv : ∀ a ∈ s.summary.assignments, s.shownEnvironment a.1 = some a.2 :=
    fun _ => shownEnvironment_eq_some
  obtain ⟨hType, hLayers, hHidden⟩ := overlays_raw_shown h
  simp only [Summary.mem_assignments] at hEnv
  have hChunk := hEnv _ (.inl rfl)
  have hBackend := hEnv _ (.inr (.inl rfl))
  have hCodec := hEnv _ (.inr (.inr (.inr (.inl rfl))))
  have hLevel := hEnv _ (.inr (.inr (.inr (.inr (.inr (.inl rfl))))))
  have hFormat := hEnv _ (.inr (.inr (.inr (.inr (.inr (.inr rfl))))))
  exact
    { chunkSize := Environment.sizes_text _ hChunk (h.sizes _ List.mem_cons_self)
      backend := ⟨s.backend.kind, .default s.backend.kind,
        .named hBackend (NameChoice.backend_names_name _),
        BackendSettings.startsFrom_default .memory _, overlays_backend_shown h⟩
      codecKind := by
        rw [show s.shown.codec.kind = s.codec.kind from s.codec.kind_shown]
        exact .named hCodec (NameChoice.codec_names_name _)
      rawType := hType
      rawLayers := hLayers
      rawHidden := hHidden
      level := by
        rw [hLevel]
        rfl
      logFormat := .named hFormat (NameChoice.logFormat_names_name _)
      outputPath := rfl }

/-- Settings can be restored from the text of their summary: its lines are assignments, each
variable is assigned once, and over the default settings they give a summary with the same text. -/
theorem summary_reads_back {s : Settings} (h : s.Showable) :
    ∃ assignments r, Summary.read? s.summary.text = some assignments ∧
      (assignments.map Prod.fst).Nodup ∧
      Settings.overlay {} (Environment.ofAssignments assignments) = .ok r ∧
      r.summary.text = s.summary.text ∧ r.summary.SameShown s.summary := by
  refine ⟨s.summary.assignments, s.shown, ?_, s.summary.nodup_keys, ?_, ?_, s.sameShown_shown⟩
  · exact Summary.read?_text (newline_not_mem_assignments h)
  · exact overlay_eq_ok_iff.mpr (overlays_shown h)
  · rw [Summary.text, Summary.text, s.sameShown_shown.assignments_eq]

def rawMapped : Settings :=
  { chunkSize := 64
    backend := .mapped { path := "a b=c", mapSize := 4096 }
    codec := { kind := .raw, rawType := .bf16, rawLayers := 2, rawHidden := 8 }
    log := { format := .pretty, level := " a=debug,info" } }

theorem rawMapped_reads_back :
    rawMapped.Showable ∧
      ∃ assignments r, Summary.read? rawMapped.summary.text = some assignments ∧
        (assignments.map Prod.fst).Nodup ∧
        Settings.overlay {} (Environment.ofAssignments assignments) = .ok r ∧
        r.summary.text = rawMapped.summary.text ∧ r.summary.SameShown rawMapped.summary := by
  have hShowable : rawMapped.Showable := by
    constructor <;> decide
  exact ⟨hShowable, summary_reads_back hShowable⟩

end Settings

end LatentCache
