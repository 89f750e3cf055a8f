import LatentCache.Proofs.Settings.Names

/-!
# What an environment makes of settings

Four variables choose by name, and a text that is no name is an error; the first such variable ends
the overlay. Five variables give numbers, and a text that is no number changes nothing. The others
are taken as they stand. Another kind of storage starts from its defaults, and only the variables
about the kind that is chosen have an effect.
-/

namespace LatentCache

/-! ## Numbers -/

namespace Environment

variable {env : Environment}

/-- The number that a variable gives where `present` is in force. -/
inductive Sizes (env : Environment) (v : Variable) (present : Nat) : Nat → Prop where
  | given {text : String} {inner : List Char} {n : Nat} : env v = some text →
      Text.Trims text.toList inner → Decimal.Denotes inner n → Sizes env v present n
  | kept : (∀ text inner n, env v = some text → Text.Trims text.toList inner →
      ¬Decimal.Denotes inner n) → Sizes env v present present

theorem sizes_absent {v : Variable} (present : Nat) (h : env v = none) :
    env.Sizes v present present := by
  apply Sizes.kept
  intro text inner n hSome
  cases h.symm.trans hSome

theorem sizes_size (v : Variable) (present : Nat) :
    env.Sizes v present (env.size v present) := by
  rw [size]
  cases hText : env v with
  | none => exact sizes_absent present hText
  | some text =>
    dsimp only
    cases hNumber : Decimal.size? (Text.trim text.toList) with
    | none =>
      apply Sizes.kept
      rintro text' inner n hSome hTrims hDenotes
      cases hText.symm.trans hSome
      rw [hTrims.trim_eq, Decimal.size?_eq_some_iff.mpr hDenotes] at hNumber
      cases hNumber
    | some n =>
      exact .given hText (Text.trims_trim _) (Decimal.size?_eq_some_iff.mp hNumber)

theorem Sizes.size_eq {v : Variable} {present n : Nat} (h : env.Sizes v present n) :
    env.size v present = n := by
  rw [size]
  cases h with
  | given hText hTrims hDenotes =>
    simp only [hText, hTrims.trim_eq, Decimal.size?_eq_some_iff.mpr hDenotes, Option.getD_some]
  | kept hNone =>
    cases hText : env v with
    | none => rfl
    | some text =>
      dsimp only
      cases hNumber : Decimal.size? (Text.trim text.toList) with
      | none => rfl
      | some n =>
        exact absurd (Decimal.size?_eq_some_iff.mp hNumber)
          (hNone text _ n hText (Text.trims_trim _))

theorem Sizes.congr {other : Environment} {v : Variable} {present n : Nat}
    (h : env.Sizes v present n) (hSame : other v = env v) : other.Sizes v present n := by
  cases h with
  | given hText hTrims hDenotes => exact .given (hSame.trans hText) hTrims hDenotes
  | kept hNone => exact .kept (hSame ▸ hNone)

end Environment

/-! ## Storage -/

/-- The storage settings before the variables of the chosen kind apply. -/
inductive BackendSettings.StartsFrom (present : BackendSettings) (kind : BackendKind) :
    BackendSettings → Prop where
  | kept : kind = present.kind → StartsFrom present kind present
  | reset : kind ≠ present.kind → StartsFrom present kind (.default kind)

structure ServiceSettings.Overlays (env : Environment) (base r : ServiceSettings) : Prop where
  url : r.url = (env .serviceUrl).getD base.url
  keyPrefix : r.keyPrefix = (env .keyPrefix).getD base.keyPrefix
  connectTimeout : env.Sizes .connectTimeout base.connectTimeout r.connectTimeout

/-- The variables of one kind of storage, over settings of that kind. -/
inductive BackendSettings.Overlays (env : Environment) : BackendSettings → BackendSettings → Prop
  where
  | memory (hint : Nat) : Overlays env (.memory hint) (.memory hint)
  | mapped {base r : MappedSettings} : r.path = (env .mapPath).getD base.path →
      env.Sizes .mapSize base.mapSize r.mapSize → Overlays env (.mapped base) (.mapped r)
  | service {base r : ServiceSettings} : base.Overlays env r →
      Overlays env (.service base) (.service r)
  | pipelined {base r : ServiceSettings} : base.Overlays env r →
      Overlays env (.pipelined base) (.pipelined r)

theorem BackendSettings.startsFrom_iff {present chosen : BackendSettings} {kind : BackendKind} :
    present.StartsFrom kind chosen ↔ chosen = Settings.chosenBackend present kind := by
  rw [Settings.chosenBackend]
  constructor
  · rintro (hKind | hKind)
    · rw [if_pos hKind]
    · rw [if_neg hKind]
  · rintro rfl
    split
    next hKind => exact .kept hKind
    next hKind => exact .reset hKind

theorem BackendSettings.startsFrom_default (present kind : BackendKind) :
    (default present).StartsFrom kind (default kind) := by
  by_cases hKind : kind = present
  · subst hKind
    exact .kept (kind_default kind).symm
  · apply StartsFrom.reset
    rwa [kind_default]

theorem ServiceSettings.overlays_iff {env : Environment} {base r : ServiceSettings} :
    base.Overlays env r ↔ r = Settings.overlayService env base := by
  constructor
  · rintro ⟨hUrl, hPrefix, hTimeout⟩
    cases r
    cases hUrl
    cases hPrefix
    cases hTimeout.size_eq
    rfl
  · rintro rfl
    exact ⟨rfl, rfl, Environment.sizes_size _ _⟩

theorem BackendSettings.overlays_iff {env : Environment} {base r : BackendSettings} :
    base.Overlays env r ↔ r = Settings.overlayBackend env base := by
  constructor
  · intro h
    cases h with
    | memory hint => rfl
    | @mapped base r hPath hSize =>
      cases r
      cases hPath
      cases hSize.size_eq
      rfl
    | service h =>
      cases ServiceSettings.overlays_iff.mp h
      rfl
    | pipelined h =>
      cases ServiceSettings.overlays_iff.mp h
      rfl
  · rintro rfl
    cases base with
    | memory hint => exact .memory hint
    | mapped base => exact .mapped rfl (Environment.sizes_size _ _)
    | service base => exact .service (ServiceSettings.overlays_iff.mpr rfl)
    | pipelined base => exact .pipelined (ServiceSettings.overlays_iff.mpr rfl)

/-- The variables that are about a kind of storage. -/
def BackendKind.variables : BackendKind → List Variable
  | .memory => []
  | .mapped => [.mapPath, .mapSize]
  | .service | .pipelined => [.serviceUrl, .keyPrefix, .connectTimeout]

/-- The environments agree on the variables about a kind of storage and on those about none. -/
def Environment.AgreesFor (kind : BackendKind) (env other : Environment) : Prop :=
  ∀ v, (v ∈ kind.variables ∨ ∀ k : BackendKind, v ∉ k.variables) → other v = env v

theorem ServiceSettings.Overlays.congr {env other : Environment} {base r : ServiceSettings}
    (h : base.Overlays env r)
    (hAgree : ∀ v ∈ [Variable.serviceUrl, .keyPrefix, .connectTimeout], other v = env v) :
    base.Overlays other r where
  url := by
    rw [hAgree .serviceUrl (by decide)]
    exact h.url
  keyPrefix := by
    rw [hAgree .keyPrefix (by decide)]
    exact h.keyPrefix
  connectTimeout := h.connectTimeout.congr (hAgree .connectTimeout (by decide))

theorem BackendSettings.Overlays.congr {env other : Environment} {base r : BackendSettings}
    (h : base.Overlays env r) (hAgree : env.AgreesFor base.kind other) :
    base.Overlays other r := by
  have hOwn : ∀ v ∈ base.kind.variables, other v = env v := by
    intro v hv
    exact hAgree v (.inl hv)
  cases h with
  | memory hint => exact .memory hint
  | mapped hPath hSize =>
    have hOwn : ∀ v ∈ [Variable.mapPath, .mapSize], other v = env v := hOwn
    refine .mapped ?_ (hSize.congr (hOwn .mapSize (by decide)))
    rw [hOwn .mapPath (by decide)]
    exact hPath
  | service h => exact .service (h.congr hOwn)
  | pipelined h => exact .pipelined (h.congr hOwn)

theorem BackendSettings.Overlays.kind_eq {env : Environment} {base r : BackendSettings}
    (h : base.Overlays env r) : r.kind = base.kind := by
  cases h <;> rfl

/-! ## All settings -/

/-- An error of the first of the steps that has one. -/
inductive FirstError {ε : Type} : List (ε → Prop) → ε → Prop where
  | here {step : ε → Prop} {rest : List (ε → Prop)} {e : ε} :
      step e → FirstError (step :: rest) e
  | later {step : ε → Prop} {rest : List (ε → Prop)} {e : ε} :
      (∀ e', ¬step e') → FirstError rest e → FirstError (step :: rest) e

theorem exists_firstError_iff {ε : Type} {steps : List (ε → Prop)} :
    (∃ e, FirstError steps e) ↔ ∃ step ∈ steps, ∃ e, step e := by
  constructor
  · rintro ⟨e, h⟩
    induction h with
    | here hStep => exact ⟨_, List.mem_cons_self, _, hStep⟩
    | later _ _ ih =>
      obtain ⟨step, hMem, hStep⟩ := ih
      exact ⟨step, List.mem_cons_of_mem _ hMem, hStep⟩
  · rintro ⟨step, hMem, e, hStep⟩
    induction steps with
    | nil => cases hMem
    | cons first rest ih =>
      by_cases hFirst : ∃ e, first e
      · obtain ⟨e', hHere⟩ := hFirst
        exact ⟨e', .here hHere⟩
      · have hRest : step ∈ rest := by
          rcases List.mem_cons.mp hMem with rfl | hRest
          · exact absurd ⟨e, hStep⟩ hFirst
          · exact hRest
        obtain ⟨e', hLater⟩ := ih hRest
        exact ⟨e', .later (not_exists.mp hFirst) hLater⟩

theorem bind_eq_error_iff_first {α β ε : Type} {x : Except ε α} {f : α → Except ε β}
    {step : ε → Prop} {rest : List (ε → Prop)} (hStep : ∀ e, x = .error e ↔ step e)
    (hRest : ∀ a e, f a = .error e ↔ FirstError rest e) (e : ε) :
    (x >>= f) = .error e ↔ FirstError (step :: rest) e := by
  cases x with
  | error e' =>
    constructor
    · intro h
      cases h
      exact .here ((hStep e).mp rfl)
    · rintro (h | ⟨hNone, -⟩)
      · cases (hStep e).mpr h
        rfl
      · exact absurd ((hStep e').mp rfl) (hNone e')
  | ok a =>
    have hNone : ∀ e', ¬step e' := by
      intro e' h
      cases (hStep e').mpr h
    constructor
    · intro h
      exact .later hNone ((hRest a e).mp h)
    · rintro (h | ⟨-, h⟩)
      · exact absurd h (hNone e)
      · exact (hRest a e).mpr h

namespace Settings

/-- The variables that choose by name, in the order in which they are read. -/
def refusals (env : Environment) : List (SettingsError → Prop) :=
  [NameChoice.backend.Refuses env, NameChoice.codec.Refuses env, NameChoice.rawType.Refuses env,
    NameChoice.logFormat.Refuses env]

/-- The settings that result, field by field. Storage is chosen first; then its own variables
apply. -/
structure Overlays (env : Environment) (base r : Settings) : Prop where
  chunkSize : env.Sizes .chunkSize base.chunkSize r.chunkSize
  backend : ∃ kind start, NameChoice.backend.Chooses env base.backend.kind kind ∧
    base.backend.StartsFrom kind start ∧ start.Overlays env r.backend
  codecKind : NameChoice.codec.Chooses env base.codec.kind r.codec.kind
  rawType : NameChoice.rawType.Chooses env base.codec.rawType r.codec.rawType
  rawLayers : env.Sizes .rawLayers base.codec.rawLayers r.codec.rawLayers
  rawHidden : env.Sizes .rawHidden base.codec.rawHidden r.codec.rawHidden
  level : r.log.level = (env .logLevel).getD base.log.level
  logFormat : NameChoice.logFormat.Chooses env base.log.format r.log.format
  outputPath : r.log.outputPath = base.log.outputPath

theorem overlay_eq_error_iff {base : Settings} {env : Environment} {e : SettingsError} :
    base.overlay env = .error e ↔ FirstError (refusals env) e := by
  apply bind_eq_error_iff_first
  · intro e
    exact NameChoice.choice_eq_error_iff NameChoice.backend_readBy
  intro backendKind
  apply bind_eq_error_iff_first
  · intro e
    exact NameChoice.choice_eq_error_iff NameChoice.codec_readBy
  intro codecKind
  apply bind_eq_error_iff_first
  · intro e
    exact NameChoice.choice_eq_error_iff NameChoice.rawType_readBy
  intro rawType
  apply bind_eq_error_iff_first
  · intro e
    exact NameChoice.choice_eq_error_iff NameChoice.logFormat_readBy
  intro logFormat e
  constructor <;> rintro ⟨⟩

theorem overlay_eq_ok_iff {base r : Settings} {env : Environment} :
    base.overlay env = .ok r ↔ Overlays env base r := by
  rw [overlay]
  constructor
  · intro h
    obtain ⟨backendKind, hBackend, h⟩ := bind_eq_ok_iff.mp h
    obtain ⟨codecKind, hCodec, h⟩ := bind_eq_ok_iff.mp h
    obtain ⟨rawType, hType, h⟩ := bind_eq_ok_iff.mp h
    obtain ⟨logFormat, hFormat, h⟩ := bind_eq_ok_iff.mp h
    cases h
    exact
      { chunkSize := Environment.sizes_size _ _
        backend := ⟨backendKind, _,
          (NameChoice.choice_eq_ok_iff NameChoice.backend_readBy).mp hBackend,
          BackendSettings.startsFrom_iff.mpr rfl, BackendSettings.overlays_iff.mpr rfl⟩
        codecKind := (NameChoice.choice_eq_ok_iff NameChoice.codec_readBy).mp hCodec
        rawType := (NameChoice.choice_eq_ok_iff NameChoice.rawType_readBy).mp hType
        rawLayers := Environment.sizes_size _ _
        rawHidden := Environment.sizes_size _ _
        level := rfl
        logFormat := (NameChoice.choice_eq_ok_iff NameChoice.logFormat_readBy).mp hFormat
        outputPath := rfl }
  · intro h
    obtain ⟨backendKind, start, hBackend, hStart, hOverlays⟩ := h.backend
    have hBackend := (NameChoice.choice_eq_ok_iff NameChoice.backend_readBy).mpr hBackend
    have hCodec := (NameChoice.choice_eq_ok_iff NameChoice.codec_readBy).mpr h.codecKind
    have hType := (NameChoice.choice_eq_ok_iff NameChoice.rawType_readBy).mpr h.rawType
    have hFormat := (NameChoice.choice_eq_ok_iff NameChoice.logFormat_readBy).mpr h.logFormat
    refine bind_eq_ok_iff.mpr ⟨_, hBackend, bind_eq_ok_iff.mpr ⟨_, hCodec,
      bind_eq_ok_iff.mpr ⟨_, hType, bind_eq_ok_iff.mpr ⟨_, hFormat, ?_⟩⟩⟩⟩
    dsimp only
    rw [h.chunkSize.size_eq, h.rawLayers.size_eq, h.rawHidden.size_eq,
      ← BackendSettings.startsFrom_iff.mp hStart, ← BackendSettings.overlays_iff.mp hOverlays,
      ← h.outputPath, Environment.text, ← h.level]
    rfl

/-- Variables about other kinds of storage than the one that results have no effect. -/
theorem Overlays.congr {base r : Settings} {env other : Environment} (h : Overlays env base r)
    (hAgree : env.AgreesFor r.backend.kind other) : Overlays other base r := by
  have hSame (v : Variable) (hv : ∀ k : BackendKind, v ∉ k.variables) : other v = env v :=
    hAgree v (.inr hv)
  obtain ⟨kind, start, hKind, hStart, hOverlays⟩ := h.backend
  rw [hOverlays.kind_eq] at hAgree
  exact
    { chunkSize := h.chunkSize.congr (hSame _ (by rintro ⟨⟩ <;> decide))
      backend := ⟨kind, start, hKind.congr (hSame _ (by rintro ⟨⟩ <;> decide)), hStart,
        hOverlays.congr hAgree⟩
      codecKind := h.codecKind.congr (hSame _ (by rintro ⟨⟩ <;> decide))
      rawType := h.rawType.congr (hSame _ (by rintro ⟨⟩ <;> decide))
      rawLayers := h.rawLayers.congr (hSame _ (by rintro ⟨⟩ <;> decide))
      rawHidden := h.rawHidden.congr (hSame _ (by rintro ⟨⟩ <;> decide))
      level := by
        rw [hSame .logLevel (by rintro ⟨⟩ <;> decide)]
        exact h.level
      logFormat := h.logFormat.congr (hSame _ (by rintro ⟨⟩ <;> decide))
      outputPath := h.outputPath }

/-- What an overlay does with every environment: the first text that must be a name and is none is
reported as it stands, and otherwise each setting is as its variables say. -/
structure OverlayRule (base : Settings) (env : Environment) : Prop where
  fails : (∃ e, base.overlay env = .error e) ↔ ∃ refuses ∈ refusals env, ∃ e, refuses e
  reports : ∀ e, base.overlay env = .error e ↔ FirstError (refusals env) e
  succeeds : ∀ r, base.overlay env = .ok r ↔ Overlays env base r
  ignores : ∀ r other, base.overlay env = .ok r → env.AgreesFor r.backend.kind other →
    base.overlay other = .ok r

theorem overlay_decided (base : Settings) (env : Environment) : OverlayRule base env where
  fails := by
    simp only [overlay_eq_error_iff]
    exact exists_firstError_iff
  reports _ := overlay_eq_error_iff
  succeeds _ := overlay_eq_ok_iff
  ignores _ _ h hAgree := overlay_eq_ok_iff.mpr ((overlay_eq_ok_iff.mp h).congr hAgree)

/-- Blanks, capitals and a plus sign make no difference, nor does a variable about a service. -/
example :
    let env : Environment
      | .backend => some " LMDB "
      | .mapSize => some "+7"
      | .connectTimeout => some "9"
      | _ => none
    Settings.overlay {} env = .ok { backend := .mapped { mapSize := 7 } } := by
  decide +kernel

end Settings

end LatentCache
