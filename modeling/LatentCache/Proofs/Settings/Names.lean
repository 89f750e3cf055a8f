import LatentCache.Proofs.Text
import LatentCache.Proofs.Traversal
import LatentCache.Settings.Overlay

/-!
# Choices by name

Four variables choose by name. Their readers take a name between blanks and in any case of its
letters, and refuse every other text as it stands.
-/

namespace LatentCache

/-- A variable that chooses by name: the names of each choice, and what is said of a text that is
not among them. -/
structure NameChoice (α : Type) where
  key : Variable
  names : α → List String
  refusal : String → String

namespace NameChoice

variable {α : Type} (c : NameChoice α) (env : Environment)

/-- The text is a name of the choice, between blanks and whatever the case of its letters. -/
def Names (a : α) (text : String) : Prop :=
  ∃ name ∈ c.names a, ∃ inner, Text.Trims text.toList inner ∧
    Text.SameButCase inner name.toList

/-- What the environment chooses where `present` is in force. -/
inductive Chooses (present : α) : α → Prop where
  | absent : env c.key = none → Chooses present present
  | named {text : String} {a : α} : env c.key = some text → c.Names a text → Chooses present a

/-- The variable is present and no name of any choice. -/
def Refuses (e : SettingsError) : Prop :=
  ∃ text, env c.key = some text ∧ (∀ a, ¬c.Names a text) ∧
    e = .invalidValue c.key text (c.refusal (Environment.trimmed text).toLower)

/-- The function reads the names of the choice, which stand in lower case. -/
structure ReadBy {ε : Type} (parse : String → Except ε α) (reason : ε → String) : Prop where
  accepts : ∀ text a, parse text = .ok a ↔ text.toLower ∈ c.names a
  refuses : ∀ text e, parse text = .error e → reason e = c.refusal text.toLower
  lower : ∀ a, ∀ name ∈ c.names a, name.toList.map Char.toLower = name.toList

variable {c} {env}

/-- The readers of names differ in their tables and in what they say of other texts. -/
theorem ReadBy.of_named? {ε : Type} {parse : String → Except ε α} {reason : ε → String}
    (named? : String → Option α) (unknown : String → ε)
    (hParse : ∀ text, parse text =
      (named? text.toLower).elim (.error (unknown text.toLower)) .ok)
    (hNamed : ∀ name a, named? name = some a → name ∈ c.names a)
    (hNames : ∀ a, ∀ name ∈ c.names a, named? name = some a)
    (hLower : ∀ a, ∀ name ∈ c.names a, name.toList.map Char.toLower = name.toList)
    (hReason : ∀ name, reason (unknown name) = c.refusal name) : c.ReadBy parse reason where
  accepts text a := by
    rw [hParse]
    constructor
    · intro h
      apply hNamed
      cases hName : named? text.toLower with
      | none =>
        rw [hName] at h
        cases h
      | some b =>
        rw [hName] at h
        cases h
        rfl
    · intro h
      rw [hNames a _ h]
      rfl
  refuses text e h := by
    rw [hParse] at h
    cases hName : named? text.toLower with
    | none =>
      rw [hName] at h
      cases h
      exact hReason _
    | some b =>
      rw [hName] at h
      cases h
  lower := hLower

theorem names_iff {ε : Type} {parse : String → Except ε α} {reason : ε → String}
    (h : c.ReadBy parse reason) {text : String} {a : α} :
    c.Names a text ↔ (Environment.trimmed text).toLower ∈ c.names a := by
  have hLower : (Environment.trimmed text).toLower.toList =
      (Text.trim text.toList).map Char.toLower := by
    change (String.map Char.toLower (Environment.trimmed text)).toList = _
    rw [String.toList_map, Environment.trimmed, String.toList_ofList]
  constructor
  · rintro ⟨name, hName, inner, hTrims, hSame⟩
    have hEq : (Environment.trimmed text).toLower = name := by
      apply String.toList_injective
      rw [hLower, hTrims.trim_eq, ← h.lower a name hName]
      exact hSame
    rw [hEq]
    exact hName
  · intro hName
    refine ⟨_, hName, _, Text.trims_trim text.toList, ?_⟩
    rw [Text.SameButCase, h.lower a _ hName, hLower]

theorem Chooses.congr {other : Environment} {present a : α} (h : c.Chooses env present a)
    (hSame : other c.key = env c.key) : c.Chooses other present a := by
  cases h with
  | absent hAbsent => exact .absent (hSame.trans hAbsent)
  | named hText hNames => exact .named (hSame.trans hText) hNames

theorem choice_eq_ok_iff {ε : Type} {parse : String → Except ε α} {reason : ε → String}
    (h : c.ReadBy parse reason) {present a : α} :
    env.choice c.key parse reason present = .ok a ↔ c.Chooses env present a := by
  rw [Environment.choice]
  constructor
  · intro hChoice
    split at hChoice
    next hAbsent =>
      cases hChoice
      exact .absent hAbsent
    next text hText =>
      exact .named hText ((names_iff h).mpr
        ((h.accepts _ _).mp (mapError_eq_ok_iff.mp hChoice)))
  · rintro (hAbsent | ⟨hText, hNames⟩)
    · rw [hAbsent]
    · rw [hText]
      exact mapError_eq_ok_iff.mpr ((h.accepts _ _).mpr ((names_iff h).mp hNames))

theorem choice_eq_error_iff {ε : Type} {parse : String → Except ε α} {reason : ε → String}
    (h : c.ReadBy parse reason) {present : α} {e : SettingsError} :
    env.choice c.key parse reason present = .error e ↔ c.Refuses env e := by
  rw [Environment.choice]
  constructor
  · intro hChoice
    split at hChoice
    next => cases hChoice
    next text hText =>
      cases hParse : parse (Environment.trimmed text) with
      | ok a =>
        rw [hParse] at hChoice
        cases hChoice
      | error fault =>
        rw [hParse] at hChoice
        cases hChoice
        refine ⟨text, hText, ?_, ?_⟩
        · intro a hNames
          cases hParse.symm.trans ((h.accepts _ a).mpr ((names_iff h).mp hNames))
        · exact congrArg _ (h.refuses _ _ hParse)
  · rintro ⟨text, hText, hNone, rfl⟩
    rw [hText]
    cases hParse : parse (Environment.trimmed text) with
    | ok a => exact absurd ((names_iff h).mpr ((h.accepts _ a).mp hParse)) (hNone a)
    | error fault =>
      rw [← h.refuses _ _ hParse]
      simp only [hParse, Except.mapError]

def backend : NameChoice BackendKind where
  key := .backend
  names
    | .memory => ["memory", "map"]
    | .mapped => ["lmdb"]
    | .service => ["redis"]
    | .pipelined => ["redis-pipelined", "redis_pipelined"]
  refusal text := "unknown backend '" ++ text ++ "'"

def codec : NameChoice CodecKind where
  key := .codec
  names
    | .selfDescribing => ["safetensors", "self-describing"]
    | .raw => ["raw", "raw-view"]
  refusal text := "Unknown codec: " ++ text

def rawType : NameChoice ElementType where
  key := .rawType
  names
    | .f16 => ["f16", "float16", "half"]
    | .bf16 => ["bf16", "bfloat16"]
    | .f32 => ["f32", "float32", "float"]
  refusal text := "Unknown element type: " ++ text

def logFormat : NameChoice LogFormat where
  key := .logFormat
  names
    | .json => ["json"]
    | .pretty => ["pretty"]
  refusal text := "Unknown log format: " ++ text

theorem backend_readBy : backend.ReadBy BackendKind.parse UnknownBackend.message := by
  apply ReadBy.of_named? BackendKind.named? UnknownBackend.mk
  · intro text
    rw [BackendKind.parse]
    cases BackendKind.named? text.toLower <;> rfl
  · intro name k h
    unfold BackendKind.named? at h
    split at h <;> cases h <;> decide
  · intro k
    cases k <;> decide
  · intro k
    cases k <;> decide
  · intro name
    rfl

theorem codec_readBy : codec.ReadBy CodecKind.parse CodecError.message := by
  apply ReadBy.of_named? CodecKind.named? CodecError.unknownCodec
  · intro text
    rw [CodecKind.parse]
    cases CodecKind.named? text.toLower <;> rfl
  · intro name k h
    unfold CodecKind.named? at h
    split at h <;> cases h <;> decide
  · intro k
    cases k <;> decide
  · intro k
    cases k <;> decide
  · intro name
    rfl

theorem rawType_readBy : rawType.ReadBy ElementType.parse LatentError.message := by
  apply ReadBy.of_named? ElementType.named? LatentError.unknownType
  · intro text
    rw [ElementType.parse]
    cases ElementType.named? text.toLower <;> rfl
  · intro name t h
    unfold ElementType.named? at h
    split at h <;> cases h <;> decide
  · intro t
    cases t <;> decide
  · intro t
    cases t <;> decide
  · intro name
    rfl

theorem logFormat_readBy : logFormat.ReadBy LogFormat.parse LogError.message := by
  apply ReadBy.of_named? LogFormat.named? LogError.unknownFormat
  · intro text
    rw [LogFormat.parse]
    cases LogFormat.named? text.toLower <;> rfl
  · intro name f h
    unfold LogFormat.named? at h
    split at h <;> cases h <;> decide
  · intro f
    cases f <;> decide
  · intro f
    cases f <;> decide
  · intro name
    rfl

theorem names_of_mem {α : Type} {c : NameChoice α} {a : α} {name : String} (h : name ∈ c.names a)
    (hPlain : (name.toList.all fun x => !Text.isBlank x) = true) : c.Names a name := by
  have hTrim : Text.trim name.toList = name.toList := by
    apply Text.trim_eq_self
    simpa using hPlain
  exact ⟨name, h, name.toList, Text.trims_iff.mpr hTrim.symm, rfl⟩

theorem backend_names_name (k : BackendKind) : backend.Names k k.name := by
  apply names_of_mem <;> cases k <;> decide

theorem codec_names_name (k : CodecKind) : codec.Names k k.name := by
  apply names_of_mem <;> cases k <;> decide

theorem rawType_names_name (t : ElementType) : rawType.Names t t.name := by
  apply names_of_mem <;> cases t <;> decide

theorem logFormat_names_name (f : LogFormat) : logFormat.Names f f.name := by
  apply names_of_mem <;> cases f <;> decide

end NameChoice

end LatentCache
