import LatentCache.Command.Smoke

/-!
# Exit codes

Validation and the smoke test load the same settings. Both report settings that do not load as a
configuration error. Settings that load but cannot work are one for validation alone: the smoke test
finds the flaw inside the test and reports that the test failed.
-/

namespace LatentCache.Command

variable {env : Environment} {host : Host} {s : Settings} {flaw : Flaw} {e : SettingsError}

/-! ## Validation -/

theorem validate_of_unloaded (hLoad : Settings.load host.files env = .error e) :
    validate host.files env = .failure configurationError ["ERROR: " ++ e.message] := by
  rw [validate, hLoad]

theorem validate_of_flaw (hLoad : Settings.load host.files env = .ok s)
    (hFlaw : s.validate = .error flaw) :
    validate host.files env = .failure configurationError
      ["ERROR: " ++ (SettingsError.invalid flaw).message] := by
  rw [validate, hLoad]
  dsimp only
  rw [hFlaw]

theorem validate_of_valid (hLoad : Settings.load host.files env = .ok s)
    (hValid : s.validate = .ok ()) :
    validate host.files env = .success ["Configuration is valid."] := by
  rw [validate, hLoad]
  dsimp only
  rw [hValid]

/-! ## The smoke test -/

theorem smoke_of_unloaded (hLoad : Settings.load host.files env = .error e) :
    smoke env host = (.failure configurationError ["Error: " ++ e.message], host) := by
  rw [smoke, hLoad]

/-- Nothing is opened, and the flaw is reported as a failed test. -/
theorem smoke_of_flaw (hLoad : Settings.load host.files env = .ok s)
    (hFlaw : s.validate = .error flaw) :
    smoke env host =
      (⟨1, [], ["Smoke test FAILED: " ++ (SettingsError.invalid flaw).message]⟩, host) := by
  rw [smoke, hLoad]
  dsimp only
  rw [Smoke.run, hFlaw]
  rfl

theorem code_smoke_of_loaded (hLoad : Settings.load host.files env = .ok s) :
    (smoke env host).1.code = 0 ∨ (smoke env host).1.code = 1 := by
  rw [smoke, hLoad]
  dsimp only
  rcases Smoke.run s host with ⟨printed, _ | _, later⟩
  · exact .inr rfl
  · exact .inl rfl

/-! ## Agreement -/

theorem code_validate_eq_two_iff : (validate host.files env).code = 2 ↔
    (∃ e, Settings.load host.files env = .error e) ∨
      ∃ s flaw, Settings.load host.files env = .ok s ∧ s.validate = .error flaw := by
  cases hLoad : Settings.load host.files env with
  | error e =>
    rw [validate_of_unloaded hLoad]
    exact iff_of_true rfl (.inl ⟨e, rfl⟩)
  | ok s =>
    cases hValid : s.validate with
    | error flaw =>
      rw [validate_of_flaw hLoad hValid]
      exact iff_of_true rfl (.inr ⟨s, flaw, rfl, hValid⟩)
    | ok _ =>
      rw [validate_of_valid hLoad hValid]
      refine iff_of_false (by decide) ?_
      rintro (⟨e, hError⟩ | ⟨_, flaw, hSame, hFlaw⟩)
      · cases hError
      · cases hSame
        cases hValid.symm.trans hFlaw

theorem code_smoke_eq_two_iff :
    (smoke env host).1.code = 2 ↔ ∃ e, Settings.load host.files env = .error e := by
  cases hLoad : Settings.load host.files env with
  | error e =>
    rw [smoke_of_unloaded hLoad]
    exact iff_of_true rfl ⟨e, rfl⟩
  | ok s =>
    have hCode := code_smoke_of_loaded hLoad
    refine iff_of_false (by omega) ?_
    rintro ⟨e, hError⟩
    cases hError

theorem code_smoke_of_ne_two (h : (smoke env host).1.code ≠ 2) :
    (smoke env host).1.code = 0 ∨ (smoke env host).1.code = 1 := by
  cases hLoad : Settings.load host.files env with
  | error e => exact absurd (code_smoke_eq_two_iff.mpr ⟨e, hLoad⟩) h
  | ok s => exact code_smoke_of_loaded hLoad

/-- Settings that do not load are a configuration error, exit code 2, to both commands, and for
settings that load the smoke test ends with 0 or 1. So the two agree on what a configuration error
is exactly where no settings are loaded that have a flaw. -/
theorem exit_codes_agree_iff (env : Environment) (host : Host) :
    (((smoke env host).1.code = 2 ↔ (validate host.files env).code = 2) ↔
      ∀ s flaw, Settings.load host.files env = .ok s → s.validate ≠ .error flaw) ∧
    ((smoke env host).1.code = 2 ↔ ∃ e, Settings.load host.files env = .error e) ∧
    ((smoke env host).1.code ≠ 2 →
      (smoke env host).1.code = 0 ∨ (smoke env host).1.code = 1) := by
  refine ⟨?_, code_smoke_eq_two_iff, code_smoke_of_ne_two⟩
  rw [code_smoke_eq_two_iff, code_validate_eq_two_iff]
  constructor
  · intro hAgree s flaw hLoad hFlaw
    obtain ⟨e, hError⟩ := hAgree.mpr (.inr ⟨s, flaw, hLoad, hFlaw⟩)
    cases hLoad.symm.trans hError
  · intro hNoFlaw
    constructor
    · exact .inl
    · rintro (hError | ⟨s, flaw, hLoad, hFlaw⟩)
      · exact hError
      · exact absurd hFlaw (hNoFlaw s flaw hLoad)

def noPositions : Environment
  | .chunkSize => some "0"
  | _ => none

/-- Chunks of no positions are refused by validation, and the smoke test calls itself failed. -/
theorem noPositions_disagree :
    (smoke noPositions (.ofFiles .empty)).1 =
      ⟨1, [], ["Smoke test FAILED: Invalid configuration: chunk_size must be positive"]⟩ ∧
    validate .empty noPositions =
      ⟨2, [], ["ERROR: Invalid configuration: chunk_size must be positive"]⟩ ∧
    ¬((smoke noPositions (.ofFiles .empty)).1.code = 2 ↔
      (validate (Host.ofFiles .empty).files noPositions).code = 2) := by
  let s : Settings := { chunkSize := 0 }
  have hLoad : Settings.load (Host.ofFiles .empty).files noPositions = .ok s := rfl
  have hFlaw : s.validate = .error .zeroChunkSize := rfl
  have hSmoke := smoke_of_flaw hLoad hFlaw
  have hValidate := validate_of_flaw hLoad hFlaw
  refine ⟨?_, hValidate, ?_⟩
  · rw [hSmoke]
    decide +kernel
  · rw [hSmoke, hValidate]
    decide

end LatentCache.Command
