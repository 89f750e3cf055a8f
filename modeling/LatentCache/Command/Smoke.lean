import LatentCache.Command.Config
import LatentCache.Cache.Retrieve
import LatentCache.Cache.Store

/-!
# The smoke test

Stores a synthetic sequence in the chosen storage, retrieves it and compares. Storage that lasts
may be tested twice: the second run overwrites the same records with equal ones.
-/

namespace LatentCache.Command

/-- The complete chunks of the synthetic sequence; half a chunk follows them. -/
def smokeChunks : Nat := 3

inductive SmokeFailure where
  | settings (flaw : Flaw)
  | cache (e : CacheError)
  | latent (e : LatentError)
  | coverage (covered expected : Nat)
  | noLatent
  | difference
deriving DecidableEq

def SmokeFailure.message : SmokeFailure → String
  | settings flaw => (SettingsError.invalid flaw).message
  | cache e => e.message
  | latent e => e.message
  | coverage covered expected => s!"retrieved {covered} tokens, expected {expected}"
  | noLatent => "retrieve returned no latent"
  | difference => "retrieved latent differs from stored latent"

namespace Smoke

def sequenceLength (chunkSize : Nat) : Nat :=
  Size.add (Size.mul chunkSize smokeChunks) (chunkSize / 2)

def tokens (length : Nat) : List Token :=
  (List.range (length % 4294967296)).map fun i => UInt32.ofNat i * 2654435761

/-- The element type, layers and hidden dimension of the synthetic latent; a self-describing codec
leaves them open. -/
def dimensions (s : CodecSettings) : ElementType × Nat × Nat :=
  match s.kind with
  | .raw => (s.rawType, s.rawLayers, s.rawHidden)
  | .selfDescribing => (.f16, 2, 8)

/-- The numbers up to 250 again and again, all of them exact in every element type. -/
def latent (s : CodecSettings) (length : Nat) : Except LatentError Latent :=
  let (type, layers, hidden) := dimensions s
  let dims := [layers, length, hidden]
  Latent.ofElements type dims ((List.range (Size.prod dims)).map fun i => type.bitsOfNat (i % 251))

def compare (chunkSize : Nat) (x : Latent) (r : Retrieved) : Except SmokeFailure Unit := do
  let expected := Size.mul smokeChunks chunkSize
  if r.tokensCovered ≠ expected then throw (.coverage r.tokensCovered expected)
  let some restored := r.latent? | throw .noLatent
  let stored ← (x.narrow 0 expected).mapError SmokeFailure.latent
  if restored ≠ stored then throw .difference

def report (backend : BackendKind) (codec : CodecKind) (stored : Stored) (r : Retrieved) :
    List String :=
  ["BACKEND=" ++ backend.name, "CODEC=" ++ codec.name,
    s!"CHUNKS_WRITTEN={stored.chunksWritten}", s!"BYTES_WRITTEN={stored.bytesWritten}",
    s!"TOKENS_COVERED={r.tokensCovered}"]

/-- Stores and retrieves with a cache; the lines printed, and the failure if there is one. -/
def exercise (s : Settings) (cache : Cache) (backend : Backend) (host : Host) :
    List String × Except SmokeFailure Unit × Host :=
  let length := sequenceLength cache.chunkSize
  let ts := tokens length
  match latent s.codec length with
  | .error e => ([], .error (.latent e), host)
  | .ok x =>
    match cache.store backend.medium ts x 0 { storage := host } with
    | (.error e, session) => ([], .error (.cache e), session.storage)
    | (.ok stored, session) =>
      match cache.retrieve backend.medium ts session with
      | (.error e, session) => ([], .error (.cache e), session.storage)
      | (.ok r, session) =>
        (report backend.kind cache.codec.kind stored r, compare cache.chunkSize x r,
          session.storage)

def run (s : Settings) (host : Host) : List String × Except SmokeFailure Unit × Host :=
  match s.validate with
  | .error flaw => ([], .error (.settings flaw), host)
  | .ok () =>
    match Cache.ofSettings s host with
    | (.error e, host) => ([], .error (.cache e), host)
    | (.ok (cache, backend), host) => exercise s cache backend host

end Smoke

def smoke (env : Environment) (host : Host) : Outcome × Host :=
  match Settings.load host.files env with
  | .error e => (.failure configurationError ["Error: " ++ e.message], host)
  | .ok s =>
    match Smoke.run s host with
    | (printed, .ok (), host) => (.success (printed ++ ["Smoke test passed."]), host)
    | (printed, .error e, host) => (⟨1, printed, ["Smoke test FAILED: " ++ e.message]⟩, host)

end LatentCache.Command
