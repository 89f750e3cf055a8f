import LatentCache.Command.Smoke

/-!
# Command lines

The commands that a command line can name, and what each of them does.
-/

namespace LatentCache

inductive CommandLine where
  | usage
  | help (topic : String)
  | version
  | showSettings (json : Bool)
  | showDefaults
  | validate
  | smoke
  | unknown (name : String)
  | unknownOfSettings (name : String)
deriving DecidableEq

namespace CommandLine

open Command (Outcome)

def ofSettingsArguments : List String → CommandLine
  | [] => .showSettings false
  | "show" :: "--json" :: _ => .showSettings true
  | "show" :: _ => .showSettings false
  | "defaults" :: _ => .showDefaults
  | "validate" :: _ => .validate
  | name :: _ => .unknownOfSettings name

def ofHelpArguments : List String → CommandLine
  | [] => .usage
  | topic :: _ => .help topic

def ofArguments : List String → CommandLine
  | [] => .usage
  | "help" :: rest => ofHelpArguments rest
  | "--help" :: rest => ofHelpArguments rest
  | "-h" :: rest => ofHelpArguments rest
  | "version" :: _ => .version
  | "--version" :: _ => .version
  | "-V" :: _ => .version
  | "config" :: rest => ofSettingsArguments rest
  | "smoke" :: _ => .smoke
  | name :: _ => .unknown name

def versionNumber : String := "0.8.1"

def usageLines : List String :=
  ["gg-latent - prefix latent cache tooling v" ++ versionNumber,
    "",
    "USAGE:",
    "    gg-latent [COMMAND] [OPTIONS]",
    "",
    "COMMANDS:",
    "    config       Inspect configuration (show, defaults, validate)",
    "    smoke        Store and retrieve a synthetic sequence",
    "    version      Show version information",
    "    help         Show this help message",
    "",
    "EXAMPLES:",
    "    gg-latent config show --json",
    "    GG_LATENT_BACKEND=lmdb gg-latent smoke",
    "",
    "ENVIRONMENT:",
    "    GG_LATENT_CONFIG      Path to a TOML config file",
    "    GG_LATENT_BACKEND     memory, lmdb, redis, redis-pipelined",
    "    GG_LATENT_CHUNK_SIZE  Tokens per chunk (default 256)",
    "    GG_LATENT_LOG_LEVEL   Log filter (default info)",
    "",
    "EXIT CODES:",
    "    0  Success",
    "    1  Failure",
    "    2  Configuration error"]

def settingsHelpLines : List String :=
  ["gg-latent config [show [--json]|defaults|validate]",
    "",
    "    show      Print effective configuration (file + env)",
    "    defaults  Print built-in defaults",
    "    validate  Exit 0 if the configuration is usable, 2 otherwise"]

def smokeHelpLines : List String :=
  ["gg-latent smoke",
    "",
    "    Opens the configured backend, stores a synthetic sequence of three full",
    "    chunks plus a partial tail, retrieves it and compares the result."]

def helpLines : String → List String
  | "config" => settingsHelpLines
  | "smoke" => smokeHelpLines
  | _ => usageLines

/-- Installs a receiver of events as the settings in force say. Settings that cannot be loaded
install none; they are reported later. -/
def installLog (env : Environment) (host : Host) : Option String × Host :=
  match Settings.load host.files env with
  | .error _ => (none, host)
  | .ok s =>
    match s.log.install false host.files with
    | (.ok (), files) => (none, { host with files := files })
    | (.error e, files) =>
      (some ("WARNING: logging disabled: " ++ e.message), { host with files := files })

def smokeWithLog (env : Environment) (host : Host) : Outcome × Host :=
  match installLog env host with
  | (none, host) => Command.smoke env host
  | (some warning, host) =>
    let (outcome, host) := Command.smoke env host
    (outcome.warn warning, host)

def run (env : Environment) (host : Host) : CommandLine → Outcome × Host
  | .usage => (⟨0, [], usageLines⟩, host)
  | .help topic => (⟨0, [], helpLines topic⟩, host)
  | .version => (.success ["gg-latent " ++ versionNumber], host)
  | .showSettings json => (Command.showSettings json host.files env, host)
  | .showDefaults => (Command.showDefaults, host)
  | .validate => (Command.validate host.files env, host)
  | .smoke => smokeWithLog env host
  | .unknown name => (.failure 1 (("Unknown command: " ++ name) :: usageLines), host)
  | .unknownOfSettings name =>
    (.failure 1 (("Unknown config subcommand: " ++ name) :: settingsHelpLines), host)

end CommandLine

end LatentCache
