import DbApi.Common.Util
import DbApi.Runtime.RuntimeConfig

namespace DbApi.Runtime
open Library Common

structure ServerRuntimeConfig where
  port : Int
  workerCount : Int
  showHelp : Bool
  programPath : Bytes
  workingDirectory : Bytes
  repoRoot : Bytes
  schemaDir : Bytes
  dataDir : Bytes

def serverRuntimeConfigInit : ServerRuntimeConfig :=
  { port := 8080, workerCount := 4, showHelp := false, programPath := [], workingDirectory := [],
    repoRoot := [], schemaDir := [], dataDir := [] }

/-- What the environment and the command line may override. -/
inductive Override where
  | port
  | workerCount
  | repoRoot
  | schemaDir
  | dataDir
deriving DecidableEq

/-- The configuration and, as in `ServerRuntimeOverrideState`, what was overridden. -/
structure Loading where
  config : ServerRuntimeConfig
  overridden : Override → Bool

def Loading.mark (s : Loading) (option : Override) (config : ServerRuntimeConfig) : Loading :=
  { config, overridden := fun other => decide (other = option) || s.overridden other }

def copyText (source : Bytes) : Except Bytes Bytes :=
  if source.length < serverRuntimePathMax then .ok source
  else .error (clip errorSize (ascii "path is too long: " ++ source))

/-- The same calls as in `parse_int_strict`. -/
def parseIntValue (text : Bytes) : Option Int := parseIntStrict text

def applyDirectoryOverride (value : Bytes) : Except Bytes Bytes :=
  if value = [] then .error (ascii "empty directory path is not allowed") else copyText value

/-- One override, with the text before a number that cannot be read. -/
def applyOverride (option : Override) (invalid value : Bytes) (s : Loading) :
    Except Bytes Loading :=
  match option with
  | .port =>
    match parseIntValue value with
    | none => .error (clip errorSize (invalid ++ value))
    | some port => .ok (s.mark .port { s.config with port })
  | .workerCount =>
    match parseIntValue value with
    | none => .error (clip errorSize (invalid ++ value))
    | some workerCount => .ok (s.mark .workerCount { s.config with workerCount })
  | .repoRoot => do
    let repoRoot ← applyDirectoryOverride value
    return s.mark .repoRoot { s.config with repoRoot }
  | .schemaDir => do
    let schemaDir ← applyDirectoryOverride value
    return s.mark .schemaDir { s.config with schemaDir }
  | .dataDir => do
    let dataDir ← applyDirectoryOverride value
    return s.mark .dataDir { s.config with dataDir }

/-- What `server_runtime_config_load` finds around it: `argv`, `getenv`, `getcwd` and `stat`. -/
structure Surroundings where
  program : Option Bytes
  arguments : List Bytes
  getenv : Bytes → Option Bytes
  getcwd : Option Bytes
  files : FileSystem

def environmentNames : List (Override × Bytes) :=
  [(.port, ascii "DB_SERVER_PORT"), (.workerCount, ascii "DB_SERVER_WORKERS"),
    (.repoRoot, ascii "DB_SERVER_REPO_ROOT"), (.schemaDir, ascii "DB_SCHEMA_DIR"),
    (.dataDir, ascii "DB_DATA_DIR")]

/-- The variables one after another; one that is empty counts as unset. -/
def loadVariables (getenv : Bytes → Option Bytes) :
    List (Override × Bytes) → Loading → Except Bytes Loading
  | [], s => .ok s
  | (option, name) :: rest, s =>
    match getenv name with
    | none | some [] => loadVariables getenv rest s
    | some value => do
      let s ← applyOverride option (ascii "invalid " ++ name ++ ascii " value: ") value s
      loadVariables getenv rest s

def loadEnvOverrides (getenv : Bytes → Option Bytes) (s : Loading) : Except Bytes Loading :=
  loadVariables getenv environmentNames s

def isHelp (argument : Bytes) : Bool := argument == ascii "-h" || argument == ascii "--help"

/-- The option that takes the next argument as its value. -/
def optionOf (argument : Bytes) : Option Override :=
  if argument = ascii "--port" then some .port
  else if argument = ascii "--workers" ∨ argument = ascii "--worker-count" then some .workerCount
  else if argument = ascii "--repo-root" then some .repoRoot
  else if argument = ascii "--schema-dir" then some .schemaDir
  else if argument = ascii "--data-dir" then some .dataDir
  else none

/-- The first positional argument is the port, the second one the number of workers. -/
def positional : Nat → Option Override
  | 0 => some .port
  | 1 => some .workerCount
  | _ => none

def invalidArgument (option : Override) : Bytes :=
  if option = .workerCount then ascii "invalid worker count value: "
  else ascii "invalid port value: "

def looksLikeOption (argument : Bytes) : Bool := argument.head? == some 45 && 1 < argument.length

def loadCliOverrides : List Bytes → Nat → Loading → Except Bytes Loading
  | [], _, s => .ok s
  | argument :: rest, positionalCount, s =>
    if isHelp argument then
      loadCliOverrides rest positionalCount { s with config := { s.config with showHelp := true } }
    else
      match optionOf argument with
      | some option =>
        match rest with
        | [] => .error (clip errorSize (ascii "missing value after " ++ argument))
        | value :: rest => do
          let s ← applyOverride option (invalidArgument option) value s
          loadCliOverrides rest positionalCount s
      | none =>
        if looksLikeOption argument then
          .error (clip errorSize (ascii "unknown option: " ++ argument))
        else
          match positional positionalCount with
          | some option => do
            let s ← applyOverride option (invalidArgument option) argument s
            loadCliOverrides rest (positionalCount + 1) s
          | none => .error (clip errorSize (ascii "unexpected extra argument: " ++ argument))

def pathIsAbsolute (path : Bytes) : Bool :=
  match path with
  | [] => false
  | first :: rest =>
    isSeparator first || (rest.head? == some colon && (rest.tail.head?.all isSeparator))

def resolveProgramDirectory (programPath workingDirectory : Bytes) : Except Bytes Bytes :=
  if programPath.any isSeparator then do
    let absolutePath ←
      if pathIsAbsolute programPath then copyText programPath
      else joinPath workingDirectory programPath
    let programDirectory ← copyText absolutePath
    let (found, parent) := parentDirectory programDirectory
    return if found then parent else []
  else .ok []

/-- The result is `none` when a search needs more rounds. -/
def resolveRepoRoot (files : FileSystem) (rounds : Nat) (config : ServerRuntimeConfig) :
    Option (Except Bytes ServerRuntimeConfig) :=
  if config.repoRoot ≠ [] then
    some (.ok { config with repoRoot := trimTrailingSeparators config.repoRoot })
  else
    match findRepoRootFromStart files rounds config.workingDirectory with
    | none => none
    | some ⟨_, some repoRoot⟩ => some (.ok { config with repoRoot })
    | some ⟨_, none⟩ =>
      match resolveProgramDirectory config.programPath config.workingDirectory with
      | .error message => some (.error message)
      | .ok programDirectory =>
        match findRepoRootFromStart files rounds programDirectory with
        | none => none
        | some found => some (.ok { config with repoRoot := found.result.getD [] })

/-- A directory that was overridden stays. -/
def derivePath (overridden : Bool) (own projectRoot name : Bytes) : Except Bytes Bytes :=
  if overridden then .ok own else joinPath projectRoot name

def deriveDefaultPaths (s : Loading) : Except Bytes ServerRuntimeConfig :=
  let config := s.config
  if config.repoRoot = [] then
    if !s.overridden .schemaDir || !s.overridden .dataDir then
      .error (clip errorSize (ascii "failed to infer repo root; set " ++
        ascii "DB_SERVER_REPO_ROOT" ++ ascii " or pass --repo-root/--schema-dir/--data-dir"))
    else .ok config
  else do
    let projectRoot ← joinPath config.repoRoot (ascii "week8-team7-db-api")
    let schemaDir ←
      derivePath (s.overridden .schemaDir) config.schemaDir projectRoot (ascii "schema")
    let dataDir ← derivePath (s.overridden .dataDir) config.dataDir projectRoot (ascii "data")
    return { config with schemaDir, dataDir }

def validateConfig (files : FileSystem) (config : ServerRuntimeConfig) : Except Bytes Unit :=
  if config.port < 1 ∨ 65535 < config.port then
    .error (ascii "port must be between 1 and 65535")
  else if config.workerCount < 1 then .error (ascii "worker count must be at least 1")
  else if config.schemaDir = [] then .error (ascii "schema directory is not configured")
  else if config.dataDir = [] then .error (ascii "data directory is not configured")
  else if directoryExists files config.schemaDir = false then
    .error (clip errorSize (ascii "schema directory does not exist: " ++ config.schemaDir))
  else if directoryExists files config.dataDir = false then
    .error (clip errorSize (ascii "data directory does not exist: " ++ config.dataDir))
  else if config.repoRoot ≠ [] ∧ directoryExists files config.repoRoot = false then
    .error (clip errorSize (ascii "repo root does not exist: " ++ config.repoRoot))
  else .ok ()

/-- What is known of the configuration before any override. -/
def startLoading (s : Surroundings) : Except Bytes Loading := do
  let programPath ← copyText (s.program.getD [])
  match s.getcwd with
  | none => .error (ascii "failed to resolve current working directory")
  | some directory =>
    return {
      config := { serverRuntimeConfigInit with
        programPath, workingDirectory := trimTrailingSeparators directory }
      overridden := fun _ => false }

def loadOverrides (s : Surroundings) : Except Bytes Loading := do
  let loading ← startLoading s
  let loading ← loadEnvOverrides s.getenv loading
  loadCliOverrides s.arguments 0 loading

/-- The defaults and the checks, once the root is known. -/
def finishLoading (files : FileSystem) (loading : Loading) : Except Bytes ServerRuntimeConfig := do
  let config ← deriveDefaultPaths loading
  validateConfig files config
  return config

/-- The result is `none` when the search for the root needs more rounds. -/
def serverRuntimeConfigLoad (s : Surroundings) (rounds : Nat) :
    Option (Except Bytes ServerRuntimeConfig) :=
  match loadOverrides s with
  | .error message => some (.error message)
  | .ok loading =>
    if loading.config.showHelp then some (.ok loading.config)
    else
      match resolveRepoRoot s.files rounds loading.config with
      | none => none
      | some (.error message) => some (.error message)
      | some (.ok config) => some (finishLoading s.files { loading with config })

end DbApi.Runtime
