import DbApi.Library.Except
import DbApi.Proofs.RepoRoot
import DbApi.Runtime.ConfigLoad

/-! What a configuration that is loaded says, and of which settings. -/

namespace DbApi.Proofs.Configuration
open Library Common DbApi.Runtime RepoRoot

/-- What is set, and the text that it is set to. -/
abbrev Setting := Override × Bytes

inductive Value where
  | number (value : Int)
  | directory (path : Bytes)

def readValue : Override → Bytes → Option Value
  | .port, text | .workerCount, text => (parseIntValue text).map .number
  | .repoRoot, text | .schemaDir, text | .dataDir, text =>
    if text = [] ∨ serverRuntimePathMax ≤ text.length then none else some (.directory text)

def valueOf (config : ServerRuntimeConfig) : Override → Value
  | .port => .number config.port
  | .workerCount => .number config.workerCount
  | .repoRoot => .directory config.repoRoot
  | .schemaDir => .directory config.schemaDir
  | .dataDir => .directory config.dataDir

/-- Every text can be read as what it is to set. -/
def Readable (settings : List Setting) : Prop :=
  ∀ setting ∈ settings, (readValue setting.1 setting.2).isSome

theorem readable_cons {option : Override} {text : Bytes} {settings : List Setting} :
    Readable ((option, text) :: settings) ↔ (readValue option text).isSome ∧ Readable settings :=
  List.forall_mem_cons

/-- The last text that the settings have for an option. -/
def lastGiven : List Setting → Override → Option Bytes
  | [], _ => none
  | (other, text) :: rest, option =>
    (lastGiven rest option).or (if other = option then some text else none)

/-- A command line, with the positional arguments before it, and what it sets. -/
inductive CommandLine : Nat → List Bytes → List Setting → Prop
  | done (count : Nat) : CommandLine count [] []
  | help {count : Nat} {argument : Bytes} {arguments : List Bytes} {settings : List Setting}
      (asks : isHelp argument = true) (rest : CommandLine count arguments settings) :
      CommandLine count (argument :: arguments) settings
  | option {count : Nat} {argument value : Bytes} {arguments : List Bytes}
      {settings : List Setting} {option : Override} (plain : isHelp argument = false)
      (named : optionOf argument = some option) (rest : CommandLine count arguments settings) :
      CommandLine count (argument :: value :: arguments) ((option, value) :: settings)
  | positional {count : Nat} {argument : Bytes} {arguments : List Bytes}
      {settings : List Setting} {option : Override} (plain : isHelp argument = false)
      (unnamed : optionOf argument = none) (free : looksLikeOption argument = false)
      (place : Runtime.positional count = some option)
      (rest : CommandLine (count + 1) arguments settings) :
      CommandLine count (argument :: arguments) ((option, argument) :: settings)

/-- What the environment sets: a variable that is empty sets nothing. -/
def environmentSettings (getenv : Bytes → Option Bytes) :
    List (Override × Bytes) → List Setting
  | [] => []
  | (option, name) :: names =>
    match getenv name with
    | none | some [] => environmentSettings getenv names
    | some value => (option, value) :: environmentSettings getenv names

section Settings

variable {s s' s'' : Loading} {settings later : List Setting} {option : Override}
  {invalid text : Bytes}

/-- The settings are taken: of each option the last one, and what none sets stays. -/
structure Takes (settings : List Setting) (s s' : Loading) : Prop where
  given : ∀ option text, lastGiven settings option = some text →
    readValue option text = some (valueOf s'.config option)
  kept : ∀ option, lastGiven settings option = none →
    valueOf s'.config option = valueOf s.config option
  overridden : ∀ option, s'.overridden option =
    (s.overridden option || (lastGiven settings option).isSome)

theorem Takes.refl (s : Loading) : Takes [] s s :=
  ⟨fun _ _ h => (by cases h), fun _ _ => rfl, fun option => (Bool.or_false _).symm⟩

theorem lastGiven_append (settings later : List Setting) (option : Override) :
    lastGiven (settings ++ later) option =
      (lastGiven later option).or (lastGiven settings option) := by
  induction settings with
  | nil => simp [lastGiven]
  | cons setting settings ih =>
    obtain ⟨other, text⟩ := setting
    rw [List.cons_append, lastGiven, ih, lastGiven, Option.or_assoc]

theorem Takes.trans (h : Takes settings s s') (h' : Takes later s' s'') :
    Takes (settings ++ later) s s'' := by
  refine ⟨fun option text hlast => ?_, fun option hnone => ?_, fun option => ?_⟩
  · rw [lastGiven_append] at hlast
    cases hl : lastGiven later option with
    | some text' =>
      rw [hl] at hlast
      cases hlast
      exact h'.given option text hl
    | none =>
      rw [hl] at hlast
      rw [h'.kept option hl]
      exact h.given option text hlast
  · rw [lastGiven_append, Option.or_eq_none_iff] at hnone
    exact (h'.kept option hnone.1).trans (h.kept option hnone.2)
  · rw [h'.overridden, h.overridden, lastGiven_append, Option.isSome_or, Bool.or_assoc,
      Bool.or_comm (lastGiven settings option).isSome]

theorem directory_ok {path : Bytes} (h : applyDirectoryOverride text = .ok path) :
    path = text ∧ text ≠ [] ∧ text.length < serverRuntimePathMax := by
  unfold applyDirectoryOverride copyText at h
  split at h
  · cases h
  · rename_i hne
    split at h
    · rename_i hfits
      cases h
      exact ⟨rfl, hne, hfits⟩
    · cases h

theorem readValue_directory (hne : text ≠ []) (hfits : text.length < serverRuntimePathMax) :
    (if text = [] ∨ serverRuntimePathMax ≤ text.length then none
      else some (Value.directory text)) = some (.directory text) :=
  if_neg (not_or.mpr ⟨hne, Nat.not_le.mpr hfits⟩)

/-- One override sets its own option to what the text reads as, and no other. -/
theorem override_ok (h : applyOverride option invalid text s = .ok s') :
    ∃ config, s' = s.mark option config ∧
      readValue option text = some (valueOf config option) ∧
      ∀ other ≠ option, valueOf config other = valueOf s.config other := by
  cases option with
  | port | workerCount =>
    simp only [applyOverride] at h
    cases hn : parseIntValue text with
    | none => simp [hn] at h
    | some number =>
      rw [hn] at h
      cases h
      refine ⟨_, rfl, by simp [readValue, hn, valueOf], fun other hother => ?_⟩
      cases other <;> first | rfl | exact absurd rfl hother
  | repoRoot | schemaDir | dataDir =>
    simp only [applyOverride] at h
    obtain ⟨path, hpath, hset⟩ := except_bind_ok.mp h
    obtain ⟨rfl, hne, hfits⟩ := directory_ok hpath
    cases hset
    refine ⟨_, rfl, readValue_directory hne hfits, fun other hother => ?_⟩
    cases other <;> first | rfl | exact absurd rfl hother

theorem override_iff : (∃ s', applyOverride option invalid text s = .ok s') ↔
    (readValue option text).isSome := by
  constructor
  · rintro ⟨s', h⟩
    obtain ⟨config, -, hread, -⟩ := override_ok h
    rw [hread]
    rfl
  · intro h
    cases option with
    | port | workerCount =>
      cases hn : parseIntValue text with
      | none => simp [readValue, hn] at h
      | some number => simp [applyOverride, hn]
    | repoRoot | schemaDir | dataDir =>
      have hread : ¬ (text = [] ∨ serverRuntimePathMax ≤ text.length) := by
        intro hbad
        simp [readValue, hbad] at h
      rw [not_or, Nat.not_le] at hread
      simp [applyOverride, applyDirectoryOverride, copyText, hread, bind, Except.bind, pure,
        Except.pure]

theorem override_takes (h : applyOverride option invalid text s = .ok s') :
    Takes [(option, text)] s s' := by
  obtain ⟨config, rfl, hread, hkept⟩ := override_ok h
  refine ⟨fun other text' hlast => ?_, fun other hnone => ?_, fun other => ?_⟩
  · simp only [lastGiven] at hlast
    split at hlast
    · rename_i hsame
      cases hlast
      subst hsame
      exact hread
    · cases hlast
  · simp only [lastGiven] at hnone
    split at hnone
    · cases hnone
    · rename_i hother
      exact hkept other (Ne.symm hother)
  · by_cases hsame : option = other
    · subst hsame
      simp [Loading.mark, lastGiven]
    · simp [Loading.mark, lastGiven, hsame, Ne.symm hsame]

theorem variables_take (getenv : Bytes → Option Bytes) {names : List (Override × Bytes)}
    (h : loadVariables getenv names s = .ok s') :
    Readable (environmentSettings getenv names) ∧
      Takes (environmentSettings getenv names) s s' := by
  induction names generalizing s with
  | nil =>
    cases h
    exact ⟨List.forall_mem_nil _, .refl _⟩
  | cons entry names ih =>
    obtain ⟨option, name⟩ := entry
    rw [loadVariables] at h
    rw [environmentSettings]
    cases hvalue : getenv name with
    | none =>
      rw [hvalue] at h
      exact ih h
    | some value =>
      rw [hvalue] at h
      cases value with
      | nil => exact ih h
      | cons first rest =>
        obtain ⟨s₁, hfirst, hrest⟩ := except_bind_ok.mp h
        obtain ⟨hreads, htakes⟩ := ih hrest
        exact ⟨readable_cons.mpr ⟨override_iff.mp ⟨s₁, hfirst⟩, hreads⟩,
          (override_takes hfirst).trans htakes⟩

theorem variables_accepted (getenv : Bytes → Option Bytes) {names : List (Override × Bytes)}
    (h : Readable (environmentSettings getenv names)) (s : Loading) :
    ∃ s', loadVariables getenv names s = .ok s' := by
  induction names generalizing s with
  | nil => exact ⟨s, rfl⟩
  | cons entry names ih =>
    obtain ⟨option, name⟩ := entry
    rw [environmentSettings] at h
    rw [loadVariables]
    cases hvalue : getenv name with
    | none =>
      rw [hvalue] at h
      exact ih h s
    | some value =>
      rw [hvalue] at h
      cases value with
      | nil => exact ih h s
      | cons first rest =>
        obtain ⟨hfirst, hrest⟩ := readable_cons.mp h
        obtain ⟨s₁, hset⟩ := (@override_iff s option
          (ascii "invalid " ++ name ++ ascii " value: ") (first :: rest)).mpr hfirst
        dsimp only
        rw [hset, except_ok_bind]
        exact ih hrest s₁

/-- Asking for help sets nothing. -/
theorem Takes.after_help (h : Takes settings
    { s with config := { s.config with showHelp := true } } s') : Takes settings s s' := by
  refine ⟨h.given, fun option hnone => ?_, h.overridden⟩
  rw [h.kept option hnone]
  cases option <;> rfl

/-- A command line that is accepted is one, and its settings are taken. -/
theorem arguments_take {arguments : List Bytes} {count : Nat}
    (h : loadCliOverrides arguments count s = .ok s') :
    ∃ settings, CommandLine count arguments settings ∧ Readable settings ∧
      Takes settings s s' := by
  fun_induction loadCliOverrides arguments count s with
  | case1 count s =>
    cases h
    exact ⟨[], .done count, List.forall_mem_nil _, .refl _⟩
  | case2 argument rest count s hhelp ih =>
    obtain ⟨settings, hline, hreads, htakes⟩ := ih h
    exact ⟨settings, .help hhelp hline, hreads, htakes.after_help⟩
  | case3 => cases h
  | case4 argument count s hhelp option hoption value rest ih =>
    obtain ⟨s₁, hfirst, hrest⟩ := except_bind_ok.mp h
    obtain ⟨settings, hline, hreads, htakes⟩ := ih s₁ hrest
    have hall := readable_cons.mpr ⟨override_iff.mp ⟨s₁, hfirst⟩, hreads⟩
    exact ⟨_, .option (by simpa using hhelp) hoption hline, hall,
      (override_takes hfirst).trans htakes⟩
  | case5 => cases h
  | case6 argument rest count s hhelp hoption hfree option hplace ih =>
    obtain ⟨s₁, hfirst, hrest⟩ := except_bind_ok.mp h
    obtain ⟨settings, hline, hreads, htakes⟩ := ih s₁ hrest
    have hall := readable_cons.mpr ⟨override_iff.mp ⟨s₁, hfirst⟩, hreads⟩
    exact ⟨_, .positional (by simpa using hhelp) hoption (by simpa using hfree) hplace hline,
      hall, (override_takes hfirst).trans htakes⟩
  | case7 => cases h

theorem arguments_accepted {arguments : List Bytes} {count : Nat}
    (hline : CommandLine count arguments settings) (hreads : Readable settings) (s : Loading) :
    ∃ s', loadCliOverrides arguments count s = .ok s' := by
  induction hline generalizing s with
  | done count => exact ⟨s, rfl⟩
  | help asks rest ih =>
    rw [loadCliOverrides, if_pos asks]
    exact ih hreads _
  | @option count argument value arguments settings option plain named rest ih =>
    obtain ⟨hfirst, hrest⟩ := readable_cons.mp hreads
    obtain ⟨s₁, hset⟩ := (@override_iff s option (invalidArgument option) value).mpr hfirst
    rw [loadCliOverrides, if_neg (by simp [plain])]
    simp only [named, hset, except_ok_bind]
    exact ih hrest s₁
  | @positional count argument arguments settings option plain unnamed free place rest ih =>
    obtain ⟨hfirst, hrest⟩ := readable_cons.mp hreads
    obtain ⟨s₁, hset⟩ := (@override_iff s option (invalidArgument option) argument).mpr hfirst
    rw [loadCliOverrides, if_neg (by simp [plain])]
    simp only [unnamed, free, place, hset, except_ok_bind]
    exact ih hrest s₁

end Settings

/-- Where a directory is that no setting gives. -/
def DefaultPath (repoRoot name path : Bytes) : Prop :=
  ∃ projectRoot, joinPath repoRoot (ascii "week8-team7-db-api") = .ok projectRoot ∧
    joinPath projectRoot name = .ok path

/-- What the server needs of its configuration. -/
structure Valid (files : FileSystem) (config : ServerRuntimeConfig) : Prop where
  port : 1 ≤ config.port ∧ config.port ≤ 65535
  workerCount : 1 ≤ config.workerCount
  schemaDir : directoryExists files config.schemaDir = true
  dataDir : directoryExists files config.dataDir = true
  repoRoot : config.repoRoot ≠ [] → directoryExists files config.repoRoot = true

/-- The configuration is valid and says what the settings say, or else the defaults. -/
structure Configured (files : FileSystem) (given : Override → Option Bytes)
    (config : ServerRuntimeConfig) : Prop extends Valid files config where
  port_given : ∀ text, given .port = some text → parseIntValue text = some config.port
  port_default : given .port = none → config.port = 8080
  workers_given : ∀ text, given .workerCount = some text →
    parseIntValue text = some config.workerCount
  workers_default : given .workerCount = none → config.workerCount = 4
  root_given : ∀ path, given .repoRoot = some path → config.repoRoot = trimTrailingSeparators path
  root_found : given .repoRoot = none → config.repoRoot ≠ [] →
    isRepoRoot files config.repoRoot = true
  schema_given : ∀ path, given .schemaDir = some path → config.schemaDir = path
  schema_default : given .schemaDir = none →
    DefaultPath config.repoRoot (ascii "schema") config.schemaDir
  data_given : ∀ path, given .dataDir = some path → config.dataDir = path
  data_default : given .dataDir = none →
    DefaultPath config.repoRoot (ascii "data") config.dataDir

section Loading

variable {s : Surroundings} {files : FileSystem} {rounds : Nat} {loading : Loading}
  {config config' : ServerRuntimeConfig} {text path : Bytes}

theorem validate_iff : validateConfig files config = .ok () ↔ Valid files config := by
  unfold validateConfig
  constructor
  · intro h
    split_ifs at h with hport hworkers hnoSchema hnoData hschema hdata hroot
    rw [not_or, Int.not_lt, Int.not_lt] at hport
    refine ⟨hport, Int.not_lt.mp hworkers, by simpa using hschema, by simpa using hdata, ?_⟩
    intro hne
    simpa using fun hmissing => hroot ⟨hne, hmissing⟩
  · intro h
    have hne : ∀ path, directoryExists files path = true → path ≠ [] := by
      intro path hexists heq
      rw [heq] at hexists
      cases hexists
    rw [if_neg (by have := h.port; omega), if_neg (by have := h.workerCount; omega),
      if_neg (hne _ h.schemaDir), if_neg (hne _ h.dataDir), if_neg (by simp [h.schemaDir]),
      if_neg (by simp [h.dataDir]), if_neg fun hroot => by simp [h.repoRoot hroot.1] at hroot]

theorem find_accepted {start root : Bytes} {found : Search Bytes}
    (h : findRepoRootFromStart files rounds start = some found) (hroot : found.result = some root) :
    isRepoRoot files root = true := by
  unfold findRepoRootFromStart at h
  split at h
  · cases h
    cases hroot
  · exact search_accepted h hroot

theorem find_root {start : Bytes} {found : Search Bytes}
    (h : findRepoRootFromStart files rounds start = some found) (hne : found.result.getD [] ≠ []) :
    isRepoRoot files (found.result.getD []) = true := by
  cases hresult : found.result with
  | none =>
    rw [hresult] at hne
    exact absurd rfl hne
  | some root => exact find_accepted h hresult

/-- The root is the one that was set, or one that the search accepts. -/
theorem resolve_ok (h : resolveRepoRoot files rounds config = some (.ok config')) :
    (∃ repoRoot, config' = { config with repoRoot }) ∧
      (config.repoRoot ≠ [] → config'.repoRoot = trimTrailingSeparators config.repoRoot) ∧
      (config.repoRoot = [] → config'.repoRoot ≠ [] →
        isRepoRoot files config'.repoRoot = true) := by
  unfold resolveRepoRoot at h
  by_cases hset : config.repoRoot = []
  · rw [if_neg (not_not.mpr hset)] at h
    have hroot : ∃ repoRoot, config' = { config with repoRoot } ∧
        (repoRoot ≠ [] → isRepoRoot files repoRoot = true) := by
      cases hfind : findRepoRootFromStart files rounds config.workingDirectory with
      | none =>
        rw [hfind] at h
        cases h
      | some found =>
        obtain ⟨visited, result⟩ := found
        rw [hfind] at h
        cases result with
        | some root =>
          cases h
          exact ⟨root, rfl, fun _ => find_accepted hfind rfl⟩
        | none =>
          dsimp only at h
          cases hprogram : resolveProgramDirectory config.programPath config.workingDirectory with
          | error message =>
            rw [hprogram] at h
            cases h
          | ok directory =>
            rw [hprogram] at h
            dsimp only at h
            cases hagain : findRepoRootFromStart files rounds directory with
            | none =>
              rw [hagain] at h
              cases h
            | some found =>
              rw [hagain] at h
              cases h
              exact ⟨_, rfl, find_root hagain⟩
    obtain ⟨root, rfl, hfound⟩ := hroot
    exact ⟨⟨root, rfl⟩, fun hne => absurd hset hne, fun _ => hfound⟩
  · rw [if_pos hset] at h
    cases h
    exact ⟨⟨_, rfl⟩, fun _ => rfl, fun hnone => absurd hnone hset⟩

/-- A directory that was overridden stays, any other one is put below the root. -/
structure Located (loading : Loading) (option : Override) (own name path : Bytes) : Prop where
  kept : loading.overridden option = true → path = own
  placed : loading.overridden option = false → DefaultPath loading.config.repoRoot name path

theorem located {option : Override} {own name projectRoot : Bytes}
    (hroot : joinPath loading.config.repoRoot (ascii "week8-team7-db-api") = .ok projectRoot)
    (h : derivePath (loading.overridden option) own projectRoot name = .ok path) :
    Located loading option own name path := by
  unfold derivePath at h
  split at h
  · rename_i hset
    cases h
    exact ⟨fun _ => rfl, fun hfalse => by simp [hset] at hfalse⟩
  · rename_i hset
    exact ⟨fun htrue => absurd htrue hset, fun _ => ⟨projectRoot, hroot, h⟩⟩

/-- Where an option was overridden just when it was given, its directory says so. -/
theorem Located.says {option : Override} {own name : Bytes} {given : Override → Option Bytes}
    (hl : Located loading option own name path)
    (hmark : loading.overridden option = (given option).isSome) :
    (∀ text, given option = some text → path = own) ∧
      (given option = none → DefaultPath loading.config.repoRoot name path) := by
  refine ⟨fun text hg => hl.kept ?_, fun hn => hl.placed ?_⟩
  · rw [hmark, hg]
    rfl
  · rw [hmark, hn]
    rfl

theorem derive_ok (h : deriveDefaultPaths loading = .ok config) :
    ∃ schemaDir dataDir, config = { loading.config with schemaDir, dataDir } ∧
      Located loading .schemaDir loading.config.schemaDir (ascii "schema") schemaDir ∧
      Located loading .dataDir loading.config.dataDir (ascii "data") dataDir := by
  unfold deriveDefaultPaths at h
  dsimp only at h
  split at h
  · split at h
    · cases h
    · rename_i hboth
      simp only [Bool.or_eq_true, Bool.not_eq_true', not_or, Bool.not_eq_false] at hboth
      cases h
      exact ⟨_, _, rfl, ⟨fun _ => rfl, fun hfalse => by simp [hboth] at hfalse⟩,
        ⟨fun _ => rfl, fun hfalse => by simp [hboth] at hfalse⟩⟩
  · obtain ⟨projectRoot, hroot, h⟩ := except_bind_ok.mp h
    obtain ⟨schemaDir, hschema, h⟩ := except_bind_ok.mp h
    obtain ⟨dataDir, hdata, h⟩ := except_bind_ok.mp h
    cases h
    exact ⟨schemaDir, dataDir, rfl, located hroot hschema, located hroot hdata⟩

theorem start_ok (h : startLoading s = .ok loading) :
    loading.config.port = 8080 ∧ loading.config.workerCount = 4 ∧ loading.config.repoRoot = [] ∧
      ∀ option, loading.overridden option = false := by
  obtain ⟨programPath, -, h⟩ := except_bind_ok.mp h
  cases hdirectory : s.getcwd with
  | none =>
    rw [hdirectory] at h
    cases h
  | some directory =>
    rw [hdirectory] at h
    cases h
    exact ⟨rfl, rfl, rfl, fun _ => rfl⟩

theorem number_given {number : Int}
    (hread : (parseIntValue text).map Value.number = some (.number number)) :
    parseIntValue text = some number := by
  obtain ⟨value, hvalue, hnumber⟩ := Option.map_eq_some_iff.mp hread
  cases hnumber
  exact hvalue

theorem directory_given (hread : (if text = [] ∨ serverRuntimePathMax ≤ text.length then none
      else some (Value.directory text)) = some (.directory path)) : path = text ∧ path ≠ [] := by
  split at hread
  · cases hread
  · rename_i hne
    cases hread
    exact ⟨rfl, fun hnil => hne (.inl hnil)⟩

theorem start_iff : (∃ loading, startLoading s = .ok loading) ↔
    (s.program.getD []).length < serverRuntimePathMax ∧ s.getcwd.isSome = true := by
  unfold startLoading copyText
  by_cases hfits : (s.program.getD []).length < serverRuntimePathMax
  · rw [if_pos hfits]
    cases hdirectory : s.getcwd with
    | none => simp [bind, Except.bind]
    | some directory => simp [hfits, bind, Except.bind, pure, Except.pure]
  · rw [if_neg hfits]
    simp [hfits, bind, Except.bind]

/-- All settings, those of the command line last. -/
def allSettings (s : Surroundings) (settings : List Setting) : List Setting :=
  environmentSettings s.getenv environmentNames ++ settings

/-- The server is called in a way that it understands. -/
structure Called (s : Surroundings) (settings : List Setting) : Prop where
  program : (s.program.getD []).length < serverRuntimePathMax
  directory : s.getcwd.isSome = true
  line : CommandLine 0 s.arguments settings
  readable : Readable (allSettings s settings)

theorem overrides_ok (h : loadOverrides s = .ok loading) :
    ∃ start settings, startLoading s = .ok start ∧ Called s settings ∧
      Takes (allSettings s settings) start loading := by
  obtain ⟨start, hstart, h⟩ := except_bind_ok.mp h
  obtain ⟨loaded, hvariables, harguments⟩ := except_bind_ok.mp h
  obtain ⟨settings, hline, hreads, htakes⟩ := arguments_take harguments
  obtain ⟨hnames, htaken⟩ := variables_take s.getenv hvariables
  obtain ⟨hprogram, hdirectory⟩ := start_iff.mp ⟨start, hstart⟩
  exact ⟨start, settings, hstart, ⟨hprogram, hdirectory, hline,
    List.forall_mem_append.mpr ⟨hnames, hreads⟩⟩, htaken.trans htakes⟩

theorem overrides_iff :
    (∃ loading, loadOverrides s = .ok loading) ↔ ∃ settings, Called s settings := by
  constructor
  · rintro ⟨loading, h⟩
    obtain ⟨_, settings, -, hcalled, -⟩ := overrides_ok h
    exact ⟨settings, hcalled⟩
  · rintro ⟨settings, hcalled⟩
    obtain ⟨hnames, hreads⟩ := List.forall_mem_append.mp hcalled.readable
    obtain ⟨start, hstart⟩ := start_iff.mpr ⟨hcalled.program, hcalled.directory⟩
    obtain ⟨loaded, hloaded⟩ := variables_accepted s.getenv hnames start
    obtain ⟨loading, hloading⟩ := arguments_accepted hcalled.line hreads loaded
    refine ⟨loading, ?_⟩
    rw [loadOverrides, hstart, except_ok_bind, loadEnvOverrides, hloaded, except_ok_bind]
    exact hloading

/-- A configuration for a run comes from settings, the ones given last. -/
theorem load_configured (h : serverRuntimeConfigLoad s rounds = some (.ok config))
    (hruns : config.showHelp = false) :
    ∃ settings, Called s settings ∧
      Configured s.files (lastGiven (allSettings s settings)) config := by
  unfold serverRuntimeConfigLoad at h
  cases hoverrides : loadOverrides s with
  | error message =>
    rw [hoverrides] at h
    cases h
  | ok loading =>
  rw [hoverrides] at h
  dsimp only at h
  split at h
  · rename_i hhelp
    cases h
    rw [hhelp] at hruns
    cases hruns
  cases hresolve : resolveRepoRoot s.files rounds loading.config with
  | none =>
    rw [hresolve] at h
    cases h
  | some resolved =>
  rw [hresolve] at h
  cases resolved with
  | error message => cases h
  | ok rooted =>
  obtain ⟨start, settings, hstart, hcalled, htakes⟩ := overrides_ok hoverrides
  obtain ⟨hport, hworkers, hnoRoot, hnone⟩ := start_ok hstart
  refine ⟨settings, hcalled, ?_⟩
  obtain ⟨hgiven, hkept, hmarked⟩ := htakes
  generalize lastGiven (allSettings s settings) = given at hgiven hkept hmarked ⊢
  have hoverridden : ∀ option, loading.overridden option = (given option).isSome := by
    intro option
    rw [hmarked, hnone, Bool.false_or]
  obtain ⟨derived, hderive, h⟩ := except_bind_ok.mp (Option.some.inj h)
  obtain ⟨_, hvalid, h⟩ := except_bind_ok.mp h
  cases h
  obtain ⟨⟨root, rfl⟩, hset, hsearched⟩ := resolve_ok hresolve
  obtain ⟨schemaDir, dataDir, rfl, hschema, hdata⟩ := derive_ok hderive
  have hschemas := hschema.says (hoverridden .schemaDir)
  have hdatas := hdata.says (hoverridden .dataDir)
  refine ⟨validate_iff.mp hvalid, ?_, ?_, ?_, ?_, ?_, ?_, ?_, ?_, ?_, ?_⟩
  · exact fun text hg => number_given (hgiven .port text hg)
  · exact fun hn => (Value.number.inj (hkept .port hn)).trans hport
  · exact fun text hg => number_given (hgiven .workerCount text hg)
  · exact fun hn => (Value.number.inj (hkept .workerCount hn)).trans hworkers
  · intro path hg
    obtain ⟨heq, hne⟩ := directory_given (hgiven .repoRoot path hg)
    exact (hset hne).trans (congrArg trimTrailingSeparators heq)
  · exact fun hn => hsearched ((Value.directory.inj (hkept .repoRoot hn)).trans hnoRoot)
  · exact fun path hg => (hschemas.1 path hg).trans (directory_given (hgiven .schemaDir path hg)).1
  · exact hschemas.2
  · exact fun path hg => (hdatas.1 path hg).trans (directory_given (hgiven .dataDir path hg)).1
  · exact hdatas.2

/-- A server that is called in a way that it does not understand ends at once. Otherwise the
configuration that it runs with is valid, and each value of it is the one that is set last: on the
command line, else in the environment, else the default. -/
theorem config_loaded (s : Surroundings) (rounds : Nat) :
    ((∀ settings, ¬ Called s settings) →
      ∃ message, serverRuntimeConfigLoad s rounds = some (.error message)) ∧
    ∀ config, serverRuntimeConfigLoad s rounds = some (.ok config) → config.showHelp = false →
      ∃ settings, Called s settings ∧
        Configured s.files (lastGiven (allSettings s settings)) config := by
  refine ⟨fun hnot => ?_, fun config h hruns => load_configured h hruns⟩
  unfold serverRuntimeConfigLoad
  cases hoverrides : loadOverrides s with
  | error message => exact ⟨message, rfl⟩
  | ok loading =>
    obtain ⟨settings, hcalled⟩ := overrides_iff.mp ⟨loading, hoverrides⟩
    exact absurd hcalled (hnot settings)

end Loading

/-- A server that is started in its repository. -/
def localSurroundings : Surroundings :=
  { program := some (ascii "db_server")
    arguments := [ascii "9000", ascii "--data-dir", ascii "/d", ascii "--port", ascii "9001"]
    getenv := fun name => if name = ascii "DB_SERVER_WORKERS" then some (ascii "8") else none
    getcwd := some (ascii "/r")
    files := fun path =>
      if path = ascii "/r/PLAN.md" then some .other
      else if [ascii "/r", ascii "/r/SERVER-RUNTIME", ascii "/r/week8-team7-db-api",
        ascii "/r/week8-team7-db-api/schema", ascii "/d"].contains path then some .directory
      else none }

def localConfig : ServerRuntimeConfig :=
  { serverRuntimeConfigInit with
    port := 9001
    workerCount := 8
    programPath := ascii "db_server"
    workingDirectory := ascii "/r"
    repoRoot := ascii "/r"
    schemaDir := ascii "/r/week8-team7-db-api/schema"
    dataDir := ascii "/d" }

theorem load_local :
    serverRuntimeConfigLoad localSurroundings 1 = some (.ok localConfig) := by
  have htrim : trimTrailingSeparators (ascii "/r") = ascii "/r" := trim_eq_self (by decide)
  have hload : loadOverrides localSurroundings = .ok ⟨{ serverRuntimeConfigInit with
      port := 9001
      workerCount := 8
      programPath := ascii "db_server"
      workingDirectory := trimTrailingSeparators (ascii "/r")
      dataDir := ascii "/d" }, fun option =>
        decide (option = .port) || (decide (option = .dataDir) || (decide (option = .port) ||
          (decide (option = .workerCount) || false)))⟩ := rfl
  have hfind : findRepoRootFromStart localSurroundings.files 1 (ascii "/r") =
      some ⟨[ascii "/r"], some (ascii "/r")⟩ := by
    rw [findRepoRootFromStart, if_neg (by decide), htrim]
    rfl
  rw [serverRuntimeConfigLoad, hload, htrim]
  dsimp only
  rw [if_neg (by decide), resolveRepoRoot, if_neg (by decide)]
  dsimp only
  rw [hfind]
  rfl

theorem config_loaded_local :
    ∃ settings, Called localSurroundings settings ∧
      Configured localSurroundings.files (lastGiven (allSettings localSurroundings settings))
        localConfig :=
  (config_loaded localSurroundings 1).2 localConfig load_local rfl

end DbApi.Proofs.Configuration
