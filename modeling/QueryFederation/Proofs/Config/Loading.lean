import Mathlib.Data.List.Forall2
import QueryFederation.Config.Loading
import QueryFederation.Files.Tree
import QueryFederation.Proofs.Config.Validation
import QueryFederation.Proofs.Files.Paths

/-!
# Configurations that are loaded from files

Loading a configuration file comes to what its text comes to: it succeeds if the text is read and valid, and it
fails with the fault of the text otherwise.  The only thing that the place of the file decides is the fixture
paths.  A relative one is seen from the directory of the file, and an absolute one stays.  What comes of this is
a valid configuration again; and if the directory is absolute, nothing relative is left in it, so seeing it
from anywhere else changes nothing.
-/

namespace QueryFederation

open QueryFederation.Path (IsDirectoryOf isAbsolute)

/-- That an entry is another one whose fixture is seen from a directory. -/
structure BackendEntry.SeenFrom (directory : String) (entry seen : BackendEntry) : Prop where
  name : seen.name = entry.name
  absolute : isAbsolute entry.fixture = true -> seen.fixture = entry.fixture
  relative : isAbsolute entry.fixture = false ->
    seen.fixture = Path.join directory entry.fixture ∧
      Path.steps seen.fixture = Path.steps directory ++ Path.steps entry.fixture

namespace FederationConfig

/-- That a configuration is another one whose relative fixtures are seen from a directory. -/
structure SeenFrom (directory : String) (config seen : FederationConfig) : Prop where
  antiAffinityMillis : seen.antiAffinityMillis = config.antiAffinityMillis
  timeoutMillis : seen.timeoutMillis = config.timeoutMillis
  backends : List.Forall₂ (BackendEntry.SeenFrom directory) config.backends seen.backends

/-! ## Fixtures seen from a base -/

theorem seenFrom_resolveFixtures (config : FederationConfig) (directory : String) :
    config.SeenFrom directory (config.resolveFixtures directory) where
  antiAffinityMillis := rfl
  timeoutMillis := rfl
  backends := by
    rw [resolveFixtures, List.forall₂_map_right_iff, List.forall₂_same]
    intro entry _
    constructor
    case name => rfl
    case absolute =>
      intro absolute
      exact if_pos absolute
    case relative =>
      intro relative
      have joined : Path.resolve directory entry.fixture = Path.join directory entry.fixture := by
        rw [Path.resolve, relative, if_neg Bool.false_ne_true]
      exact ⟨joined, (congrArg Path.steps joined).trans (Path.steps_join directory entry.fixture)⟩

theorem names_resolveFixtures (config : FederationConfig) (base : String) :
    (config.resolveFixtures base).names = config.names := by
  rw [names, resolveFixtures, List.map_map]
  rfl

theorem IsSound.resolveFixtures {config : FederationConfig} (sound : config.IsSound) (base : String) :
    (config.resolveFixtures base).IsSound where
  nonempty := mt List.map_eq_nil_iff.mp sound.nonempty
  filled := by
    intro seen isSeen
    rcases List.mem_map.mp isSeen with ⟨entry, isEntry, rfl⟩
    have filled := sound.filled entry isEntry
    exact ⟨filled.1, Path.resolve_ne_empty base filled.2⟩
  distinct := (config.names_resolveFixtures base).symm ▸ sound.distinct

/-- Fixtures that were seen from an absolute directory are not changed by seeing them from elsewhere. -/
theorem resolveFixtures_resolveFixtures {directory : String} (absolute : isAbsolute directory = true)
    (config : FederationConfig) (base : String) :
    (config.resolveFixtures directory).resolveFixtures base = config.resolveFixtures directory := by
  refine FederationConfig.ext rfl rfl ?_
  rw [resolveFixtures, resolveFixtures, List.map_map]
  apply List.map_congr_left
  intro entry _
  exact congrArg (BackendEntry.mk entry.name) (Path.resolve_resolve absolute base entry.fixture)

/-! ## Loading -/

theorem validate_of_parse {format : ConfigFormat} {text : String} {config : FederationConfig}
    (read : parse format text = .ok config) : config.validate = .ok config := by
  unfold parse at read
  split at read
  · rw [validate_eq_ok_iff] at read
    rw [validate_eq_ok_iff, read.1]
    exact ⟨rfl, read.2⟩
  · cases read

/-- A path whose extension is supported leads to a file in a directory. -/
theorem exists_directory_of_format {path : String} {format : ConfigFormat}
    (supported : ConfigFormat.ofPath path = .ok format) : exists directory, IsDirectoryOf directory path := by
  cases named : Path.fileName? path with
  | none =>
      rw [ConfigFormat.ofPath, Path.extension?, named] at supported
      cases supported
  | some name => exact Path.exists_directory named

theorem ofFile_eq {path directory : String} (isDirectory : IsDirectoryOf directory path)
    (format : ConfigFormat) (text : String) :
    ofFile path format text = (parse format text).map fun config => config.resolveFixtures directory := by
  rw [ofFile, isDirectory.parent]

section Load

variable {m : Type -> Type} [Monad m] [LawfulMonad m] {path : String} {format : ConfigFormat}

/-- The file is read once, and only what was read decides what comes of loading it. -/
theorem load_eq_map (supported : ConfigFormat.ofPath path = .ok format) (files : FileAccess m) :
    load files path =
      (fun
        | .ok text => ofFile path format text
        | .error fault => .error (.file fault)) <$> files.read path := by
  rw [load, supported, map_eq_pure_bind]
  refine bind_congr fun reading => ?_
  cases reading <;> rfl

/-- Loading a file under a supported extension comes to what its text comes to, with relative fixtures seen
from the directory of the file. -/
theorem load_exact (supported : ConfigFormat.ofPath path = .ok format) (files : FileAccess m) :
    exists (directory : String) (outcome : String -> Except Fault FederationConfig),
      IsDirectoryOf directory path ∧
      load files path =
        (fun
          | .ok text => outcome text
          | .error fault => .error (.file fault)) <$> files.read path ∧
      forall text : String,
        ((exists loaded, outcome text = .ok loaded) <-> exists config, parse format text = .ok config) ∧
        (forall fault, outcome text = .error fault <-> parse format text = .error fault) ∧
        forall config loaded, parse format text = .ok config -> outcome text = .ok loaded ->
          config.SeenFrom directory loaded ∧ loaded.validate = .ok loaded ∧
            (isAbsolute directory = true -> forall base, loaded.resolveFixtures base = loaded) := by
  rcases exists_directory_of_format supported with ⟨directory, isDirectory⟩
  refine ⟨directory, ofFile path format, isDirectory, load_eq_map supported files, fun text => ?_⟩
  rw [ofFile_eq isDirectory]
  cases read : parse format text with
  | error fault =>
      exact ⟨iff_of_false (fun isLoaded => nomatch isLoaded) (fun isRead => nomatch isRead),
        fun _ => Iff.rfl, fun _ _ isRead => nomatch isRead⟩
  | ok config =>
      refine ⟨iff_of_true ⟨_, rfl⟩ ⟨_, rfl⟩, fun _ => iff_of_false nofun nofun, ?_⟩
      intro _ loaded isConfig isLoaded
      cases isConfig
      cases isLoaded
      have sound : config.IsSound := (validate_eq_ok_iff.mp (validate_of_parse read)).2
      refine ⟨config.seenFrom_resolveFixtures directory, ?_, ?_⟩
      · exact validate_eq_ok_iff.mpr ⟨rfl, sound.resolveFixtures directory⟩
      · exact fun absolute base => resolveFixtures_resolveFixtures absolute config base

end Load

/-- A relative and an absolute fixture, in a file whose path has an empty name and a single point in it. -/
theorem load_exact_detour :
    let text := "[[backends]]\nname = \"a\"\nfixture = \"./a.json\"\n\n" ++
      "[[backends]]\nname = \"b\"\nfixture = \"/b.json\"\n"
    let system : FileSystem :=
      ⟨.directory [("etc", .directory [("promfed.TOML", .file text.toUTF8)])], []⟩
    ConfigFormat.ofPath "/etc/.//promfed.TOML" = .ok .toml ∧
      exists loaded, load system.access "/etc/.//promfed.TOML" = .ok loaded ∧
        loaded.backends = [⟨"a", "/etc/./a.json"⟩, ⟨"b", "/b.json"⟩] ∧
        forall base, loaded.resolveFixtures base = loaded := by
  intro text system
  let config : FederationConfig :=
    ⟨10000, none, [⟨"a", "./a.json"⟩, ⟨"b", "/b.json"⟩], by decide, by decide⟩
  have supported : ConfigFormat.ofPath "/etc/.//promfed.TOML" = .ok .toml := by decide +kernel
  have isText : system.read "/etc/.//promfed.TOML" = .ok text := by decide +kernel
  have read : parse .toml text = .ok config := by decide +kernel
  have named : Path.parent? "/etc/.//promfed.TOML" = some "/etc" := by decide +kernel
  rcases load_exact supported system.access with ⟨directory, outcome, isDirectory, loads, known⟩
  cases isDirectory.parent.symm.trans named
  rcases known text with ⟨succeeds, _, seenIfRead⟩
  rcases succeeds.mpr ⟨config, read⟩ with ⟨loaded, isLoaded⟩
  rcases seenIfRead config loaded read isLoaded with ⟨seen, _, settled⟩
  have isResult : load system.access "/etc/.//promfed.TOML" = .ok loaded := by
    rw [loads, ← isLoaded]
    change (match system.read "/etc/.//promfed.TOML" with
      | .ok text => outcome text
      | .error fault => .error (.file fault)) = outcome text
    rw [isText]
  have backends : loaded.backends = [⟨"a", "/etc/./a.json"⟩, ⟨"b", "/b.json"⟩] := by
    rcases List.forall₂_cons_left_iff.mp seen.backends with
      ⟨first, others, firstSeen, othersSeen, isBackends⟩
    rcases List.forall₂_cons_left_iff.mp othersSeen with
      ⟨second, rest, secondSeen, restSeen, isOthers⟩
    have isFirst : first = ⟨"a", "/etc/./a.json"⟩ :=
      BackendEntry.ext firstSeen.name ((firstSeen.relative (by decide +kernel)).1.trans (by decide +kernel))
    have isSecond : second = ⟨"b", "/b.json"⟩ :=
      BackendEntry.ext secondSeen.name (secondSeen.absolute (by decide +kernel))
    have isRest : rest = [] := List.forall₂_nil_left_iff.mp restSeen
    rw [isBackends, isOthers, isFirst, isSecond, isRest]
  exact ⟨supported, loaded, isResult, backends, settled (by decide +kernel)⟩

end FederationConfig
end QueryFederation
