import QueryFederation.Config.Document
import QueryFederation.Proofs.Json.Records
import QueryFederation.Proofs.Toml.Lines
import QueryFederation.Proofs.Toml.Tables

/-!
# Configurations that are written and read

A valid configuration is read back from either notation: with its backends in their order, and with a
time limit of zero told apart from none.  Names and fixture paths may hold any characters, and the
numbers may be as great as a configuration can hold them.

In JSON this is known from the parts of the document.  The TOML text is put together line by line, and
the table that its lines make is the same document once more.  Only a configuration without backends is
written in TOML without mentioning them, so there the table would be another; but such a configuration
is not valid.
-/

namespace QueryFederation

open Json (Stores stores_text stores_nat stores_list stores_record record? record?_object)
open Toml (IsBareName SpellsValue SpellsLine SpellsLines spellsValue_nat spellsValue_string
  spellsLine_blank spellsLine_element spellsLine_assignment linesOf elementLinesOf
  group_linesOf_elementLinesOf document?_elements parse?_of_spells)

/-! ## The document of a configuration -/

theorem BackendEntry.stores (entry : BackendEntry) :
    Stores BackendEntry.ofJson? entry.toJson entry :=
  stores_record BackendEntry.mk (by decide) (stores_text entry.name) (stores_text entry.fixture)

namespace FederationConfig

variable (config : FederationConfig)

theorem ofParts?_parts :
    ofParts? config.antiAffinityMillis config.timeoutMillis config.backends = some config := by
  rw [ofParts?, dif_pos config.antiAffinity_lt, dif_pos config.timeout_lt]

theorem backends_stores :
    Stores (Json.list? BackendEntry.ofJson?) (.array (config.backends.map BackendEntry.toJson))
      config.backends :=
  stores_list fun entry _ => entry.stores

theorem readTimeout?_timeoutMillis :
    readTimeout? (config.timeoutMillis.map Json.ofNat) = some config.timeoutMillis := by
  cases timeout : config.timeoutMillis with
  | none => rfl
  | some millis =>
      have read := Json.natBelow?_ofNat (config.timeout_lt millis timeout)
      change (Json.natBelow? millisBound (.ofNat millis)).map some = _
      rw [read, Option.map_some]

/-- A time limit that is not written is found to be left out. -/
theorem record?_toJson :
    record? ["anti_affinity_ms", "timeout_ms", "backends"] config.toJson =
      some [some (.ofNat config.antiAffinityMillis), config.timeoutMillis.map Json.ofNat,
        some (.array (config.backends.map BackendEntry.toJson))] := by
  unfold toJson
  cases config.timeoutMillis with
  | none => rfl
  | some millis =>
      have distinct : ["anti_affinity_ms", "timeout_ms", "backends"].Nodup := by decide
      exact record?_object distinct

theorem toJson_isWritable : config.toJson.IsWritable := by
  have antiAffinity := (stores_nat config.antiAffinity_lt).writable
  have backends := config.backends_stores.writable
  unfold toJson
  cases timeout : config.timeoutMillis with
  | none => exact ⟨antiAffinity, backends, trivial⟩
  | some millis =>
      exact ⟨antiAffinity, (stores_nat (config.timeout_lt millis timeout)).writable, backends, trivial⟩

theorem stores : Stores ofJson? config.toJson config where
  writable := config.toJson_isWritable
  reads := by
    have antiAffinity : readAntiAffinity? (some (.ofNat config.antiAffinityMillis)) =
        some config.antiAffinityMillis := Json.natBelow?_ofNat config.antiAffinity_lt
    unfold ofJson?
    rw [config.record?_toJson]
    dsimp only
    rw [antiAffinity, config.readTimeout?_timeoutMillis, config.backends_stores.reads]
    exact config.ofParts?_parts

/-! ## The TOML text of a configuration -/

/-- What stands in a TOML document before the backends. -/
def settings : List (String × Toml) :=
  ("anti_affinity_ms", .integer config.antiAffinityMillis) ::
    match config.timeoutMillis with
    | some millis => [("timeout_ms", .integer millis)]
    | none => []

/-- What stands in a TOML document for a backend. -/
def fieldsOf (entry : BackendEntry) : List (String × Toml) :=
  [("name", .string entry.name), ("fixture", .string entry.fixture)]

/-- The TOML document of a configuration. -/
def toToml : Toml :=
  .table (config.settings ++
    [("backends", .array ((config.backends.map fieldsOf).map .table))])

theorem itemsToJson_backends (entries : List BackendEntry) :
    Toml.itemsToJson ((entries.map fieldsOf).map .table) = entries.map BackendEntry.toJson := by
  induction entries with
  | nil => rfl
  | cons entry rest inductionHypothesis =>
      exact congrArg (entry.toJson :: ·) inductionHypothesis

theorem toToml_toJson : config.toToml.toJson = config.toJson := by
  have backends := itemsToJson_backends config.backends
  have antiAffinity : Json.ofInt config.antiAffinityMillis = .ofNat config.antiAffinityMillis :=
    (Json.ofNat_eq_ofInt config.antiAffinityMillis).symm
  unfold toToml settings toJson
  cases config.timeoutMillis with
  | none =>
      simp only [List.cons_append, List.nil_append, Toml.toJson, Toml.entriesToJson, antiAffinity,
        backends]
  | some millis =>
      have timeout : Json.ofInt millis = .ofNat millis := (Json.ofNat_eq_ofInt millis).symm
      simp only [List.cons_append, List.nil_append, Toml.toJson, Toml.entriesToJson, antiAffinity,
        timeout, backends]

/-- A name and a value are written as one line. -/
theorem spells_assignment {name : String} (bare : IsBareName name) {written : List Char} {value : Toml}
    (spells : SpellsValue written value) {text : List Char} {lines : List Toml.Line}
    (others : SpellsLines text lines) :
    SpellsLines (name.toList ++ (" = ".toList ++ (written ++ '\n' :: text)))
      (.assignment ⟨[], name, value⟩ :: lines) := by
  have line := SpellsLines.more (spellsLine_assignment bare spells) others
  rwa [List.append_assoc, List.append_assoc] at line

theorem spells_backend (entry : BackendEntry) :
    SpellsLines entry.writeToml (elementLinesOf "backends" (fieldsOf entry)) := by
  have bareFixture : IsBareName "fixture" := by decide
  have bareName : IsBareName "name" := by decide
  have bareBackends : IsBareName "backends" := by decide
  have fixture := spells_assignment bareFixture (spellsValue_string entry.fixture) .none
  have name := spells_assignment bareName (spellsValue_string entry.name) fixture
  have all := SpellsLines.more spellsLine_blank
    (SpellsLines.more (spellsLine_element bareBackends) name)
  have first : "\n[[backends]]\nname = ".toList = '\n' :: ("[[".toList ++ ("backends".toList ++
      ("]]".toList ++ '\n' :: ("name".toList ++ " = ".toList)))) := by decide
  have second : "\nfixture = ".toList = '\n' :: ("fixture".toList ++ " = ".toList) := by decide
  unfold BackendEntry.writeToml
  rw [first, second]
  simp only [List.append_assoc, List.cons_append, List.nil_append] at all ⊢
  exact all

theorem spells_backends (entries : List BackendEntry) :
    SpellsLines (entries.flatMap BackendEntry.writeToml)
      ((entries.map fieldsOf).flatMap (elementLinesOf "backends")) := by
  induction entries with
  | nil => exact .none
  | cons entry rest inductionHypothesis => exact (spells_backend entry).append inductionHypothesis

theorem spellsValue_millis {millis : Nat} (below : millis < millisBound) :
    SpellsValue (Digits.ofNat millis) (.integer millis) :=
  spellsValue_nat (Nat.lt_trans below (by decide))

theorem spells_writeToml :
    SpellsLines config.writeToml.toList
      (linesOf config.settings ++ (config.backends.map fieldsOf).flatMap (elementLinesOf "backends")) := by
  have backends := spells_backends config.backends
  have antiAffinity := spellsValue_millis config.antiAffinity_lt
  have window : "anti_affinity_ms = ".toList = "anti_affinity_ms".toList ++ " = ".toList := by decide
  have limit : "timeout_ms = ".toList = "timeout_ms".toList ++ " = ".toList := by decide
  unfold writeToml settings
  rw [String.toList_ofList, window]
  cases timeout : config.timeoutMillis with
  | none =>
      simp only [List.append_assoc, List.nil_append]
      exact spells_assignment (by decide) antiAffinity backends
  | some millis =>
      rw [limit]
      simp only [List.append_assoc]
      exact spells_assignment (by decide) antiAffinity
        (spells_assignment (by decide) (spellsValue_millis (config.timeout_lt millis timeout)) backends)

theorem settings_names :
    config.settings.map Prod.fst = ["anti_affinity_ms"] ∨
      config.settings.map Prod.fst = ["anti_affinity_ms", "timeout_ms"] := by
  unfold settings
  cases config.timeoutMillis with
  | none => exact .inl rfl
  | some millis => exact .inr rfl

theorem parse?_writeToml (nonempty : config.backends ≠ []) :
    Toml.parse? config.writeToml = some config.toToml := by
  have unmarked : Toml.dropByteOrderMark config.writeToml.toList = config.writeToml.toList := by
    have front : "anti_affinity_ms = ".toList = 'a' :: "nti_affinity_ms = ".toList := by decide
    unfold writeToml
    rw [String.toList_ofList, front]
    simp only [List.cons_append]
    exact Toml.dropByteOrderMark_cons (by decide) _
  rw [parse?_of_spells config.spells_writeToml unmarked, group_linesOf_elementLinesOf]
  apply document?_elements
  · rcases config.settings_names with names | names <;> rw [names] <;> decide
  · rcases config.settings_names with names | names <;> rw [names] <;> decide
  · simpa using nonempty
  · intro entries isElement
    rcases List.mem_map.mp isElement with ⟨entry, _, rfl⟩
    have distinct : ["name", "fixture"].Nodup := by decide
    exact distinct

/-! ## Reloading -/

variable {config}

theorem backends_ne_nil (accepted : config.validate = .ok config) : config.backends ≠ [] := by
  intro none
  rw [validate, violation?, none] at accepted
  cases accepted

end FederationConfig

open FederationConfig (parse document? ofJson?)

/-- Every valid configuration is read back from its text in either notation. -/
theorem configuration_reloads {config : FederationConfig} (accepted : config.validate = .ok config) :
    parse .json config.writeJson = .ok config ∧ parse .toml config.writeToml = .ok config := by
  constructor
  · have isLayout : config.toJson.indented ∈ config.toJson.layouts :=
      List.mem_cons_of_mem _ List.mem_cons_self
    have read : (document? .json config.writeJson).bind ofJson? = some config := by
      rw [document?, FederationConfig.writeJson, config.stores.ofLayout isLayout]
    rw [parse, read]
    exact accepted
  · have nonempty := FederationConfig.backends_ne_nil accepted
    have read : (document? .toml config.writeToml).bind ofJson? = some config := by
      rw [document?, config.parse?_writeToml nonempty, Option.map_some, config.toToml_toJson,
        Option.bind_some, config.stores.reads]
    rw [parse, read]
    exact accepted

/-- A configuration at the limits: the widest window, a time limit of zero, and texts with marks of both
kinds in a row, backslashes, newlines and control characters. -/
def FederationConfig.awkward : FederationConfig where
  antiAffinityMillis := millisBound - 1
  timeoutMillis := some 0
  backends :=
    [⟨"\"\"\"'''\\\n\r\n\t\x00\x7f\"", "\n'\"\"\"\" é"⟩, ⟨"\\ '", "C:\\snapshots\\\"b\".json"⟩]
  antiAffinity_lt := by decide
  timeout_lt := by decide

theorem configuration_reloads_awkward :
    FederationConfig.awkward.validate = .ok .awkward ∧
      parse .json FederationConfig.awkward.writeJson = .ok .awkward ∧
      parse .toml FederationConfig.awkward.writeToml = .ok .awkward := by
  have accepted : FederationConfig.awkward.validate = .ok .awkward := rfl
  exact ⟨accepted, configuration_reloads accepted⟩

end QueryFederation
