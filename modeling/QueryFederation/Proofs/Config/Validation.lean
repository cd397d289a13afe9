import Mathlib.Data.List.Nodup
import Mathlib.Order.Bounds.Basic
import QueryFederation.Config.Basic
import QueryFederation.Proofs.Json.Numbers

/-!
# What the validation of a configuration tells

A configuration is accepted exactly if it has a backend, no empty name, no empty fixture path, and no name
twice.  A rejection tells one of two things.  If rules about single fields are broken it lists all of them and
nothing else, each in one wording of its own, and it says nothing about names that repeat.  Only if there are
none does it tell a repeated name: the first that was met before, at the index where it is met again.

The first repetition is found by one walk that remembers the names it has met.  `Searched` is what is known
when the walk comes to an index.
-/

namespace QueryFederation

/-! ## Wordings of broken rules -/

namespace BrokenField

theorem toList_toString (number : Nat) : (toString number).toList = Digits.ofNat number :=
  String.toList_ofList

/-- The wording of a broken rule begins with the path of its field, in which a bracket ends the index. -/
theorem toList_message_emptyField (index : Nat) (field : RequiredField) :
    (emptyField index field).message.toList =
      "backends[".toList ++
        (Digits.ofNat index ++ ']' :: ("." ++ field.rule.1 ++ ": " ++ field.rule.2).toList) := by
  simp only [message, String.toList_append, toList_toString, List.append_assoc]
  rfl

theorem message_noBackends_ne (index : Nat) (field : RequiredField) :
    noBackends.message ≠ (emptyField index field).message := by
  intro same
  have letters := congrArg (fun text : String => (text.toList.drop 8).head?) same
  rw [toList_message_emptyField] at letters
  cases letters

theorem message_emptyField_inj {index other : Nat} {field otherField : RequiredField}
    (same : (emptyField index field).message = (emptyField other otherField).message) :
    index = other ∧ field = otherField := by
  have divided (number : Nat) (rest : List Char) :
      (Digits.ofNat number ++ ']' :: rest).takeWhile Char.isDigit = Digits.ofNat number ∧
        (Digits.ofNat number ++ ']' :: rest).dropWhile Char.isDigit = ']' :: rest :=
    divide_append (fun _ => Digits.isDigit_of_mem_ofNat) (ended_cons (by decide) rest)
  have letters := congrArg String.toList same
  rw [toList_message_emptyField, toList_message_emptyField] at letters
  have rests := List.append_cancel_left letters
  constructor
  · have digits := congrArg (List.takeWhile Char.isDigit) rests
    rw [(divided _ _).1, (divided _ _).1] at digits
    rw [← Digits.toNat_ofNat index, digits, Digits.toNat_ofNat]
  · have words := congrArg (List.dropWhile Char.isDigit) rests
    rw [(divided _ _).2, (divided _ _).2] at words
    cases field <;> cases otherField <;> first | rfl | exact absurd words (by decide)

/-- Different broken rules have different wordings. -/
theorem message_injective : Function.Injective message := by
  intro first second same
  cases first with
  | noBackends =>
      cases second with
      | noBackends => rfl
      | emptyField index field => exact absurd same (message_noBackends_ne index field)
  | emptyField index field =>
      cases second with
      | noBackends => exact absurd same.symm (message_noBackends_ne index field)
      | emptyField other otherField =>
          rcases message_emptyField_inj same with ⟨rfl, rfl⟩
          rfl

end BrokenField

/-! ## Rules about single fields -/

namespace BackendEntry

/-- What stands in a required field. -/
def valueOf (entry : BackendEntry) : RequiredField -> String
  | .fixture => entry.fixture
  | .name => entry.name

/-- The required fields in which nothing stands. -/
def emptyFields (entry : BackendEntry) : List RequiredField :=
  [.fixture, .name].filter fun field => entry.valueOf field = ""

theorem mem_emptyFields_iff {entry : BackendEntry} {field : RequiredField} :
    field ∈ entry.emptyFields <-> entry.valueOf field = "" := by
  have isRequired : field ∈ [RequiredField.fixture, .name] := by
    cases field <;> decide
  rw [emptyFields, List.mem_filter, decide_eq_true_eq, and_iff_right isRequired]

end BackendEntry

namespace FederationConfig

/-- The rules about single fields that a configuration breaks. -/
inductive Breaks (config : FederationConfig) : BrokenField -> Prop where
  | noBackends : config.backends = [] -> Breaks config .noBackends
  | emptyField {index : Nat} {entry : BackendEntry} {field : RequiredField} :
      config.backends[index]? = some entry -> entry.valueOf field = "" ->
        Breaks config (.emptyField index field)

theorem brokenFields_cons (start : Nat) (entry : BackendEntry) (rest : List BackendEntry) :
    brokenFields start (entry :: rest) =
      entry.emptyFields.map (.emptyField start) ++ brokenFields (start + 1) rest := by
  by_cases noFixture : entry.fixture = "" <;> by_cases noName : entry.name = "" <;>
    simp [brokenFields, BackendEntry.emptyFields, BackendEntry.valueOf, noFixture, noName]

theorem mem_brokenFields_iff {start : Nat} {entries : List BackendEntry} {rule : BrokenField} :
    rule ∈ brokenFields start entries <->
      exists offset entry field, entries[offset]? = some entry ∧ entry.valueOf field = "" ∧
        rule = .emptyField (start + offset) field := by
  induction entries generalizing start with
  | nil => simp [brokenFields]
  | cons first rest inductionHypothesis =>
      rw [brokenFields_cons, List.mem_append, List.mem_map, inductionHypothesis]
      constructor
      · rintro (⟨field, isEmpty, rfl⟩ | ⟨offset, entry, field, isEntry, isEmpty, isRule⟩)
        · exact ⟨0, first, field, rfl, BackendEntry.mem_emptyFields_iff.mp isEmpty, rfl⟩
        · refine ⟨offset + 1, entry, field, isEntry, isEmpty, ?_⟩
          rw [isRule, Nat.add_assoc, Nat.add_comm 1 offset]
      · rintro ⟨offset, entry, field, isEntry, isEmpty, isRule⟩
        cases offset with
        | zero =>
            cases isEntry
            exact Or.inl ⟨field, BackendEntry.mem_emptyFields_iff.mpr isEmpty, isRule.symm⟩
        | succ offset =>
            refine Or.inr ⟨offset, entry, field, isEntry, isEmpty, ?_⟩
            rw [isRule, Nat.add_assoc, Nat.add_comm 1 offset]

theorem brokenFields_nodup (start : Nat) (entries : List BackendEntry) :
    (brokenFields start entries).Nodup := by
  induction entries generalizing start with
  | nil => exact List.nodup_nil
  | cons first rest inductionHypothesis =>
      rw [brokenFields_cons]
      refine List.Nodup.append ?_ (inductionHypothesis (start + 1)) ?_
      · refine List.Nodup.map ?_ (List.Nodup.filter _ (by decide))
        intro field other same
        cases same
        rfl
      · intro rule isOwn isLater
        rcases List.mem_map.mp isOwn with ⟨field, _, rfl⟩
        rcases mem_brokenFields_iff.mp isLater with ⟨offset, _, _, _, _, same⟩
        injection same with sameIndex
        omega

/-- All rules that a configuration breaks, in order. -/
def brokenRules (config : FederationConfig) : List BrokenField :=
  if config.backends.isEmpty then [.noBackends] else brokenFields 0 config.backends

variable {config : FederationConfig}

theorem mem_brokenRules_iff {rule : BrokenField} : rule ∈ config.brokenRules <-> config.Breaks rule := by
  unfold brokenRules
  cases backends : config.backends with
  | nil =>
      change rule ∈ [BrokenField.noBackends] <-> config.Breaks rule
      rw [List.mem_singleton]
      constructor
      · rintro rfl
        exact .noBackends backends
      · intro breaks
        cases breaks with
        | noBackends => rfl
        | emptyField isEntry =>
            rw [backends] at isEntry
            cases isEntry
  | cons first rest =>
      change rule ∈ brokenFields 0 (first :: rest) <-> config.Breaks rule
      rw [mem_brokenFields_iff, ← backends]
      constructor
      · rintro ⟨index, entry, field, isEntry, isEmpty, rfl⟩
        rw [Nat.zero_add]
        exact .emptyField isEntry isEmpty
      · intro breaks
        cases breaks with
        | noBackends none => cases backends.symm.trans none
        | @emptyField index entry field isEntry isEmpty =>
            exact ⟨index, entry, field, isEntry, isEmpty, by rw [Nat.zero_add]⟩

theorem brokenRules_nodup (config : FederationConfig) : config.brokenRules.Nodup := by
  unfold brokenRules
  split
  · exact List.nodup_singleton _
  · exact brokenFields_nodup 0 _

theorem brokenRules_eq_nil_iff :
    config.brokenRules = [] <->
      config.backends ≠ [] ∧
        forall entry, entry ∈ config.backends -> entry.name ≠ "" ∧ entry.fixture ≠ "" := by
  rw [List.eq_nil_iff_forall_not_mem]
  simp only [mem_brokenRules_iff]
  constructor
  · intro keeps
    refine ⟨fun none => keeps _ (.noBackends none), fun entry isEntry => ?_⟩
    rcases List.mem_iff_getElem?.mp isEntry with ⟨index, atIndex⟩
    exact ⟨fun isEmpty => keeps (.emptyField index .name) (.emptyField atIndex isEmpty),
      fun isEmpty => keeps (.emptyField index .fixture) (.emptyField atIndex isEmpty)⟩
  · rintro ⟨some, filled⟩ rule breaks
    cases breaks with
    | noBackends none => exact some none
    | @emptyField index entry field atIndex isEmpty =>
        have isFilled := filled entry (List.mem_of_getElem? atIndex)
        cases field with
        | fixture => exact isFilled.2 isEmpty
        | name => exact isFilled.1 isEmpty

/-! ## Names that repeat -/

/-- That the name at an index equals an earlier one. -/
def Repeats (names : List String) (index : Nat) : Prop :=
  exists earlier name, earlier < index ∧ names[earlier]? = some name ∧ names[index]? = some name

theorem nodup_iff_not_repeats {names : List String} :
    names.Nodup <-> forall index, ¬ Repeats names index := by
  rw [List.nodup_iff_getElem?_ne_getElem?]
  constructor
  · rintro distinct index ⟨earlier, name, isEarlier, first, second⟩
    rcases List.getElem?_eq_some_iff.mp second with ⟨within, _⟩
    exact distinct earlier index isEarlier within (first.trans second.symm)
  · intro distinct earlier index isEarlier within same
    exact distinct index ⟨earlier, names[index], isEarlier, same.trans (List.getElem?_eq_getElem within),
      List.getElem?_eq_getElem within⟩

/-- What is known when the search comes to an index. -/
structure Searched (names met : List String) (index : Nat) : Prop where
  met_iff : forall name, name ∈ met <-> exists earlier, earlier < index ∧ names[earlier]? = some name
  clear : forall before, before < index -> ¬ Repeats names before

section Search

variable {names met : List String} {index : Nat} {name : String}

theorem Searched.start (names : List String) : Searched names [] 0 where
  met_iff := fun name => by simp
  clear := fun before isBefore => absurd isBefore (Nat.not_lt_zero before)

theorem Searched.repeats_iff (searched : Searched names met index) (here : names[index]? = some name) :
    Repeats names index <-> name ∈ met := by
  rw [searched.met_iff]
  constructor
  · rintro ⟨earlier, other, isEarlier, first, second⟩
    cases here.symm.trans second
    exact ⟨earlier, isEarlier, first⟩
  · rintro ⟨earlier, isEarlier, first⟩
    exact ⟨earlier, name, isEarlier, first, here⟩

theorem Searched.next (searched : Searched names met index) (here : names[index]? = some name)
    (isNew : name ∉ met) : Searched names (name :: met) (index + 1) where
  met_iff := by
    intro other
    rw [List.mem_cons, searched.met_iff]
    constructor
    · rintro (rfl | ⟨earlier, isEarlier, first⟩)
      · exact ⟨index, Nat.lt_succ_self index, here⟩
      · exact ⟨earlier, Nat.lt_succ_of_lt isEarlier, first⟩
    · rintro ⟨earlier, isEarlier, first⟩
      rcases Nat.lt_succ_iff_lt_or_eq.mp isEarlier with isEarlier | rfl
      · exact Or.inr ⟨earlier, isEarlier, first⟩
      · exact Or.inl (Option.some.inj (first.symm.trans here))
  clear := by
    intro before isBefore
    rcases Nat.lt_succ_iff_lt_or_eq.mp isBefore with isBefore | rfl
    · exact searched.clear before isBefore
    · exact mt (searched.repeats_iff here).mp isNew

/-- The search tells the least index whose name is an earlier one, or nothing if there is none. -/
theorem Searched.finds (searched : Searched names met index) {entries : List BackendEntry}
    (ahead : names.drop index = entries.map BackendEntry.name) :
    match firstRepetition? met index entries with
    | none => forall place, ¬ Repeats names place
    | some (place, name) => IsLeast {place | Repeats names place} place ∧ names[place]? = some name := by
  induction entries generalizing met index with
  | nil =>
      -- All names are behind, so a repetition would be one of those that are known not to be there.
      have ended : names.length ≤ index := List.drop_eq_nil_iff.mp ahead
      intro place repeats
      rcases repeats with ⟨earlier, name, isEarlier, first, second⟩
      rcases List.getElem?_eq_some_iff.mp second with ⟨within, _⟩
      have isBehind : place < index := Nat.lt_of_lt_of_le within ended
      exact searched.clear place isBehind ⟨earlier, name, isEarlier, first, second⟩
  | cons entry rest inductionHypothesis =>
      have here : names[index]? = some entry.name := by
        rw [← List.head?_drop, ahead, List.map_cons, List.head?_cons]
      rw [firstRepetition?]
      by_cases isMet : entry.name ∈ met
      · rw [if_pos isMet]
        refine ⟨⟨(searched.repeats_iff here).mpr isMet, ?_⟩, here⟩
        intro place repeats
        exact Nat.not_lt.mp fun isBefore => searched.clear place isBefore repeats
      · rw [if_neg isMet]
        apply inductionHypothesis (searched.next here isMet)
        rw [← List.tail_drop, ahead, List.map_cons, List.tail_cons]

end Search

/-! ## Verdicts -/

theorem violation?_eq (config : FederationConfig) :
    config.violation? =
      if config.brokenRules = [] then
        (firstRepetition? [] 0 config.backends).map fun found => .duplicateName found.1 found.2
      else some (.fields config.brokenRules) := by
  unfold violation? brokenRules
  split
  · rfl
  · split
    · rename_i none
      rw [if_pos none]
    · rename_i some
      rw [if_neg some]

theorem validate_of_broken (broken : config.brokenRules ≠ []) :
    config.validate = .error (.configValidation (.fields config.brokenRules)) := by
  rw [validate, violation?_eq, if_neg broken]

theorem validate_of_unbroken (unbroken : config.brokenRules = []) :
    config.validate =
      match firstRepetition? [] 0 config.backends with
      | none => .ok config
      | some found => .error (.configValidation (.duplicateName found.1 found.2)) := by
  rw [validate, violation?_eq, if_pos unbroken]
  cases firstRepetition? [] 0 config.backends <;> rfl

/-- A configuration that breaks no field rule is accepted, or its first repeated name is told. -/
theorem validate_unbroken_cases (unbroken : config.brokenRules = []) :
    (config.names.Nodup ∧ config.validate = .ok config) ∨
      exists index name, IsLeast {place | Repeats config.names place} index ∧
        config.names[index]? = some name ∧
        config.validate = .error (.configValidation (.duplicateName index name)) := by
  have ahead : config.names.drop 0 = config.backends.map BackendEntry.name := rfl
  have finds := (Searched.start config.names).finds ahead
  rw [validate_of_unbroken unbroken]
  cases found : firstRepetition? [] 0 config.backends with
  | none =>
      rw [found] at finds
      exact Or.inl ⟨nodup_iff_not_repeats.mpr finds, rfl⟩
  | some repetition =>
      rw [found] at finds
      exact Or.inr ⟨repetition.1, repetition.2, finds.1, finds.2, rfl⟩

/-- That a configuration has a backend, no empty field and no name twice. -/
structure IsSound (config : FederationConfig) : Prop where
  nonempty : config.backends ≠ []
  filled : forall entry, entry ∈ config.backends -> entry.name ≠ "" ∧ entry.fixture ≠ ""
  distinct : config.names.Nodup

theorem validate_eq_ok_iff {accepted : FederationConfig} :
    config.validate = .ok accepted <-> accepted = config ∧ config.IsSound := by
  by_cases unbroken : config.brokenRules = []
  · have keeps := brokenRules_eq_nil_iff.mp unbroken
    rcases validate_unbroken_cases unbroken with
      ⟨distinct, isAccepted⟩ | ⟨index, name, first, _, isRejected⟩
    · rw [isAccepted, Except.ok.injEq, eq_comm]
      exact (and_iff_left ⟨keeps.1, keeps.2, distinct⟩).symm
    · rw [isRejected]
      refine iff_of_false (fun isAccepted => nomatch isAccepted) ?_
      rintro ⟨_, sound⟩
      exact nodup_iff_not_repeats.mp sound.distinct index first.1
  · rw [validate_of_broken unbroken]
    refine iff_of_false (fun isAccepted => nomatch isAccepted) ?_
    rintro ⟨_, sound⟩
    exact unbroken (brokenRules_eq_nil_iff.mpr ⟨sound.nonempty, sound.filled⟩)

/-- The verdict on every configuration: accepted exactly if it is sound; rejected with all broken field rules,
each once, if there are any; and rejected with the first repeated name otherwise. -/
theorem validate_exact (config : FederationConfig) :
    (forall accepted, config.validate = .ok accepted <-> accepted = config ∧ config.IsSound) ∧
    ((exists rule, config.Breaks rule) ->
      exists broken, config.validate = .error (.configValidation (.fields broken)) ∧
        (forall rule, rule ∈ broken <-> config.Breaks rule) ∧ (broken.map BrokenField.message).Nodup ∧
        (Fault.configValidation (.fields broken)).message =
          "config validation error at '" ++ "config" ++ "': " ++
            String.join (broken.map BrokenField.message)) ∧
    ((forall rule, ¬ config.Breaks rule) ->
      forall fault, config.validate = .error fault <->
        exists index name, IsLeast {place | Repeats config.names place} index ∧
          config.names[index]? = some name ∧ fault = .configValidation (.duplicateName index name) ∧
          fault.message =
            "config validation error at '" ++ ("backends[" ++ toString index ++ "].name") ++ "': " ++
              ("duplicate backend name '" ++ name ++ "'")) := by
  refine ⟨fun accepted => validate_eq_ok_iff, ?_, ?_⟩
  · rintro ⟨rule, breaks⟩
    have broken : config.brokenRules ≠ [] := List.ne_nil_of_mem (mem_brokenRules_iff.mpr breaks)
    refine ⟨config.brokenRules, validate_of_broken broken, fun rule => mem_brokenRules_iff, ?_, rfl⟩
    exact config.brokenRules_nodup.map BrokenField.message_injective
  · intro keeps fault
    have unbroken : config.brokenRules = [] :=
      List.eq_nil_iff_forall_not_mem.mpr fun rule isBroken => keeps rule (mem_brokenRules_iff.mp isBroken)
    constructor
    · intro failed
      rcases validate_unbroken_cases unbroken with
        ⟨_, isAccepted⟩ | ⟨index, name, first, here, isRejected⟩
      · cases failed.symm.trans isAccepted
      · cases failed.symm.trans isRejected
        exact ⟨index, name, first, here, rfl, rfl⟩
    · rintro ⟨index, name, first, here, rfl, _⟩
      rcases validate_unbroken_cases unbroken with
        ⟨distinct, _⟩ | ⟨other, otherName, alsoFirst, there, isRejected⟩
      · exact absurd first.1 (nodup_iff_not_repeats.mp distinct index)
      · cases first.unique alsoFirst
        cases here.symm.trans there
        exact isRejected

/-- Two empty names are two broken rules, and no repetition. -/
example :
    (FederationConfig.mk 10000 none [⟨"", "a.json"⟩, ⟨"", ""⟩] (by decide) (by decide)).validate =
      .error (.configValidation
        (.fields [.emptyField 0 .name, .emptyField 1 .fixture, .emptyField 1 .name])) :=
  rfl

end FederationConfig
end QueryFederation
