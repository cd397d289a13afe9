import QueryFederation.Federation.Operation
import QueryFederation.Json.Record
import QueryFederation.Series.Fixture
import QueryFederation.Time.Timestamp

/-!
# Stored results

Query results, fixtures and time ranges are stored as JSON documents.  For each type there is a writer
and, beside it, a reader that accepts every document of the writer.

A query result is stored with its shape: an object with the member `resultType` that names the shape
and the member `result` that holds the content.  Which content is acceptable depends on the shape.  A
content that stands before its shape has to be held until the shape is known, and what is held must
have a value in all its parts and may not be nested beyond a limit; a content that follows its shape is
read directly, and what the shape has no use for is skipped.
-/

namespace QueryFederation

open Json (record? closedRecord? int64? float? text? list? table? name?)

/-- Arrays and objects may be nested to this depth in what is held until it can be read. -/
def nestingLimit : Nat :=
  127

namespace Sample

/-- The stored form of a sample. -/
def toJson (sample : Sample) : Json :=
  .object [("timestamp", .ofInt sample.timestamp.toInt), ("value", .ofFloat sample.value)]

/-- Read a sample. -/
def ofJson? (document : Json) : Option Sample :=
  match record? ["timestamp", "value"] document with
  | some [some timestamp, some value] => do
      some ⟨← int64? timestamp, ← float? value⟩
  | _ => none

end Sample

namespace StringSample

/-- The stored form of a text sample. -/
def toJson (sample : StringSample) : Json :=
  .object [("timestamp", .ofInt sample.timestamp.toInt), ("value", .string sample.value)]

/-- Read a text sample. -/
def ofJson? (document : Json) : Option StringSample :=
  match record? ["timestamp", "value"] document with
  | some [some timestamp, some value] => do
      some ⟨← int64? timestamp, ← text? value⟩
  | _ => none

end StringSample

namespace LabelSet

/-- The stored form of a label set. -/
def toJson (labels : LabelSet) : Json :=
  .object (labels.pairs.map fun pair => (pair.1, .string pair.2))

/-- Read a label set; of several members with one name the last counts. -/
def ofJson? (document : Json) : Option LabelSet :=
  (table? text? document).map NameMap.ofPairs

end LabelSet

namespace InstantSample

/-- The stored form of a series of a vector. -/
def toJson (series : InstantSample) : Json :=
  .object [("metric", LabelSet.toJson series.metric), ("sample", series.sample.toJson)]

/-- Read a series of a vector. -/
def ofJson? (document : Json) : Option InstantSample :=
  match record? ["metric", "sample"] document with
  | some [some metric, some sample] => do
      some ⟨← LabelSet.ofJson? metric, ← Sample.ofJson? sample⟩
  | _ => none

end InstantSample

namespace SampleStream

/-- The stored form of a series of a matrix. -/
def toJson (stream : SampleStream) : Json :=
  .object [("metric", LabelSet.toJson stream.metric),
    ("values", .array (stream.values.map Sample.toJson))]

/-- Read a series of a matrix. -/
def ofJson? (document : Json) : Option SampleStream :=
  match record? ["metric", "values"] document with
  | some [some metric, some values] => do
      some ⟨← LabelSet.ofJson? metric, ← list? Sample.ofJson? values⟩
  | _ => none

end SampleStream

namespace Shape

/-- Read the name of a shape. -/
def ofJson? (document : Json) : Option Shape :=
  (name? document).bind ofName?

end Shape

namespace ApiKind

/-- Read the name of a kind of operation. -/
def ofJson? (document : Json) : Option ApiKind :=
  (name? document).bind ofName?

end ApiKind

namespace CallStatus

/-- Read the name of an outcome. -/
def ofJson? (document : Json) : Option CallStatus :=
  (name? document).bind ofName?

end CallStatus

namespace QueryResult

/-- The stored form of the content of a result. -/
def contentToJson : QueryResult -> Json
  | scalar sample => sample.toJson
  | vector series => .array (series.map InstantSample.toJson)
  | matrix series => .array (series.map SampleStream.toJson)
  | string sample => sample.toJson

/-- The stored form of a result. -/
def toJson (result : QueryResult) : Json :=
  .object [("resultType", .string result.shape.name), ("result", result.contentToJson)]

/-- Read the content of a result of a known shape. -/
def ofContent? (shape : Shape) (content : Json) : Option QueryResult :=
  match shape with
  | .scalar => (Sample.ofJson? content).map scalar
  | .vector => (list? InstantSample.ofJson? content).map vector
  | .matrix => (list? SampleStream.ofJson? content).map matrix
  | .string => (StringSample.ofJson? content).map string

/-- Whether a content can be held until its shape is known, inside as many arrays and objects as
`depth` says. -/
def canBeHeld (depth : Nat) (content : Json) : Bool :=
  content.isSubstantial && decide (depth + content.nesting ≤ nestingLimit)

/-- Whether, of the members of an object, one of the first name comes before any of the second. -/
def comesFirst (first second : String) (members : List (String × Json)) : Bool :=
  match members.find? (fun member => member.1 == first || member.1 == second) with
  | some member => member.1 == first
  | none => false

/-- Read a result that stands inside `depth` arrays and objects. -/
def ofJsonAt? (depth : Nat) (document : Json) : Option QueryResult :=
  match record? ["resultType", "result"] document with
  | some [some tag, some content] => do
      let shape <- Shape.ofJson? tag
      let held :=
        match document with
        | .object members => comesFirst "result" "resultType" members
        | _ => false
      if held && !canBeHeld (depth + 1) content then none else ofContent? shape content
  | _ => none

/-- Read a result. -/
def ofJson? (document : Json) : Option QueryResult :=
  ofJsonAt? 0 document

end QueryResult

namespace NameMap

variable {Entry : Type}

/-- The stored form of a map, given that of its values. -/
def toJson (entryToJson : Entry -> Json) (map : NameMap Entry) : Json :=
  .object (map.pairs.map fun pair => (pair.1, entryToJson pair.2))

/-- Read a map; of several members with one name the last counts. -/
def ofJson? (item? : Json -> Option Entry) (document : Json) : Option (NameMap Entry) :=
  (table? item? document).map NameMap.ofPairs

end NameMap

namespace Fixture

/-- The stored form of a fixture. -/
def toJson (fixture : Fixture) : Json :=
  .object [
    ("label_values", fixture.labelValues.toJson fun values => .array (values.map Json.string)),
    ("series", .array (fixture.series.map LabelSet.toJson)),
    ("instant", fixture.instant.toJson QueryResult.toJson),
    ("range", fixture.range.toJson QueryResult.toJson)]

/-- Read a field that may be left out. -/
def fieldOr {Entry : Type} (default : Entry) (item? : Json -> Option Entry) :
    Option Json -> Option Entry
  | none => some default
  | some document => item? document

/-- Read a fixture; every part of it may be left out.  Its results stand inside the fixture and inside
the table that holds them. -/
def ofJson? (document : Json) : Option Fixture :=
  match record? ["label_values", "series", "instant", "range"] document with
  | some [labelValues, series, instant, range] => do
      some {
        labelValues := ← fieldOr .empty (NameMap.ofJson? (list? text?)) labelValues
        series := ← fieldOr [] (list? LabelSet.ofJson?) series
        instant := ← fieldOr .empty (NameMap.ofJson? (QueryResult.ofJsonAt? 2)) instant
        range := ← fieldOr .empty (NameMap.ofJson? (QueryResult.ofJsonAt? 2)) range }
  | _ => none

end Fixture

namespace Duration

/-- The stored form of a length of time. -/
def toJson (duration : Duration) : Json :=
  .object [("secs", .ofNat duration.seconds), ("nanos", .ofNat duration.nanos)]

/-- Read a length of time.  Nanoseconds beyond a second are carried over; other members are
refused. -/
def ofJson? (document : Json) : Option Duration :=
  match closedRecord? ["secs", "nanos"] document with
  | some [some seconds, some nanos] => do
      ofParts? (← Json.natBelow? (Nat.pow 2 64) seconds) (← Json.natBelow? (Nat.pow 2 32) nanos)
  | _ => none

end Duration

namespace Instant

/-- The stored form of a point in time. -/
def toJson (instant : Instant) : Json :=
  .string (String.ofList (Timestamp.write instant))

/-- Read a point in time. -/
def ofJson? (document : Json) : Option Instant :=
  (text? document).bind fun text => Timestamp.lenient? text.toList

end Instant

namespace QueryRange

/-- The stored form of a time range. -/
def toJson (range : QueryRange) : Json :=
  .object [("start", range.start.toJson), ("end", range.stop.toJson), ("step", range.step.toJson)]

/-- Read a time range. -/
def ofJson? (document : Json) : Option QueryRange :=
  match record? ["start", "end", "step"] document with
  | some [some start, some stop, some step] => do
      some ⟨← Instant.ofJson? start, ← Instant.ofJson? stop, ← Duration.ofJson? step⟩
  | _ => none

end QueryRange
end QueryFederation
