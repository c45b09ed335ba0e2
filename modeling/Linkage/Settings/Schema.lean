import Linkage.Settings
import Linkage.Text.Json

/-
  The shape of the settings as a JSON schema, for editors and
  checkers.  Records and alternatives are defined once under
  their names; every field has a default, so none is required.

  Key definitions include:
    * `Schema`
    * `SchemaField`
    * `Settings.definitions`
    * `Settings.schema`
    * `Settings.schemaText`
-/

------------------------------------------------------------
-- Schemas
------------------------------------------------------------

namespace Linkage

/- What a field may hold; a record or choice is named. -/
inductive Schema where
| boolean
| text
| count (least : Int)
| named (name : String)
deriving DecidableEq, Repr

/- A field of a record, with the words that describe it. -/
structure SchemaField where
  name : String
  description : Option String
  default : Json
  schema : Schema

/- A named schema: a record, or a choice of words. -/
inductive SchemaDefinition where
| record (fields : List SchemaField)
| choice (description : String) (words : List (String × String))

namespace Json

/- An entry that is absent if there is no description. -/
def described : Option String → List (String × Json)
| some d => [("description", text d)]
| none => []

end Json

/- What is said about the type of a value. -/
def Schema.entries : Schema → List (String × Json)
| boolean => [("type", .text "boolean")]
| text => [("type", .text "string")]
| count least =>
    [("type", .text "integer"),
     ("format", .text "uint"),
     ("minimum", .whole least)]
| named n =>
    [("allOf",
      .array
        [.object [("$ref", .text ("#/definitions/" ++ n))]])]

def SchemaField.toJson (f : SchemaField) : Json :=
  .object
    (Json.described f.description ++ [("default", f.default)] ++
      f.schema.entries)

/- What is said about a record. -/
def recordEntries
    (fields : List SchemaField) : List (String × Json) :=
  [("type", .text "object"),
   ("properties",
     .object (fields.map (fun f => (f.name, f.toJson)))),
   ("additionalProperties", .bool false)]

/- One word of a choice. -/
def wordJson (word : String × String) : Json :=
  .object
    [("description", .text word.2),
     ("type", .text "string"),
     ("enum", .array [.text word.1])]

def SchemaDefinition.toJson : SchemaDefinition → Json
| record fields => .object (recordEntries fields)
| choice description words =>
    .object
      [("description", .text description),
       ("oneOf", .array (words.map wordJson))]

------------------------------------------------------------
-- Defaults
------------------------------------------------------------

def Eviction.toJson : Eviction → Json
| never => .text "never"
| lru => .text "lru"

def StubSettings.toJson (s : StubSettings) : Json :=
  .object
    [("eviction", s.eviction.toJson),
     ("max_entries", .integer s.maxEntries)]

def InvokeSettings.toJson (s : InvokeSettings) : Json :=
  .object [("memoize_as_type", .bool s.memoizeAsType)]

def LogSettings.toJson (s : LogSettings) : Json :=
  .object
    [("json", .bool s.json),
     ("level", .text s.level),
     ("stderr", .bool s.stderr)]

------------------------------------------------------------
-- The schema of the settings
------------------------------------------------------------

namespace Settings

def stubFields : List SchemaField :=
  let s : StubSettings := {}
  [⟨"eviction", none, s.eviction.toJson, .named "EvictionPolicy"⟩,
   ⟨"max_entries",
     some
       "Capacity for the \x60lru\x60 policy. Ignored by \x60never\x60.",
     .integer s.maxEntries, .count 1⟩]

def invokeFields : List SchemaField :=
  let s : InvokeSettings := {}
  [⟨"memoize_as_type",
     some
       ("Remember the most recent \x60as_type\x60 result on " ++
         "each handle."),
     .bool s.memoizeAsType, .boolean⟩]

def logFields : List SchemaField :=
  let s : LogSettings := {}
  [⟨"json", some "Emit logs in JSON format.", .bool s.json,
     .boolean⟩,
   ⟨"level",
     some
       ("Logging level, or a full \x60EnvFilter\x60 directive " ++
         "string."),
     .text s.level, .text⟩,
   ⟨"stderr", some "Write logs to stderr.", .bool s.stderr,
     .boolean⟩]

def evictionWords : List (String × String) :=
  [("never",
     "Entries live for the lifetime of the cache. Canonical " ++
       "signatures are low-cardinality, so this is the default."),
   ("lru",
     "Drop the least recently used entry once \x60max_entries\x60 " ++
       "is exceeded.")]

/- The named parts of the settings, in the order of names. -/
def definitions : List (String × SchemaDefinition) :=
  [("EvictionPolicy",
     .choice "How the dispatch-stub cache reclaims entries."
       evictionWords),
   ("InvokeConfig", .record invokeFields),
   ("LoggingConfig", .record logFields),
   ("ThunkCacheConfig", .record stubFields)]

def fields : List SchemaField :=
  let s : Settings := {}
  [⟨"invoke", none, s.invoke.toJson, .named "InvokeConfig"⟩,
   ⟨"logging", none, s.logging.toJson, .named "LoggingConfig"⟩,
   ⟨"thunk_cache", none, s.stubs.toJson, .named "ThunkCacheConfig"⟩]

/- The schema of all settings. -/
def schema : Json :=
  .object
    ([("$schema", .text "http://json-schema.org/draft-07/schema#"),
      ("title", .text "JunctionConfig")] ++
      recordEntries fields ++
      [("definitions",
        .object (definitions.map (fun p => (p.1, p.2.toJson))))])

/- The schema over several lines. -/
def schemaText : String :=
  schema.pretty

end Settings

end Linkage
