import Segmentation.Dataset
import Segmentation.Json.Decode

/-!
# Datasets as JSON
-/

namespace Segmentation

namespace Attribute

def toJson (declared : Attribute) : Json :=
  .object [("name", .string declared.name), ("type", .string declared.type.name)]

def ofJson? (json : Json) : Option Attribute := do
  let members ← json.asRecord? ["name", "type"]
  let name ← Json.required? members "name" Json.asString?
  let type ← Json.required? members "type" (Json.asWord? AttributeType.named)
  return { name, type }

end Attribute

namespace Dataset

def toJson (dataset : Dataset) : Json :=
  .object [("name", .string dataset.name), ("schema", Json.ofNullable .string dataset.schema),
    ("key_column", .string dataset.keyColumn),
    ("attributes", .array (dataset.attributes.map Attribute.toJson))]

def ofJson? (json : Json) : Option Dataset := do
  let members ← json.asRecord? ["name", "schema", "key_column", "attributes"]
  let name ← Json.required? members "name" Json.asString?
  let schema ← Json.defaulted? members "schema" none (Json.asNullable? Json.asString?)
  let keyColumn ← Json.defaulted? members "key_column" defaultKeyColumn Json.asString?
  let attributes ← Json.defaulted? members "attributes" [] (Json.asList? Attribute.ofJson?)
  return { name, schema, keyColumn, attributes }

end Dataset

end Segmentation
