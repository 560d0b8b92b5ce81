import Stencil.Json
import Stencil.Table

/-!
# Schemas

A schema is a JSON document that lists tables with their columns. A table may
leave its columns out, and a column its flags. The type of a column goes by two
names.
-/
namespace Stencil.Schema
open Json

def column? (v : Json) : Option Column :=
  match record? [["name".toList], ["type".toList, "data_type".toList], ["nullable".toList],
      ["primary_key".toList]] v with
  | some [some name, some type, nullable, primaryKey] => do
    let name ← text? name
    let type ← text? type
    let nullable ← orElse false bool? nullable
    let primaryKey ← orElse false bool? primaryKey
    return ⟨name, type, nullable, primaryKey⟩
  | _ => none

def table? (v : Json) : Option Table :=
  match record? [["name".toList], ["columns".toList]] v with
  | some [some name, columns] => do
    let name ← text? name
    let columns ← orElse [] (listOf? column?) columns
    return ⟨name, columns⟩
  | _ => none

/-- The tables that a document lists. -/
def tables? (document : Text) : Option (List Table) :=
  match (Json.ofText? document).bind (record? [["tables".toList]]) with
  | some [some tables] => listOf? table? tables
  | _ => none

end Stencil.Schema
