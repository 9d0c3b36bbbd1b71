import ExportIndex.Config
import ExportIndex.Json.Resource

/-!
# Configuration as JSON

A field that is absent takes its default; a field that is null is refused. In an array the last
fields may be absent.
-/

namespace ExportIndex

def ParserConfig.ofJson? (j : Json) : Option ParserConfig := do
  let record ← j.openRecord? ["reject_syntax_errors"]
  let rejectsFaults ← record.withDefault? "reject_syntax_errors" true Json.bool?
  return { rejectsFaults }

def Config.ofJson? (j : Json) : Option Config := do
  let record ← j.openRecord?
    ["root_path", "max_concurrent_reads", "hoist_ambient_modules", "parser"]
  let root ← record.withDefault? "root_path" { : Config }.root Path.ofJson?
  let maxConcurrentReads ← record.withDefault? "max_concurrent_reads" 32 Json.natural?
  let hoistsAmbientModules ← record.withDefault? "hoist_ambient_modules" true Json.bool?
  let parser ← record.withDefault? "parser" {} ParserConfig.ofJson?
  return { root, maxConcurrentReads, hoistsAmbientModules, parser }

end ExportIndex
