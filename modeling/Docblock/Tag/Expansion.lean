/-
# Elements that stand for others

A code file, a schema or a document in a file is replaced, as soon as its
element is found, by the elements it stands for. Each replacement looks at
the last element only.

Key definitions: `Expansion`, `codeExpansion`, `schemaExpansion`,
`openApiExpansion`, `Hooks.builtin`.
-/
import Docblock.Hook
import Docblock.Tag.Example
import Docblock.Tag.Schema
import Docblock.OpenApi.External

namespace Docblock
namespace Tag

open Pattern

/-- What replaces an element found in a file; nothing if the element stays.
Remarks go with it. -/
abbrev Expansion := (filename : String) → Element → Option (List Element × List String)

/-- The hook that replaces the last element, if it has the given name. -/
def expandLast (name : String) (expand : Expansion) : Hook :=
  .elements fun _ filename es =>
    match es.getLast? with
    | none => (es, [])
    | some e =>
      if e.name != name then (es, [])
      else match expand filename e with
        | none => (es, [])
        | some (new, remarks) => (es.dropLast ++ new, remarks)

/-- The text of a code file as an example. -/
def codeExpansion (tree : FileTree) : Expansion := fun filename e =>
  let content := Text.trim e.content
  match codeContentPattern.find? content with
  | none => some ([], ["could not parse @apiCode content: " ++ content])
  | some m =>
    let file := Text.trim (m.group 2)
    let (language, title) := codeInfo m file
    let path := Path.beside filename file
    match tree.readText? path with
    | none => some ([], ["could not load code file " ++ path ++ ": not a text file"])
    | some code =>
      some ([.new "apiExample" code
        ("@apiExample \x7b" ++ language ++ "\x7d " ++ title ++ "\n" ++ code)], [])

/-- One parameter element for each property of a schema. -/
def schemaExpansion (tree : FileTree) : Expansion := fun filename e =>
  match SchemaReference.read? e.content with
  | some r => some (schemaElements tree r filename)
  | none =>
    some ([], if looksLikeSchema e.content then ["could not parse @apiSchema: " ++ e.content]
      else [])

/-- One element for each operation of a document in a file. -/
def openApiExpansion (tree : FileTree) : Expansion := fun filename e =>
  (OpenApi.ExternalReference.read? (Text.trim e.content)).map fun r =>
    match OpenApi.loadExternal tree r filename with
    | .ok external => (OpenApi.operationElements external.document, [])
    | .error remark => ([], [remark, "failed to load external OpenAPI file: " ++ r.file])

end Tag

/-- The hooks of the tags that stand for other elements. -/
def Hooks.builtin (tree : FileTree) : Hooks :=
  (((({} : Hooks).add findElements 190 (Tag.expandLast "openapi" (Tag.openApiExpansion tree))).add
    findElements 200 (Tag.expandLast "apischema" (Tag.schemaExpansion tree))).add
    findElements 300 (Tag.expandLast "apicode" (Tag.codeExpansion tree)))

end Docblock
