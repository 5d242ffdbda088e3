/-
# Data models

`@model Name title` and `@apiModel {model=Name}` open a model; attributes and
hooks belong to the model in parentheses or to the one opened last.

Key definitions: `readModel`, `attributePattern`, `readAttribute`,
`readModelHook`, `modelTags`.
-/
import Docblock.Tag.Grammar
import Docblock.Text.Indent
import Docblock.Text.Case

namespace Docblock
namespace Tag

open Pattern

/-! ### Models -/

/-- A name and a title. -/
def modelPattern : Pattern :=
  all [.textStart, .group 1 (chars1 Text.isAsciiWord),
    opt (all [blanks1, .group 2 (charsLazy1 notNewline)]), .textEnd]

/-- Reads `Name title` and opens the model. -/
def readModel : Reader := fun content _ memory =>
  match modelPattern.find? (firstLine (Text.trim content)) with
  | none => { result := .ok none, memory }
  | some m =>
    { result := .ok (some (.obj [("name", .str (m.group 1)), ("title", .str (m.group 2))])),
      memory := { memory with currentModel := m.group 1 } }

/-- A model in braces and a description. -/
def modelReferencePattern : Pattern :=
  all [.textStart, lit "\x7bmodel=", .group 1 (charsLazy1 notNewline), lit "\x7d", blanks,
    .group 2 (.chars notNewline), .textEnd]

/-- Reads `{model=Name} description` and opens the model. -/
def readModelReference : Reader := fun content _ memory =>
  match (Text.nonBlank? content).bind modelReferencePattern.find? with
  | none => { result := .ok none, memory }
  | some m =>
    { result := .ok (some (Json.ofPresent [("name", Json.str (m.group 1)),
        ("description", ((m.group? 2).filter fun d => !d.isEmpty).map .str)])),
      memory := { memory with currentModel := m.group 1 } }

/-- The model of an attribute or hook: the one in parentheses, else the open
one, else `Model`. -/
def chooseModel (explicit : Option String) (memory : Memory) : Memory :=
  let model := explicit.getD memory.currentModel
  { memory with currentModel := if model.isEmpty then "Model" else model }

/-! ### Attributes -/

/-- Decorators of relations between models. -/
def relationDecorators : List String := ["BelongsTo", "HasMany", "HasOne", "BelongsToMany"]

/-- Decorators of timestamps. -/
def timestampDecorators : List String := ["CreatedAt", "UpdatedAt", "DeletedAt"]

/-- The kinds of decorators. -/
def decoratorKinds : List (String × List String) := [
  ("constraint", ["PrimaryKey", "Unique", "AllowNull", "AutoIncrement", "Default"]),
  ("relation", relationDecorators),
  ("validation", ["ValidateAttribute", "Validate"]),
  ("index", ["Index"]),
  ("timestamp", timestampDecorators),
  ("attribute", ["Attribute"])]

/-- The kind of a decorator. -/
def decoratorKind (name : String) : String :=
  match decoratorKinds.find? fun (_, names) => names.contains name with
  | some (kind, _) => kind
  | none => "other"

/-- A model in parentheses, a type with decorators in braces, a field with its
default, and a description. -/
def attributePattern : Pattern :=
  all [.textStart, groupPart 1, blanks,
    opt (all [lit "\x7b", blanks, .group 2 (chars1 (alnumOr "[]")), blanks,
      opt (.group 3 (all [lit "@",
        .chars fun c => alnumOr "(),.@_-" c || Text.isBlank c])),
      blanks, lit "\x7d", blanks]),
    .group 4 (all [opt (lit "["), blanks, .group 5 (chars1 (alnumOr "$_")), defaultPart 6 7 8, blanks,
      opt (lit "]"), blanks]),
    restPart 9, .textEnd]

/-- A decorator with its arguments. -/
def decoratorPattern : Pattern :=
  all [lit "@", .group 1 (chars1 Text.isAsciiWord),
    opt (all [lit "(", .group 2 (.chars (· != ')')), lit ")"])]

/-- Reads `(Model) {Type @Decorator(args)} [field=default] description`. -/
def readAttribute : Reader := fun content _ memory =>
  match attributePattern.find? (oneLine content) with
  | none => { result := .ok none, memory }
  | some m =>
    let memory := chooseModel (restored m 1) memory
    let decorators := ((m.group? 3).map decoratorPattern.findAll).getD []
    let has (names : List String) : Json := .bool (decorators.any fun d => names.contains (d.group 1))
    let value := Json.ofPresent [
      ("model", Json.str memory.currentModel),
      ("type", Json.str ((m.group? 2).getD "Unknown")),
      ("decorators", Json.arr (decorators.map fun d => Json.ofPresent [
        ("name", Json.str (d.group 1)),
        ("params", ((d.group? 2).filter fun p => !p.isEmpty).map .str),
        ("category", Json.str (decoratorKind (d.group 1)))])),
      ("optional", Json.bool (Text.startsWith (m.group 4) "[")),
      ("field", Json.str (m.group 5)),
      ("defaultValue", (((restored m 6).or ((restored m 7).or (restored m 8))).filter
        fun v => !v.isEmpty).map .str),
      ("description", Json.str (Text.unindent ((restored m 9).getD ""))),
      ("isRelation", has relationDecorators),
      ("isPrimaryKey", has ["PrimaryKey"]),
      ("isUnique", has ["Unique"]),
      ("isIndex", has ["Index"]),
      ("isTimestamp", has timestampDecorators)]
    { result := .ok (some value), memory }

/-! ### Hooks of a model's life -/

/-- The moments of a model's life that have a category of their own. -/
def lifecycleHooks : List String := [
  "BeforeValidate", "AfterValidate", "BeforeCreate", "AfterCreate", "BeforeDestroy",
  "AfterDestroy", "BeforeRestore", "AfterRestore", "BeforeUpdate", "AfterUpdate", "BeforeSave",
  "AfterSave", "BeforeUpsert", "AfterUpsert", "BeforeBulkCreate", "AfterBulkCreate",
  "BeforeBulkDestroy", "AfterBulkDestroy", "BeforeBulkRestore", "AfterBulkRestore",
  "BeforeBulkUpdate", "AfterBulkUpdate", "BeforeFind", "BeforeFindAfterExpandIncludeAll",
  "BeforeFindAfterOptions", "AfterFind", "BeforeCount", "BeforeSync", "AfterSync",
  "BeforeBulkSync", "AfterBulkSync", "BeforeAssociate", "AfterAssociate", "BeforeConnect",
  "AfterConnect", "BeforeDisconnect", "AfterDisconnect"]

/-- The category of a hook: its decorator with a small first letter. -/
def hookCategory (decorator : String) : String :=
  if decorator == "ValidationFailed" then "afterValidate"
  else if lifecycleHooks.contains decorator then Text.decapitalize decorator
  else "other"

/-- The phase of a hook. -/
def hookPhase (decorator : String) : String :=
  if Text.startsWith decorator "Before" then "before"
  else if Text.startsWith decorator "After" then "after"
  else if Text.contains decorator "Validat" then "validation"
  else "other"

/-- A model in parentheses, a decorator, a method and a description. -/
def modelHookPattern : Pattern :=
  all [.textStart, groupPart 1, lit "@", .group 2 (chars1 Char.isAlphanum), blanks1,
    .group 3 (chars1 Text.isAsciiWord), blanks, restPart 4, .textEnd]

/-- Reads `(Model) @AfterCreate methodName description`. -/
def readModelHook : Reader := fun content _ memory =>
  match modelHookPattern.find? (oneLine content) with
  | none => { result := .ok none, memory }
  | some m =>
    let memory := chooseModel (restored m 1) memory
    let decorator := m.group 2
    let value := Json.obj [
      ("model", .str memory.currentModel),
      ("decorator", .str decorator),
      ("methodName", .str (m.group 3)),
      ("description", .str (Text.unindent ((restored m 4).getD ""))),
      ("category", .str (hookCategory decorator)),
      ("phase", .str (hookPhase decorator)),
      ("isBulk", .bool (Text.contains decorator "Bulk"))]
    { result := .ok (some value), memory }

/-- The tags of data models. -/
def modelTags : List (String × Tag) := [
  ("model", inserted "local" readModel),
  ("modelGroup", inserted "local" (.keyed "group")),
  ("modelName", inserted "local" (.keyed "name")),
  ("modelDescription", { inserted "local" (.keyed "description") with
    markdownFields := ["description"] }),
  ("apiModel", inserted "local.model" readModelReference),
  ("apiModelAttribute", {
    read := readAttribute
    path := fun memory => some ("local.model.attributes." ++ memory.currentModel)
    markdownFields := ["description", "type"]
    removePTags := ["type"] }),
  ("apiModelHook", {
    read := readModelHook
    path := fun memory => some ("local.model.hooks." ++ memory.currentModel)
    markdownFields := ["description"] })]

end Tag
end Docblock
