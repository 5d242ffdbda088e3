/-
# TypeScript interfaces

A small reader of interface declarations: comments and the insides of texts
are removed, the body of each `interface Name { ... }` is cut out by matching
braces, and each `name?: type` line of it is a property.

Key definitions: `Interface`, `Interface.readAll`, `normalizeType`,
`Interface.toElements`, `Interface.find`.
-/
import Docblock.Element.Basic
import Docblock.FileTree
import Docblock.Pattern.Search
import Docblock.Text.Blank

namespace Docblock
namespace TypeScript

open Pattern

/-- A property of an interface. -/
structure Property where
  name : String
  kind : String
  optional : Bool
  description : String

/-- An interface declaration. -/
structure Interface where
  name : String
  properties : List Property
  bases : List String

/-! ### Types -/

/-- The names of simple types in the documentation. -/
def simpleType? (kind : String) : Option String :=
  match kind with
  | "string" => some "String"
  | "number" => some "Number"
  | "boolean" => some "Boolean"
  | "any" => some "Mixed"
  | "unknown" => some "Mixed"
  | "object" => some "Object"
  | "void" => some "Void"
  | _ => none

/-- A text in quotes of either kind. -/
def quotedValue : Pattern :=
  all [.one (among "'\""), .group 1 (chars1 (notAmong "'\"")), .one (among "'\"")]

/-- A type with arguments in angle brackets. -/
def genericType : Pattern :=
  all [.textStart, .group 1 (chars1 Text.isAsciiWord), lit "<", .group 2 (chars1 notNewline), lit ">",
    .textEnd]

/-- A type parameter. -/
def isTypeParameter (kind : String) : Bool :=
  match kind.toList with
  | [c] => c.isUpper
  | _ => false

/-- What a type with quoted values is, if they decide it. -/
def quotedType? (kind : String) : Option String :=
  if !(kind.toList.any (among "'\"")) then none
  else if Text.contains kind "|" then
    let values := (quotedValue.findAll kind).map Match.text
    if values.length > 1 then some ("String=" ++ Text.join "," values) else none
  else if quotedValue.occursIn kind then some "String"
  else none

/-- The documentation's name of a type. Parts of a union and arguments are
shorter than the whole; the fuel is the length of the text. -/
def typeName : (fuel : Nat) → String → String
  | 0, kind => Text.trim kind
  | fuel + 1, kind =>
    let kind := Text.trim kind
    match simpleType? kind with
    | some name => name
    | none =>
      if isTypeParameter kind then "Mixed"
      else match quotedType? kind with
        | some name => name
        | none =>
          if Text.contains kind "|" then Text.join "/" ((Text.split '|' kind).map (typeName fuel))
          else match genericType.find? kind with
            | some m =>
              if m.group 1 == "Array" then typeName fuel (m.group 2) ++ "[]"
              else typeName fuel (m.group 1)
            | none => kind

/-- The documentation's name of a type. -/
def normalizeType (kind : String) : String := typeName (kind.length + 1) kind

/-- A name as words: `createdAt` is `Created at`. -/
def describe (name : String) : String :=
  Text.capitalize (String.ofList (name.toList.flatMap fun c =>
    if c.isUpper then [' ', c.toLower] else [c.toLower]))

/-! ### Declarations -/

/-- The text without comments and without what stands in quotes. -/
def strip (content : String) : String :=
  let emptied (quote : Char) : Pattern :=
    all [.one (· == quote), .chars (· != quote), .one (· == quote)]
  let content := (all [lit "//", .chars notNewline, .lineEnd]).replaceAll (fun _ => "") content
  let content := (all [lit "/*", .charsLazy fun _ => true, lit "*/"]).replaceAll (fun _ => "") content
  let content := (emptied '"').replaceAll (fun _ => "\"\"") content
  let content := (emptied '\'').replaceAll (fun _ => "''") content
  (emptied (Char.ofNat 0x60)).replaceAll (fun _ => "\x60\x60") content

/-- The head of a declaration up to its opening brace. -/
def interfacePattern : Pattern :=
  all [lit "interface", blanks1, .group 1 (chars1 Text.isAsciiWord),
    opt (all [lit "<", .chars (· != '>'), lit ">"]),
    opt (all [blanks1, lit "extends", blanks1,
      .group 2 (chars1 fun c => Text.isAsciiWord c || c == ',' || Text.isBlank c)]),
    blanks, lit "\x7b"]

/-- The text before the brace that closes an open one. -/
def untilBrace : (depth : Nat) → List Char → Option (List Char)
  | _, [] => none
  | depth, '{' :: cs => (untilBrace (depth + 1) cs).map ('{' :: ·)
  | 0, '}' :: _ => some []
  | depth + 1, '}' :: cs => (untilBrace depth cs).map ('}' :: ·)
  | depth, c :: cs => (untilBrace depth cs).map (c :: ·)

/-- A property's name and its colon. -/
def propertyHead : Pattern :=
  all [.textStart, .group 1 (chars1 Text.isAsciiWord), opt (.group 2 (lit "?")), lit ":", blanks]

/-- A comment at the end of a line. -/
def propertyComment : Pattern :=
  opt (all [blanks, lit "//", .group 4 (chars1 notNewline)])

/-- An index signature. -/
def indexSignature : Pattern :=
  all [.textStart, lit "[", chars1 fun c => Text.isAsciiWord c || Text.isBlank c || c == ':', lit "]:",
    blanks, chars1 Text.isAsciiWord]

/-- The property of a match with its type. -/
def propertyOf (m : Match) (kind : String) (comment : Option String) : Property where
  name := m.group 1
  kind := kind
  optional := (m.group? 2).isSome
  description := (comment.bind Text.nonBlank?).getD (describe (m.group 1))

/-- The property that a line declares. -/
def readProperty? (line : String) : Option Property :=
  if line.isEmpty || Text.startsWith line "//" || Text.startsWith line "*" ||
      indexSignature.occursIn line then none
  else match (all [propertyHead, lit "Array<"]).find? line with
    | some m => some (propertyOf m "Array" none)
    | none =>
      match (all [propertyHead, lit "\x7b"]).find? line with
      | some m => some (propertyOf m "Object" none)
      | none =>
        match (all [propertyHead, .group 3 (charsLazy1 notNewline), lit "[]", propertyComment,
            .textEnd]).find? line with
        | some m => some (propertyOf m (normalizeType (m.group 3) ++ "[]") (m.group? 4))
        | none =>
          match (all [propertyHead, .group 3 (charsLazy1 notNewline), propertyComment,
              .textEnd]).find? line with
          | some m =>
            if Text.trim (m.group 3) == "\x7b" then none
            else some (propertyOf m (normalizeType (m.group 3)) (m.group? 4))
          | none => none

/-- The properties in the body of a declaration. -/
def readBody (body : String) : List Property :=
  (Text.splitBy (fun c => c == ';' || c == '\n') body).filterMap fun line =>
    readProperty? (Text.trim line)

namespace Interface

/-- All interfaces of a text, in order. -/
def readAll (content : String) : List Interface :=
  (interfacePattern.findAll (strip content)).filterMap fun m =>
    (untilBrace 0 m.stop.rest).map fun body => {
      name := m.group 1
      properties := readBody (String.ofList body)
      bases := ((m.group? 2).map fun names => (Text.split ',' names).map Text.trim).getD [] }

/-- One parameter element for each property. -/
def toElements (i : Interface) (element group : String) : List Element :=
  let lead := if group.isEmpty then "" else "(" ++ group ++ ") "
  i.properties.map fun p =>
    let field := if p.optional then "[" ++ p.name ++ "]" else p.name
    let content := lead ++ "\x7b" ++ p.kind ++ "\x7d " ++ field ++ " " ++ p.description
    .new element (Text.trim content) ("@" ++ element ++ " " ++ content)

/-- Looks for an interface in the TypeScript files, in the order of their
names; files that cannot be read leave remarks. -/
def findIn (tree : FileTree) (name : String) : List String → Option Interface × List String
  | [] => (none, [])
  | path :: paths =>
    match tree.readText? path with
    | none =>
      let (found, remarks) := findIn tree name paths
      (found, ("could not read TypeScript file " ++ path ++ ": not readable") :: remarks)
    | some content =>
      match (readAll content).find? fun i => i.name == name with
      | some i => (some i, [])
      | none => findIn tree name paths

/-- Looks for an interface in the TypeScript files beside a file. -/
def find (tree : FileTree) (name filename : String) : Option Interface × List String :=
  let folder := (Path.parent? filename).getD "."
  match tree.folder? folder with
  | none =>
    (none, ["could not read directory " ++ folder ++ " for interface search: not readable"])
  | some names =>
    findIn tree name ((names.map (Path.join folder)).filter fun path =>
      Text.endsWith path ".ts" || Text.endsWith path ".tsx")

end Interface
end TypeScript
end Docblock
