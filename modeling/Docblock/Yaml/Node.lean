/-
# Values from YAML tokens

The tokens of a document give one value. Two equal keys in a mapping are
refused, a name that was given to a value stands for it, and values nest at
most `maxDepth` deep.

Key definitions: `Yaml.Reading`, `Yaml.readNode`, `Yaml.parse?`, `Yaml.toJson`.
-/
import Docblock.Yaml.Token
import Docblock.Yaml.Printer

namespace Docblock
namespace Yaml

/-- Collections may be nested this deep. -/
def maxDepth : Nat := 128

/-- The tokens that are left, the values that have names, and the meanings of
tag handles. -/
structure Reading where
  tokens : List Token
  anchors : List (String × Yaml) := []
  handles : List (String × String) := []

namespace Reading

/-- The next token. -/
def peek (r : Reading) : Option Token := r.tokens.head?

/-- Passes one token. -/
def skip (r : Reading) : Reading := { r with tokens := r.tokens.drop 1 }

/-- Whether the next token is one of these; the end counts as none of them. -/
def sees (r : Reading) (ts : List Token) : Bool := r.peek.any ts.contains

end Reading

/-- The full name of a tag. -/
def tagName? (handles : List (String × String)) (handle suffix : String) : Option String :=
  if handle.isEmpty then some suffix
  else match handles.find? fun entry => entry.1 == handle with
    | some (_, meaning) => some (meaning ++ suffix)
    | none =>
      if handle == "!" then some ("!" ++ suffix)
      else if handle == "!!" then some ("tag:yaml.org,2002:" ++ suffix)
      else none

/-- The value of a scalar; a tag of the core kinds decides before its form. -/
def scalarValue? (tag : Option String) (text : String) (plain : Bool) : Option Yaml :=
  match tag with
  | some "tag:yaml.org,2002:bool" => (ofPlain? text).bind fun
    | .bool b => some (.bool b)
    | _ => none
  | some "tag:yaml.org,2002:int" => (ofPlain? text).bind fun
    | .int n => some (.int n)
    | _ => none
  | some "tag:yaml.org,2002:float" => real? text
  | some "tag:yaml.org,2002:null" => (ofPlain? text).bind fun
    | .null => some .null
    | _ => none
  | some name => if name.toList.head? == some '!' && plain then ofPlain? text else some (.str text)
  | none => if plain then ofPlain? text else some (.str text)

/-- An anchor and a tag before a value, in either order. -/
structure Properties where
  anchor : Option String := none
  tag : Option String := none

/-- Reads the anchor and the tag before a value. -/
def readProperties : (fuel : Nat) → Properties → Reading → Option (Properties × Reading)
  | 0, props, r => some (props, r)
  | fuel + 1, props, r =>
    match r.peek with
    | some (.anchor name) =>
      if props.anchor.isSome then some (props, r)
      else readProperties fuel { props with anchor := some name } r.skip
    | some (.tag handle suffix) =>
      if props.tag.isSome then some (props, r)
      else match tagName? r.handles handle suffix with
        | none => none
        | some name => readProperties fuel { props with tag := some name } r.skip
    | _ => some (props, r)

/-- Whether a key is there already. -/
def hasKey (key : Yaml) (entries : List (Yaml × Yaml)) : Bool :=
  entries.any fun entry => same entry.1 key

mutual

/-- Reads a value. `block` allows blocks and `indentless` a sequence that is
not indented deeper than its key. -/
def readNode : (fuel depth : Nat) → (block indentless : Bool) → Reading → Option (Yaml × Reading)
  | 0, _, _, _, _ => none
  | fuel + 1, depth, block, indentless, r =>
    match r.peek with
    | some (.alias name) =>
      (r.anchors.find? fun entry => entry.1 == name).map fun entry => (entry.2, r.skip)
    | _ =>
      match readProperties 2 {} r with
      | none => none
      | some (props, r) =>
        match readContent fuel depth block indentless props r with
        | none => none
        | some (v, r) =>
          match props.anchor with
          | none => some (v, r)
          | some name => some (v, { r with anchors := (name, v) :: r.anchors })

/-- Reads a value behind its anchor and tag. -/
def readContent : (fuel depth : Nat) → (block indentless : Bool) → Properties → Reading →
    Option (Yaml × Reading)
  | 0, _, _, _, _, _ => none
  | fuel + 1, depth, block, indentless, props, r =>
    match r.peek with
    | some (.scalar text plain) => (scalarValue? props.tag text plain).map fun v => (v, r.skip)
    | some t =>
      match depth, t with
      | depth + 1, .blockEntry =>
        if indentless then readIndentless fuel depth [] r
        else if props.anchor.isSome || props.tag.isSome then some (.null, r) else none
      | depth + 1, .flowSeqStart => readFlowSeq fuel depth true [] r.skip
      | depth + 1, .flowMapStart => readFlowMap fuel depth true [] r.skip
      | depth + 1, .blockSeqStart => if block then readBlockSeq fuel depth [] r.skip else none
      | depth + 1, .blockMapStart => if block then readBlockMap fuel depth [] r.skip else none
      | _, _ => if props.anchor.isSome || props.tag.isSome then some (.null, r) else none
    | none => if props.anchor.isSome || props.tag.isSome then some (.null, r) else none

/-- Reads the entries of an indented sequence. -/
def readBlockSeq : (fuel depth : Nat) → List Yaml → Reading → Option (Yaml × Reading)
  | 0, _, _, _ => none
  | fuel + 1, depth, items, r =>
    match r.peek with
    | some .blockEntry =>
      let r := r.skip
      if r.sees [.blockEntry, .blockEnd] then readBlockSeq fuel depth (items ++ [.null]) r
      else match readNode fuel depth true false r with
        | none => none
        | some (v, r) => readBlockSeq fuel depth (items ++ [v]) r
    | some .blockEnd => some (.seq items, r.skip)
    | _ => none

/-- Reads the entries of a sequence that is not indented deeper than its key. -/
def readIndentless : (fuel depth : Nat) → List Yaml → Reading → Option (Yaml × Reading)
  | 0, _, _, _ => none
  | fuel + 1, depth, items, r =>
    match r.peek with
    | some .blockEntry =>
      let r := r.skip
      if r.sees [.blockEntry, .key, .value, .blockEnd] then
        readIndentless fuel depth (items ++ [.null]) r
      else match readNode fuel depth true false r with
        | none => none
        | some (v, r) => readIndentless fuel depth (items ++ [v]) r
    | _ => some (.seq items, r)

/-- Reads the entries of an indented mapping. -/
def readBlockMap : (fuel depth : Nat) → List (Yaml × Yaml) → Reading → Option (Yaml × Reading)
  | 0, _, _, _ => none
  | fuel + 1, depth, entries, r =>
    match r.peek with
    | some .key =>
      match readBlockPart fuel depth r.skip with
      | none => none
      | some (key, r) =>
        if hasKey key entries then none
        else
          match r.peek with
          | some .value =>
            match readBlockPart fuel depth r.skip with
            | none => none
            | some (v, r) => readBlockMap fuel depth (entries ++ [(key, v)]) r
          | _ => readBlockMap fuel depth (entries ++ [(key, .null)]) r
    | some .blockEnd => some (.map entries, r.skip)
    | _ => none

/-- Reads a key or value of an indented mapping, which may be empty. -/
def readBlockPart : (fuel depth : Nat) → Reading → Option (Yaml × Reading)
  | 0, _, _ => none
  | fuel + 1, depth, r =>
    if r.sees [.key, .value, .blockEnd] then some (.null, r) else readNode fuel depth true true r

/-- Reads the entries of a sequence in brackets. -/
def readFlowSeq : (fuel depth : Nat) → (first : Bool) → List Yaml → Reading →
    Option (Yaml × Reading)
  | 0, _, _, _, _ => none
  | fuel + 1, depth, first, items, r =>
    if r.sees [.flowSeqEnd] then some (.seq items, r.skip)
    else if !first && !r.sees [.flowEntry] then none
    else
      let r := if first then r else r.skip
      match r.peek with
      | some .flowSeqEnd => some (.seq items, r.skip)
      | some .key =>
        match readFlowPair fuel depth .flowSeqEnd r.skip with
        | none => none
        | some (key, v, r) => readFlowSeq fuel depth false (items ++ [.map [(key, v)]]) r
      | _ =>
        match readNode fuel depth false false r with
        | none => none
        | some (v, r) => readFlowSeq fuel depth false (items ++ [v]) r

/-- Reads a key and its value inside brackets; either may be empty. -/
def readFlowPair : (fuel depth : Nat) → (close : Token) → Reading →
    Option (Yaml × Yaml × Reading)
  | 0, _, _, _ => none
  | fuel + 1, depth, close, r =>
    match if r.sees [.value, .flowEntry, close] then some (.null, r)
      else readNode fuel depth false false r with
    | none => none
    | some (key, r) =>
      if r.sees [.value] then
        let r := r.skip
        if r.sees [.flowEntry, close] then some (key, .null, r)
        else match readNode fuel depth false false r with
          | none => none
          | some (v, r) => some (key, v, r)
      else some (key, .null, r)

/-- Reads the entries of a mapping in braces. -/
def readFlowMap : (fuel depth : Nat) → (first : Bool) → List (Yaml × Yaml) → Reading →
    Option (Yaml × Reading)
  | 0, _, _, _, _ => none
  | fuel + 1, depth, first, entries, r =>
    if r.sees [.flowMapEnd] then some (.map entries, r.skip)
    else if !first && !r.sees [.flowEntry] then none
    else
      let r := if first then r else r.skip
      match r.peek with
      | some .flowMapEnd => some (.map entries, r.skip)
      | some .key =>
        match readFlowPair fuel depth .flowMapEnd r.skip with
        | none => none
        | some (key, v, r) =>
          if hasKey key entries then none
          else readFlowMap fuel depth false (entries ++ [(key, v)]) r
      | _ =>
        match readNode fuel depth false false r with
        | none => none
        | some (key, r) =>
          if hasKey key entries then none
          else readFlowMap fuel depth false (entries ++ [(key, .null)]) r

end

/-! ### Documents -/

/-- Passes marks that end documents. -/
def dropEnds (r : Reading) : Reading :=
  { r with tokens := r.tokens.dropWhile (· == .documentEnd) }

/-- Reads the lines with `%` before a document. -/
def readDirectives : (fuel : Nat) → (versions : Nat) → Reading → Option Reading
  | 0, _, r => some r
  | fuel + 1, versions, r =>
    match r.peek with
    | some .version => if versions > 0 then none else readDirectives fuel 1 r.skip
    | some (.tagDirective handle meaning) =>
      if r.handles.any fun entry => entry.1 == handle then none
      else readDirectives fuel versions { r.skip with handles := (handle, meaning) :: r.handles }
    | _ => some r

/-- Whether the next token can begin the content of a document. -/
def beginsContent (r : Reading) : Bool :=
  match r.peek with
  | none => false
  | some .documentStart => false
  | some .documentEnd => false
  | some .version => false
  | some (.tagDirective _ _) => false
  | some _ => true

/-- Reads the only document of a text; a text without documents is null. -/
def readDocument (r : Reading) : Option Yaml := do
  let fuel := 4 * r.tokens.length + 8
  let r := dropEnds r
  if r.tokens.isEmpty then return .null
  let r ←
    if beginsContent r then some r
    else do
      let r ← readDirectives (r.tokens.length + 1) 0 r
      if r.sees [.documentStart] then some r.skip else none
  let (v, r) ← if beginsContent r then readNode fuel maxDepth true true r else some (.null, r)
  -- a second document, or anything else behind the first one, is refused
  if (dropEnds r).tokens.isEmpty then return v else none

/-- The value that a text holds. -/
def parse? (s : String) : Option Yaml :=
  (tokens? s).bind fun tokens => readDocument { tokens }

/-! ### As JSON -/

/-- A key as text: a number or truth value as it is written, a collection as
its YAML. -/
def keyText : Yaml → String
  | .str s => s
  | .int n => renderInt n
  | .real x => renderReal x
  | .infinity negative => if negative then "-.inf" else ".inf"
  | .notANumber => ".nan"
  | .bool b => if b then "true" else "false"
  | .null => "null"
  | other => Text.trim (render other)

mutual

/-- The value as JSON. -/
def toJson : Yaml → Json
  | .null => .null
  | .bool b => .bool b
  | .int n => .num (.int n)
  | .real x => .num (.real x)
  | .infinity _ => .null
  | .notANumber => .null
  | .str s => .str s
  | .seq items => .arr (toJsonItems items)
  | .map entries => .obj (Fields.setAll [] (toJsonEntries entries))

/-- `toJson` on sequences. -/
def toJsonItems : List Yaml → List Json
  | [] => []
  | v :: vs => toJson v :: toJsonItems vs

/-- `toJson` on entries. -/
def toJsonEntries : List (Yaml × Yaml) → List (String × Json)
  | [] => []
  | (k, v) :: rest => (keyText k, toJson v) :: toJsonEntries rest

end

mutual

/-- A JSON value as YAML. -/
def ofJson : Json → Yaml
  | .null => .null
  | .bool b => .bool b
  | .num (.int n) => .int n
  | .num (.real x) => .real x
  | .str s => .str s
  | .arr items => .seq (ofJsonItems items)
  | .obj fields => .map (ofJsonEntries fields)

/-- `ofJson` on arrays. -/
def ofJsonItems : List Json → List Yaml
  | [] => []
  | v :: vs => ofJson v :: ofJsonItems vs

/-- `ofJson` on entries. -/
def ofJsonEntries : List (String × Json) → List (Yaml × Yaml)
  | [] => []
  | (k, v) :: rest => (.str k, ofJson v) :: ofJsonEntries rest

end

end Yaml
end Docblock
