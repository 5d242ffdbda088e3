/-
# Hooks

Hooks change elements while they are found. Those of one name run in the
order of their priorities, lower ones first; a hook takes the place of an
earlier one with the same priority.

Key definitions: `Hook`, `Hooks`, `Hooks.add`, `Hooks.applyElement`,
`Hooks.applyElements`.
-/
import Docblock.Element.Basic

namespace Docblock

/-- A hook: it changes one element before it is added, or the list of elements
after one was added. The second kind may leave remarks. Both see the text of
the block and the name of the file. -/
inductive Hook where
  | element (change : (block filename : String) → Element → Element)
  | elements (change : (block filename : String) → List Element → List Element × List String)

/-- A hook with its priority. -/
structure HookEntry where
  priority : Int
  hook : Hook

/-- The hooks of each name. -/
structure Hooks where
  lists : List (String × List HookEntry) := []

namespace Hooks

/-- The name of the hooks that run after an element was added. -/
def findElements : String := "parser-find-elements"

/-- The name of the hooks for elements of one name. -/
def findElement (name : String) : String := "parser-find-element-" ++ name

/-- The hooks of a name, in the order of their priorities. -/
def named (h : Hooks) (name : String) : List HookEntry :=
  match h.lists.find? fun list => list.1 == name with
  | some (_, entries) => entries
  | none => []

/-- Puts a hook into its place among the others. -/
def insertEntry (new : HookEntry) : List HookEntry → List HookEntry
  | [] => [new]
  | e :: es =>
    if new.priority == e.priority then new :: es
    else if new.priority < e.priority then new :: e :: es
    else e :: insertEntry new es

/-- Changes the list of a name. -/
def update (name : String) (f : List HookEntry → List HookEntry) :
    List (String × List HookEntry) → List (String × List HookEntry)
  | [] => [(name, f [])]
  | (n, entries) :: rest =>
    if n == name then (n, f entries) :: rest else (n, entries) :: update name f rest

/-- Adds a hook under a name. -/
def add (h : Hooks) (name : String) (priority : Int) (hook : Hook) : Hooks :=
  ⟨update name (insertEntry ⟨priority, hook⟩) h.lists⟩

/-- Whether there are hooks of a name. -/
def isRegistered (h : Hooks) (name : String) : Bool := !(h.named name).isEmpty

/-- Runs the hooks for single elements. -/
def applyElement (h : Hooks) (name block filename : String) (e : Element) : Element :=
  (h.named name).foldl (fun e entry =>
    match entry.hook with
    | .element change => change block filename e
    | .elements _ => e) e

/-- Runs the hooks for lists of elements, and collects their remarks. -/
def applyElements (h : Hooks) (name block filename : String) (es : List Element) :
    List Element × List String :=
  (h.named name).foldl (fun (es, remarks) entry =>
    match entry.hook with
    | .element _ => (es, remarks)
    | .elements change =>
      let (es, more) := change block filename es
      (es, remarks ++ more)) (es, [])

end Hooks
end Docblock
