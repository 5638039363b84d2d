import StoryMachine.Settings.Leaf
import StoryMachine.Settings.Node

/-!
# Settings documents

A settings document is written in YAML. Its nodes become values: first the
document itself, then the parts of its lists and mappings, then the parts of
those, and so on, so the first flaw of the outer parts is found before any of
the inner ones. A mapping under the sign for merging becomes part of the mapping
around it, whose own fields count more.
-/

namespace StoryMachine

/-- The values of a document, by the numbers of their nodes. -/
structure Document where
  nodes : Array Node := #[]
  /-- The node of the document; an empty text has none. -/
  root : Option Nat := none
  /-- The values of scalars, and nothing for lists and mappings that were reached. -/
  values : Array (Option Setting) := #[]
  /-- Lists and mappings whose parts have no values yet, the last first. -/
  waiting : List Nat := []
deriving Inhabited

/-- Actions that give nodes their values. -/
abbrev Build := Action Document

namespace Build

open Document

/-- A node. -/
def nodeAt (id : Nat) : Build Node := do
  return (← get).nodes.getD id default

/-- The fields of a mapping. -/
def fieldsOf (id : Nat) : Build (List (Nat × Nat)) := do
  match (← nodeAt id).content with
  | .mapping fields => return fields
  | _ => return []

/-- Replaces the fields of a mapping. -/
def setFields (id : Nat) (fields : List (Nat × Nat)) : Build Unit :=
  modify fun document =>
    { document with
      nodes := document.nodes.modify id fun node => { node with content := .mapping fields } }

/-- The text of a scalar. A mapping with a field for its default has the text of that. -/
def textOf (id : Nat) : Nat → Build Text
  | 0 => Action.refuse .nestedTooDeep
  | budget + 1 => do
      match (← nodeAt id).content with
      | .scalar text => return text
      | .list _ => Action.ofResult malformed
      | .mapping fields =>
          let document ← get
          match fields.find? fun (key, _) => (document.nodes.getD key default).kind = .default with
          | some (_, value) => textOf value budget
          | none => Action.ofResult malformed

mutual

/-- Merges mappings into the mapping around them; the budget counts calls. -/
def flatten (id : Nat) : Nat → Build Unit
  | 0 => Action.refuse .nestedTooDeep
  | budget + 1 => do
      let merged ← mergedFields id 0 budget
      setFields id (merged ++ (← fieldsOf id))

/-- The fields that are merged into a mapping from a place in it on. The signs for merging are taken
out, and the sign for a default becomes a text. -/
def mergedFields (id place : Nat) : Nat → Build (List (Nat × Nat))
  | 0 => Action.refuse .nestedTooDeep
  | budget + 1 => do
      let fields ← fieldsOf id
      match fields[place]? with
      | none => return []
      | some (key, value) =>
          match (← nodeAt key).kind with
          | .merge =>
              setFields id (fields.eraseIdx place)
              let merged ←
                match (← nodeAt value).content with
                | .mapping _ => flattened value budget
                | .list items => mergedItems items budget
                | .scalar _ => Action.ofResult malformed
              return merged ++ (← mergedFields id place budget)
          | .default =>
              modify fun document =>
                { document with
                  nodes := document.nodes.modify key fun node => { node with kind := .text } }
              mergedFields id (place + 1) budget
          | _ => mergedFields id (place + 1) budget

/-- The fields of a mapping with what is merged into it. -/
def flattened (id : Nat) : Nat → Build (List (Nat × Nat))
  | 0 => Action.refuse .nestedTooDeep
  | budget + 1 => do
      flatten id budget
      fieldsOf id

/-- The fields of a list of mappings; those of the first come last, since later fields count
more. -/
def mergedItems : List Nat → Nat → Build (List (Nat × Nat))
  | _, 0 => Action.refuse .nestedTooDeep
  | [], _ => return []
  | item :: items, budget + 1 => do
      match (← nodeAt item).content with
      | .mapping _ =>
          let fields ← flattened item budget
          return (← mergedItems items budget) ++ fields
      | _ => Action.ofResult malformed

end

/-- The number of calls that merging takes at most. -/
def mergeBudget : Build Nat := do
  let size (node : Node) : Nat :=
    match node.content with
    | .scalar _ => 1
    | .list items => items.length + 1
    | .mapping fields => fields.length + 1
  return (← get).nodes.foldl (fun sum node => sum + 4 * size node) 16

/-- Gives a node its value; the parts of a list or a mapping wait. A node has one value, however
often it is part of others. -/
def value (id : Nat) : Build Unit := do
  let document ← get
  if ((document.values.getD id none).isNone) then
    let node := document.nodes.getD id default
    let found ←
      match node.kind, node.content with
      | .list, _ | .mapping, _ | .set, _ | .pairs, _ | .orderedMapping, _ =>
          modify fun document => { document with waiting := id :: document.waiting }
          pure Setting.nothing
      | .time, .mapping _ =>
          let _ ← textOf id (document.nodes.size + 1)
          Action.refuse .notText
      | .merge, _ | .default, _ | .unknown, _ => Action.ofResult malformed
      | kind, _ => do
          let text ← textOf id (document.nodes.size + 1)
          Action.ofResult (Leaf.read kind text)
    modify fun document =>
      { document with values := document.values.setIfInBounds id (some found) }

/-- Gives the fields of a mapping their values. Lists and mappings are no keys. -/
def fieldValues (id : Nat) : Build Unit := do
  match (← nodeAt id).content with
  | .mapping _ =>
      flatten id (← mergeBudget)
      (← fieldsOf id).forM fun (key, field) => do
        value key
        expect (← nodeAt key).kind.isKey
        value field
  | _ => Action.ofResult malformed

/-- Gives the items of a list of pairs their values: each is a mapping with one field. -/
def pairValues (id : Nat) : Build Unit := do
  match (← nodeAt id).content with
  | .list items =>
      items.forM fun item => do
        match (← nodeAt item).content with
        | .mapping [(key, field)] => do
            value key
            value field
        | _ => Action.ofResult malformed
  | _ => Action.ofResult malformed

/-- Gives the parts of a list or a mapping their values. -/
def partValues (id : Nat) : Build Unit := do
  let node ← nodeAt id
  match node.kind, node.content with
  | .list, .list items => items.forM value
  | .list, _ => Action.ofResult malformed
  | .pairs, _ | .orderedMapping, _ => pairValues id
  | _, _ => fieldValues id

/-- Gives all that waits its values, then what waits after that, and so on. -/
def rounds : Nat → Build Unit
  | 0 => pure ()
  | budget + 1 => do
      let waiting := (← get).waiting.reverse
      if !waiting.isEmpty then
        modify fun document => { document with waiting := [] }
        waiting.forM partValues
        rounds budget

/-- Gives every part of a document its value. -/
def all (root : Nat) : Build Unit := do
  value root
  rounds ((← get).nodes.size + 1)

end Build

namespace Document

/-- The value of a node to some depth; the nodes around it are known. -/
def view (document : Document) (around : List Nat) : Nat → Nat → Setting
  | 0, _ => .nothing
  | depth + 1, id =>
      let node := document.nodes.getD id default
      let part := document.view (id :: around) depth
      if around.contains id then .again (node.kind = .mapping)
      else
        match node.kind, node.content with
        | .list, .list items => .list (items.map part)
        | .mapping, .mapping fields =>
            .mapping (fields.foldl (fun seen (key, value) =>
              Setting.putField (part key) (part value) seen) [])
        | .set, .mapping fields =>
            .set ((fields.foldl (fun seen (key, _) =>
              Setting.putField (part key) .nothing seen) []).map Prod.fst)
        | .pairs, .list items | .orderedMapping, .list items =>
            .pairs (items.filterMap fun item =>
              match (document.nodes.getD item default).content with
              | .mapping [(key, value)] => some (part key, part value)
              | _ => none)
        | _, _ => ((document.values.getD id none).getD .nothing)

/-- The value of a document to some depth; an empty text holds nothing. -/
def value (document : Document) (depth : Nat) : Setting :=
  (document.root.map (document.view [] depth)).getD .nothing

/-- The value of the field of a document with a name; of fields with one name the last counts. -/
def field? (document : Document) (name : String) : Option Setting := do
  let root ← document.root
  match (document.nodes.getD root default).content with
  | .mapping fields =>
      let (_, field) ← fields.reverse.find? fun (key, _) =>
        (document.view [root] 1 key).isText name
      return document.view [root] (document.nodes.size + 1) field
  | _ => none

/-- The document that a text is. All its lines end in line feeds. -/
def ofText (text : Text) : Result Document := do
  let (nodes, root) ← parse text
  let document : Document := { nodes, root, values := Array.replicate nodes.size none }
  match root with
  | none => return document
  | some root =>
      match Build.all root document with
      | .ok _ document => .ok document
      | .error failure _ => .error failure

end Document

end StoryMachine
