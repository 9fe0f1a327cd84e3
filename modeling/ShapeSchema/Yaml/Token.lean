import ShapeSchema.Yaml.Cursor

/-!
The tokens of a YAML text.
-/

namespace ShapeSchema.Yaml

/-- A line in front of a document that says how to read it. -/
inductive Directive where
  | version (major minor : Nat)
  | handle (name expansion : String)
  | other
deriving DecidableEq

/-- A token. Where indentation opens or closes a collection, the text has no character for it. -/
inductive Token where
  | directive (content : Directive)
  | documentStart
  | documentEnd
  | blockListStart
  | blockMappingStart
  | blockEnd
  /-- The dash in front of an item. -/
  | item
  | listOpen
  | listClose
  | mappingOpen
  | mappingClose
  | comma
  | key
  | value
  | reference (name : String)
  | anchor (name : String)
  /-- A tag, as a handle and what follows it, or as it is. -/
  | tag (handle : Option String) (suffix : String)
  /-- The text of a scalar, and whether it was neither quoted nor a block of lines. -/
  | scalar (text : String) (plain : Bool)
  /-- No further token can be had, so whoever reads this far fails. -/
  | broken (failure : Failure)
deriving DecidableEq

end ShapeSchema.Yaml
