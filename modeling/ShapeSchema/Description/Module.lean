import ShapeSchema.Description.Reader
import ShapeSchema.Description.TypeExprs
import ShapeSchema.Schema.Target

/-!
Reading modules from their JSON descriptions, which hold classes and named shapes.
-/

namespace ShapeSchema.Description

def readModule (json : Json) : Except ReadError Module := do
  let classes ← (← listMember "classes" json).mapM readClass
  let defs := match member? "defs" json with
    | some (.obj defs) => defs
    | _ => []
  let size := size json
  let read : Reader (List (String × Shape)) := do
    let shapes ← defs.mapM fun (name, _) => do
      return (name, ← readShape defs size (.str ("@" ++ name)))
    readPending defs size size
    return shapes
  let (shapes, state) ← read.run ⟨.empty, [], []⟩
  return ⟨classes, state.graph, shapes⟩

end ShapeSchema.Description
