import ShapeSchema.Yaml.Node

/-!
Merges: a mapping takes in the pairs of other mappings, in front of its own. What is taken in counts
by its form alone, whatever its tag. A mapping that is being completed and is met again through a
reference is completed there as far as it goes, so merges may run in circles.
-/

namespace ShapeSchema.Yaml

/-- A key and its value. -/
abbrev NodePair := NodeId × NodeId

abbrev Merging := StateT NodeGraph (Except Failure)

namespace Merging

def count (graph : NodeGraph) : Nat :=
  (graph.toList.flatMap fun node => match node.content with
    | .mapping pairs => pairs.filter (graph.tag ·.1 = .merge)
    | _ => []).length

/-- The pairs of a node, none if it is no mapping. -/
def pairsOf (id : NodeId) : Merging (List NodePair) := do
  match (← get).content id with
  | .mapping pairs => return pairs
  | _ => return []

def setPairs (id : NodeId) (pairs : List NodePair) : Merging Unit :=
  modify (·.setContent id (.mapping pairs))

/-- Takes the first merge out of a mapping: the node that is to be merged. -/
def takeFirst (id : NodeId) : Merging (Option NodeId) := do
  let graph ← get
  let pairs ← pairsOf id
  match pairs.findIdx? (graph.tag ·.1 = .merge) with
  | none => return none
  | some position =>
    setPairs id (pairs.eraseIdx position)
    return pairs[position]?.map (·.2)

/-- Makes the keys of default values texts. -/
def nameDefaults (id : NodeId) : Merging Unit := do
  for (key, _) in ← pairsOf id do
    if (← get).tag key = .value then
      modify (·.setTag key .str)

/-- The pairs of a mapping after it is completed, where `taken` gives the pairs that it takes in. -/
def completeWith (taken : NodeId → Merging (List NodePair)) (id : NodeId) :
    Merging (List NodePair) := do
  nameDefaults id
  let others ← taken id
  let pairs := others ++ (← pairsOf id)
  setPairs id pairs
  return pairs

/-- The pairs that a mapping takes in, merge after merge; of the mappings in a list the first one
counts most, so its pairs come last. The first argument bounds how many merges there are; each is
taken out once. -/
def taken : (bound : Nat) → NodeId → Merging (List NodePair)
  | 0, _ => return []
  | bound + 1, id => do
    match ← takeFirst id with
    | none => return []
    | some source =>
      let complete := completeWith (taken bound)
      let pairs ← match (← get).content source with
        | .mapping _ => complete source
        | .list items => do
          let parts ← items.mapM fun item => do
            match (← get).content item with
            | .mapping _ => complete item
            | _ => throw .malformed
          pure parts.reverse.flatten
        | .scalar _ => throw .malformed
      return pairs ++ (← taken bound id)

def complete (id : NodeId) : Merging (List NodePair) := do
  completeWith (taken (count (← get))) id

end Merging
end ShapeSchema.Yaml
