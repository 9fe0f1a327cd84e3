import ShapeSchema.Proofs.Shape.Correspondence
import ShapeSchema.Shape.Substitution

/-!
What a substitution is meant to make of a shape: the same node with its parts replaced, and the
binding itself in the place of a parameter.
-/

namespace ShapeSchema

namespace Shape

def isLeaf : Shape → Bool
  | primitive _ | document | objectId | unit _ | raw _ => true
  | _ => false

def isDeclared : Shape → Bool
  | declared _ => true
  | _ => false

def content? : Shape → Option Shape
  | optional _ inner | newtype _ _ inner => some inner
  | array _ element | set _ element | fixedArray _ element _ => some element
  | map _ _ value => some value
  | _ => none

/-- A wrapper with the same data of its own, under a label of its own and around another shape. -/
def refill (shape : Shape) (label : Nat) (content : Shape) : Shape :=
  match shape with
  | optional .. => optional label content
  | array .. => array label content
  | set .. => set label content
  | fixedArray _ _ length => fixedArray label content length
  | map _ key _ => map label key content
  | newtype _ name _ => newtype label name content
  | shape => shape

def wrapperLabel? : Shape → Option Nat
  | optional label _ | array label _ | set label _ | fixedArray label .. | map label ..
  | newtype label .. => some label
  | _ => none

variable {shape inner : Shape}

/-- A wrapper is made of its own label and content. -/
theorem exists_refill_eq (hcontent : shape.content? = some inner) :
    ∃ label, shape.refill label inner = shape := by
  cases shape with
  | optional label _ | array label _ | set label _ | fixedArray label _ _ | map label _ _
  | newtype label _ _ =>
    cases hcontent
    exact ⟨label, rfl⟩
  | _ => cases hcontent

theorem content?_refill (hcontent : shape.content? = some inner) (label : Nat) (content : Shape) :
    (shape.refill label content).content? = some content := by
  cases shape <;> first | rfl | cases hcontent

theorem wrapperLabel?_refill (hcontent : shape.content? = some inner) (label : Nat)
    (content : Shape) : (shape.refill label content).wrapperLabel? = some label := by
  cases shape <;> first | rfl | cases hcontent

/-- What a wrapper holds is its content. -/
theorem parts_of_content? (graph : Graph) (hcontent : shape.content? = some inner) :
    ∃ steps, graph.parts shape = [(steps, inner)] := by
  cases shape <;> cases hcontent <;> exact ⟨_, rfl⟩

theorem isDeclared_of_content? (hcontent : shape.content? = some inner) :
    shape.isDeclared = false := by
  cases shape <;> first | rfl | cases hcontent

end Shape

/-- What a shape of one graph becomes in another one where its parts are replaced by related ones:
a leaf stays, a parameter is replaced by its binding, if it has one, and everything else is built
anew or kept with the same data of its own. -/
inductive Graph.IsImage (graph other : Graph) (bindings : Bindings) (R : Shape → Shape → Prop) :
    Shape → Shape → Prop
  | leaf {s : Shape} (leaf : s.isLeaf) : IsImage graph other bindings R s s
  | parameter (label : Nat) (name : String) : IsImage graph other bindings R (.generic label name)
      ((bindings.lookup name).getD (.generic label name))
  | wrapper {s inner t : Shape} (label : Nat) (content : s.content? = some inner)
      (related : R inner t) : IsImage graph other bindings R s (s.refill label t)
  | declared {i j : Nat} {x y : Declaration} (given : graph.declaration? i = some x)
      (copied : other.declaration? j = some y) (type : Declaration.IsImage R x y) :
      IsImage graph other bindings R (.declared i) (.declared j)

namespace Graph.IsImage

variable {graph other : Graph} {bindings : Bindings} {R S : Shape → Shape → Prop} {s t : Shape}

/-- An image stays one under any relation that holds where the first one holds, for the parts. -/
theorem imp (h : graph.IsImage other bindings R s t)
    (hRS : EachPart (fun part => ∀ image, R part image → S part image) (graph.parts s)) :
    graph.IsImage other bindings S s t := by
  cases h with
  | leaf hleaf => exact .leaf hleaf
  | parameter label name => exact .parameter label name
  | wrapper label hcontent hrelated =>
    obtain ⟨steps, hparts⟩ := Shape.parts_of_content? graph hcontent
    rw [hparts, eachPart_singleton] at hRS
    exact .wrapper label hcontent (hRS _ hrelated)
  | @declared i j x y hgiven hcopied htype =>
    have hparts : graph.parts (.declared i) = x.parts := by simp [Graph.parts, hgiven]
    exact .declared hgiven hcopied (htype.imp (hparts ▸ hRS))

/-- Every part of a shape is related to something. -/
theorem part (h : graph.IsImage other bindings R s t) :
    EachPart (fun part => ∃ image, R part image) (graph.parts s) := by
  cases h with
  | leaf hleaf =>
    cases s with
    | primitive | document | objectId | unit | raw => exact eachPart_nil
    | _ => cases hleaf
  | parameter label name => exact eachPart_nil
  | @wrapper _ inner t label hcontent hrelated =>
    obtain ⟨steps, hparts⟩ := Shape.parts_of_content? graph hcontent
    rw [hparts, eachPart_singleton]
    exact ⟨t, hrelated⟩
  | @declared i j x y hgiven hcopied htype =>
    have hparts : graph.parts (.declared i) = x.parts := by simp [Graph.parts, hgiven]
    rw [hparts]
    exact htype.part

section Unbound

/-- What is no raw value becomes none, unless a parameter is replaced. -/
theorem ofShape_eq (h : graph.IsImage other bindings R s t)
    (hunbound : ∀ label name, s = .generic label name → bindings.lookup name = none)
    (hs : Extra.ofShape s = .values s) : Extra.ofShape t = .values t := by
  cases h with
  | leaf => exact hs
  | parameter label name =>
    rw [hunbound label name rfl]
    rfl
  | wrapper label hcontent =>
    cases s with
    | optional | array | set | fixedArray | map | newtype => rfl
    | _ => cases hcontent
  | declared => rfl

/-- An image has the same name, unless a parameter is replaced. -/
theorem describe_eq (h : graph.IsImage other bindings R s t)
    (hunbound : ∀ label name, s = .generic label name → bindings.lookup name = none) :
    graph.describe s = other.describe t := by
  cases h with
  | leaf => cases s <;> first | rfl | contradiction
  | parameter label name =>
    rw [hunbound label name rfl]
    rfl
  | wrapper label hcontent =>
    cases s <;> first | rfl | cases hcontent
  | declared hgiven hcopied htype =>
    simp only [Graph.describe, hgiven, hcopied, Option.map_some, htype.describe_eq]

/-- An image is built alike, unless a parameter is replaced. -/
theorem corresponds (h : graph.IsImage other bindings R s t)
    (hunbound : ∀ label name, s = .generic label name → bindings.lookup name = none)
    (hshapes : ∀ index type u v, s = .declared index →
      graph.declaration? index = some (.struct type) → type.extra = .values u → R u v →
        Extra.ofShape v = .values v) : Graph.Corresponds R graph other s t := by
  cases h with
  | leaf hleaf =>
    cases s with
    | primitive kind => exact .primitive kind
    | document => exact .document
    | objectId => exact .objectId
    | unit name => exact .unit name
    | raw value => exact .raw value
    | _ => cases hleaf
  | parameter label name =>
    rw [hunbound label name rfl]
    exact .generic label label name
  | wrapper label hcontent hinner =>
    cases s with
    | optional => cases hcontent; exact .optional _ _ hinner
    | array => cases hcontent; exact .array _ _ hinner
    | set => cases hcontent; exact .set _ _ hinner
    | fixedArray => cases hcontent; exact .fixedArray _ _ _ hinner
    | map => cases hcontent; exact .map _ _ _ hinner
    | newtype => cases hcontent; exact .newtype _ _ _ hinner
    | _ => cases hcontent
  | declared hgiven hcopied htype =>
    refine .declared hgiven hcopied (htype.corresponds ?_)
    rintro type u v rfl hextra huv
    exact hshapes _ type u v rfl hgiven hextra huv

end Unbound

end Graph.IsImage
end ShapeSchema
