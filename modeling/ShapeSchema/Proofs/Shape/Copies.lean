import Mathlib.Data.List.Monad
import ShapeSchema.Proofs.Shape.Closed
import ShapeSchema.Proofs.Shape.Parts
import ShapeSchema.Shape.Substitution

/-!
What a substitution leaves alone. The graph it answers with declares all that the given graph
declares, and a named wrapper that belongs to the given graph never comes to hold a copy.
-/

namespace ShapeSchema

/-- Whether the named wrappers in a shape that belong to the graph hold declared types of the graph
only. -/
def Graph.Separates (graph : Graph) : Shape → Prop
  | .newtype label _ inner => (label < graph.labels → graph.holds inner) ∧ graph.Separates inner
  | .optional _ inner => graph.Separates inner
  | .array _ element | .set _ element | .fixedArray _ element _ => graph.Separates element
  | .map _ _ value => graph.Separates value
  | _ => True

theorem Graph.separates_of_holds {graph : Graph} {shape : Shape} (hshape : graph.holds shape) :
    graph.Separates shape := by
  induction shape with
  | newtype label name inner ih => exact ⟨fun _ => hshape, ih hshape⟩
  | optional _ _ ih | array _ _ ih | set _ _ ih | fixedArray _ _ _ ih | map _ _ _ ih =>
    exact ih hshape
  | _ => trivial

structure Graph.Extends (graph base : Graph) : Prop where
  size : base.declarations.size ≤ graph.declarations.size
  labels : base.labels ≤ graph.labels
  declared : ∀ index < base.declarations.size,
    graph.declaration? index = base.declaration? index
  further : ∀ index type, base.declarations.size ≤ index →
    graph.declaration? index = some type → EachPart base.Separates type.parts

namespace Graph

theorem Extends.refl (graph : Graph) : graph.Extends graph where
  size := Nat.le_refl _
  labels := Nat.le_refl _
  declared _ _ := rfl
  further index type hindex hfound := by
    have hlt := (Array.getElem?_eq_some_iff.mp hfound).1
    omega

/-- All parts of what keeps apart keep apart. -/
theorem Extends.separates_part {graph base : Graph} (hextends : graph.Extends base)
    (hclosed : base.IsClosed) (shape : Shape) (hshape : base.Separates shape) (steps : List Step)
    (part : Shape) (hpart : (steps, part) ∈ graph.parts shape) : base.Separates part := by
  cases shape with
  | declared index =>
    cases hfound : graph.declaration? index with
    | none => simp [parts, hfound] at hpart
    | some type =>
      have htype : (steps, part) ∈ type.parts := by simpa [parts, hfound] using hpart
      by_cases hindex : index < base.declarations.size
      · rw [hextends.declared index hindex] at hfound
        exact separates_of_holds (hclosed.holds_of_mem hfound htype)
      · exact hextends.further index type (Nat.le_of_not_lt hindex) hfound steps part htype
  | newtype =>
    simp only [parts, List.mem_singleton, Prod.mk.injEq] at hpart
    obtain ⟨rfl, rfl⟩ := hpart
    exact hshape.2
  | optional | array | set | fixedArray | map =>
    simp only [parts, List.mem_singleton, Prod.mk.injEq] at hpart
    obtain ⟨rfl, rfl⟩ := hpart
    exact hshape
  | _ => simp [parts] at hpart

theorem Extends.freshLabel {graph base : Graph} (hextends : graph.Extends base) :
    graph.freshLabel.2.Extends base where
  size := hextends.size
  labels := Nat.le_succ_of_le hextends.labels
  declared := hextends.declared
  further := hextends.further

theorem Extends.declare {graph base : Graph} (hextends : graph.Extends base)
    {type : Declaration} (htype : EachPart base.Separates type.parts) :
    (graph.declare type).2.Extends base where
  size := by
    have := hextends.size
    simp only [Graph.declare, Array.size_push]
    omega
  labels := hextends.labels
  declared index hindex := by
    rw [declaration?_declare (Nat.lt_of_lt_of_le hindex hextends.size)]
    exact hextends.declared index hindex
  further index other hindex hfound := by
    simp only [Graph.declare, declaration?, Array.getElem?_push] at hfound
    split at hfound
    · cases hfound
      exact htype
    · exact hextends.further index other hindex hfound

theorem Extends.define {graph base : Graph} (hextends : graph.Extends base) {position : Nat}
    (hposition : base.declarations.size ≤ position) {type : Declaration}
    (htype : EachPart base.Separates type.parts) : (graph.define position type).Extends base where
  size := by simpa [Graph.define] using hextends.size
  labels := hextends.labels
  declared index hindex := by
    have hne : index ≠ position := by omega
    rw [declaration?_define hne]
    exact hextends.declared index hindex
  further index other hindex hfound := by
    simp only [Graph.define, declaration?, Array.getElem?_setIfInBounds] at hfound
    split at hfound
    · split at hfound
      · cases hfound
        exact htype
      · cases hfound
    · exact hextends.further index other hindex hfound

end Graph

namespace Substitution

structure State.Keeps (state : State) (base : Graph) : Prop where
  graph : state.graph.Extends base
  replaced : ∀ {node replacement}, state.replaced.lookup node = some replacement →
    base.Separates replacement

def Leaves (base : Graph) {α : Type} (Q : α → Prop) (step : Step α) : Prop :=
  ∀ state : State, state.Keeps base → (step.run state).2.Keeps base ∧ Q (step.run state).1

section Leaves

variable {base : Graph} {α β : Type}

theorem Leaves.pure {Q : α → Prop} {a : α} (h : Q a) : Leaves base Q (Pure.pure a) :=
  fun _ hkeeps => ⟨hkeeps, h⟩

theorem Leaves.bind {Q : α → Prop} {R : β → Prop} {step : Step α} {next : α → Step β}
    (hstep : Leaves base Q step) (hnext : ∀ a, Q a → Leaves base R (next a)) :
    Leaves base R (step >>= next) := by
  intro state hkeeps
  obtain ⟨hmiddle, ha⟩ := hstep state hkeeps
  exact hnext _ ha _ hmiddle

theorem Leaves.mapM {Q : β → Prop} {f : α → Step β} (xs : List α)
    (hf : ∀ x ∈ xs, Leaves base Q (f x)) : Leaves base (∀ y ∈ ·, Q y) (xs.mapM f) := by
  induction xs with
  | nil => exact .pure (by simp)
  | cons x xs ih =>
    rw [List.mapM_cons]
    refine (hf x List.mem_cons_self).bind fun y hy => ?_
    refine (ih fun x hx => hf x (List.mem_cons_of_mem _ hx)).bind fun ys hys => .pure ?_
    simpa using ⟨hy, hys⟩

theorem leaves_record {node replacement : Shape} (h : base.Separates replacement) :
    Leaves base (fun _ => True) (record node replacement) := by
  refine fun state hkeeps => ⟨⟨hkeeps.graph, fun {sought found} hfound => ?_⟩, trivial⟩
  change ((node, replacement) :: state.replaced).lookup sought = some found at hfound
  rw [List.lookup_cons] at hfound
  split at hfound
  · cases hfound
    exact h
  · exact hkeeps.replaced hfound

theorem leaves_freshLabel : Leaves base (base.labels ≤ ·) freshLabel := by
  intro state hkeeps
  exact ⟨⟨hkeeps.graph.freshLabel, hkeeps.replaced⟩, hkeeps.graph.labels⟩

theorem leaves_once {node : Shape} {replace : Step Shape}
    (hreplace : Leaves base base.Separates replace) :
    Leaves base base.Separates (once node replace) := by
  intro state hkeeps
  cases hfound : state.replaced.lookup node with
  | some replacement =>
    have hrun : (once node replace).run state = (replacement, state) := by
      simp only [once, StateT.run_bind, StateT.run_get, pure_bind, hfound]
      rfl
    rw [hrun]
    exact ⟨hkeeps, hkeeps.replaced hfound⟩
  | none =>
    have hrun : (once node replace).run state =
        (do
          let replacement ← replace
          record node replacement
          return replacement : Step Shape).run state := by
      simp [once, hfound]
    rw [hrun]
    exact (hreplace.bind fun replacement h =>
      (leaves_record h).bind fun _ _ => .pure h) state hkeeps

theorem leaves_rewrap {node inner : Shape} {wrap : Nat → Shape → Shape} {replacement : Shape}
    (hnode : base.Separates node)
    (hwrap : ∀ label, base.labels ≤ label → base.Separates (wrap label replacement)) :
    Leaves base base.Separates (rewrap node inner wrap replacement) := by
  unfold rewrap
  split
  · exact .pure hnode
  · exact leaves_freshLabel.bind fun label hlabel => .pure (hwrap label hlabel)

theorem Leaves.read {Q : α → Prop} {next : State → Step α}
    (hnext : ∀ state, state.Keeps base → Leaves base Q (next state)) :
    Leaves base Q (get >>= next) :=
  fun state hkeeps => hnext state hkeeps state hkeeps

end Leaves

section Visit

variable {base : Graph} {visit : Shape → Step Shape}
  (hvisit : ∀ shape, base.holds shape → Leaves base base.Separates (visit shape))
include hvisit

theorem leaves_visitElements (elements : List Shape) (h : ∀ shape ∈ elements, base.holds shape) :
    Leaves base (∀ shape ∈ ·, base.Separates shape) (elements.mapM visit) :=
  Leaves.mapM elements fun shape hmem => hvisit shape (h shape hmem)

theorem leaves_visitFields (fields : List Field) (h : ∀ field ∈ fields, base.holds field.shape) :
    Leaves base (fun fields => ∀ field ∈ fields, base.Separates field.shape)
      (fields.mapM (visitField visit)) :=
  Leaves.mapM fields fun field hmem =>
    (hvisit field.shape (h field hmem)).bind fun _ hshape => .pure hshape

theorem leaves_visitPayload (payload : Payload) (h : EachPart (base.holds ·) payload.parts) :
    Leaves base (fun payload => EachPart base.Separates payload.parts)
      (visitPayload visit payload) := by
  cases payload with
  | unit => exact .pure eachPart_nil
  | newtype shape =>
    exact (hvisit shape (eachPart_singleton.mp h)).bind fun _ hcopy =>
      .pure (eachPart_singleton.mpr hcopy)
  | tuple elements =>
    exact (leaves_visitElements hvisit elements (eachPart_tuple.mp h)).bind fun _ hcopies =>
      .pure (eachPart_tuple.mpr hcopies)
  | struct fields =>
    exact (leaves_visitFields hvisit fields (eachPart_fields.mp h)).bind fun _ hcopies =>
      .pure (eachPart_fields.mpr hcopies)

theorem leaves_visitExtra (extra : Extra) (h : EachPart (base.holds ·) extra.parts) :
    Leaves base (fun extra => EachPart base.Separates extra.parts) (visitExtra visit extra) := by
  cases extra with
  | unspecified => exact .pure eachPart_nil
  | allowed allowed => exact .pure eachPart_nil
  | values shape =>
    refine (hvisit shape (eachPart_singleton.mp h)).bind fun copy hcopy => .pure ?_
    unfold Extra.ofShape
    split
    · exact eachPart_nil
    · exact eachPart_nil
    · exact eachPart_singleton.mpr hcopy

theorem leaves_visitVariant (variant : Variant)
    (h : EachPart (base.holds ·) variant.payload.parts) :
    Leaves base (fun variant => EachPart base.Separates variant.payload.parts)
      (visitVariant visit variant) :=
  (leaves_visitPayload hvisit variant.payload h).bind fun _ hcopy => .pure hcopy

theorem leaves_visitDeclaration (type : Declaration) (h : EachPart (base.holds ·) type.parts) :
    Leaves base (fun type => EachPart base.Separates type.parts) (visitDeclaration visit type) := by
  cases type with
  | struct type =>
    obtain ⟨hfields, hextra⟩ := eachPart_struct.mp h
    exact (leaves_visitFields hvisit type.fields hfields).bind fun _ hfields =>
      (leaves_visitExtra hvisit type.extra hextra).bind fun _ hextra =>
        .pure (eachPart_struct.mpr ⟨hfields, hextra⟩)
  | tuple type =>
    exact (leaves_visitElements hvisit type.elements (eachPart_tuple.mp h)).bind fun _ hcopies =>
      .pure (eachPart_tuple.mpr hcopies)
  | enum type =>
    have hvariants := eachPart_enum.mp h
    exact (Leaves.mapM type.variants fun variant hmem =>
      leaves_visitVariant hvisit variant (hvariants variant hmem)).bind fun _ hcopies =>
        .pure (eachPart_enum.mpr hcopies)

theorem leaves_copyDeclared (index : Nat) (type : Declaration)
    (h : EachPart (base.holds ·) type.parts) :
    Leaves base base.Separates (copyDeclared visit index type) := by
  have hgiven : EachPart base.Separates type.parts :=
    fun steps part hpart => Graph.separates_of_holds (h steps part hpart)
  refine Leaves.bind (Q := (base.declarations.size ≤ ·)) ?_ fun copy hcopy => ?_
  · exact fun state hkeeps =>
      ⟨⟨hkeeps.graph.declare hgiven, hkeeps.replaced⟩, hkeeps.graph.size⟩
  have hrecord : Leaves base (fun _ => True) (record (.declared index) (.declared copy)) :=
    leaves_record trivial
  refine hrecord.bind fun _ _ => ?_
  refine (leaves_visitDeclaration hvisit type h).bind fun content hcontent => ?_
  refine Leaves.bind (Q := fun _ => True) ?_ fun _ _ => .pure trivial
  exact fun state hkeeps => ⟨⟨hkeeps.graph.define hcopy hcontent, hkeeps.replaced⟩, trivial⟩

end Visit

section Bindings

variable {base : Graph} {bindings : Bindings}

theorem holds_binding (hbindings : ∀ binding ∈ bindings, base.holds binding.2) {name : String}
    {shape : Shape} (hfound : bindings.lookup name = some shape) : base.holds shape := by
  induction bindings with
  | nil => cases hfound
  | cons binding rest ih =>
    obtain ⟨key, bound⟩ := binding
    rw [List.lookup_cons] at hfound
    split at hfound
    · cases hfound
      exact hbindings _ List.mem_cons_self
    · exact ih (fun binding hmem => hbindings binding (List.mem_cons_of_mem _ hmem)) hfound

/-- Wrappers are left alone if the copies of the declared types below them are. -/
theorem leaves_visitWith {copy : Nat → Declaration → Step Shape} (hclosed : base.IsClosed)
    (hbindings : ∀ binding ∈ bindings, base.holds binding.2)
    (hcopy : ∀ index type, EachPart (base.holds ·) type.parts →
      Leaves base base.Separates (copy index type))
    (shape : Shape) (hshape : base.holds shape) :
    Leaves base base.Separates (visitWith bindings copy shape) := by
  have hnode := Graph.separates_of_holds hshape
  induction shape with
  | declared index =>
    rw [visitWith]
    refine leaves_once (.read fun state hkeeps => ?_)
    split
    · next type hfound =>
      refine hcopy index type fun steps part hpart => ?_
      have hlt := Graph.holds_declared_iff.mp hshape
      rw [hkeeps.graph.declared index hlt] at hfound
      exact hclosed.holds_of_mem hfound hpart
    · exact .pure trivial
  | generic label name =>
    rw [visitWith]
    refine .pure ?_
    cases hfound : bindings.lookup name with
    | none => exact trivial
    | some bound => exact Graph.separates_of_holds (holds_binding hbindings hfound)
  | newtype label name inner ih =>
    rw [visitWith]
    refine leaves_once ((ih hshape hnode.2).bind fun copy hcopy => leaves_rewrap hnode ?_)
    exact fun fresh hfresh => ⟨fun hlt => absurd hfresh (Nat.not_le_of_lt hlt), hcopy⟩
  | optional _ _ ih | array _ _ ih | set _ _ ih | fixedArray _ _ _ ih | map _ _ _ ih =>
    rw [visitWith]
    exact leaves_once ((ih hshape hnode).bind fun copy hcopy =>
      leaves_rewrap hnode fun _ _ => hcopy)
  | _ =>
    rw [visitWith]
    exact .pure hnode

/-- A substitution leaves the graph alone: everything new keeps apart from it. -/
theorem leaves_visit (hclosed : base.IsClosed)
    (hbindings : ∀ binding ∈ bindings, base.holds binding.2) (depth : Nat) (shape : Shape)
    (hshape : base.holds shape) : Leaves base base.Separates (visit bindings depth shape) := by
  induction depth generalizing shape with
  | zero =>
    have hnode : ∀ index, base.Separates (.declared index) := fun _ => trivial
    exact leaves_visitWith hclosed hbindings (fun index _ _ => .pure (hnode index)) shape hshape
  | succ depth ih =>
    exact leaves_visitWith hclosed hbindings (leaves_copyDeclared ih) shape hshape

end Bindings

end Substitution

/-- The graph after a substitution extends the given one, and the result keeps apart from it. -/
theorem Graph.substitute_extends {graph : Graph} (hclosed : graph.IsClosed) {bindings : Bindings}
    (hbindings : ∀ binding ∈ bindings, graph.holds binding.2) {shape : Shape}
    (hshape : graph.holds shape) :
    (graph.substitute bindings shape).2.Extends graph ∧
      graph.Separates (graph.substitute bindings shape).1 := by
  unfold Graph.substitute
  split
  · exact ⟨.refl graph, separates_of_holds hshape⟩
  · obtain ⟨hkeeps, hresult⟩ := Substitution.leaves_visit hclosed hbindings
      graph.declarations.size shape hshape ⟨graph, []⟩ ⟨.refl graph, by simp⟩
    exact ⟨hkeeps.graph, hresult⟩

end ShapeSchema
