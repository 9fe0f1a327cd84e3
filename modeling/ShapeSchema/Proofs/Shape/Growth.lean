import ShapeSchema.Proofs.Shape.Homomorphism

/-!
What a graph that grows comes to hold and to reach: by further declared types, by a field that is
added to one of them, and by a substitution, after which only copies and bindings can be reached
from the result.
-/

namespace ShapeSchema

namespace Shape

theorem isWithin_mono {size more : Nat} (hsize : size ≤ more) {shape : Shape}
    (h : shape.isWithin size) : shape.isWithin more := by
  induction shape with
  | optional _ _ ih | array _ _ ih | set _ _ ih | fixedArray _ _ _ ih | map _ _ _ ih
  | newtype _ _ _ ih => exact ih h
  | declared index =>
    simp only [isWithin, decide_eq_true_eq] at h ⊢
    omega
  | _ => rfl

theorem isWithin_of_content? {shape inner : Shape} (hcontent : shape.content? = some inner)
    (size : Nat) : shape.isWithin size = inner.isWithin size := by
  cases shape <;> cases hcontent <;> rfl

/-- What holds of a wrapper if it holds of its content holds of all shapes. -/
theorem content_induction {motive : Shape → Prop}
    (h : ∀ shape, (∀ inner, shape.content? = some inner → motive inner) → motive shape)
    (shape : Shape) : motive shape := by
  induction shape with
  | optional _ _ ih | array _ _ ih | set _ _ ih | fixedArray _ _ _ ih | map _ _ _ ih
  | newtype _ _ _ ih =>
    refine h _ fun inner hcontent => ?_
    cases hcontent
    exact ih
  | _ => exact h _ nofun

end Shape

namespace Graph

theorem isClosed_iff {graph : Graph} : graph.IsClosed ↔
    ∀ index type, graph.declaration? index = some type →
      EachPart (graph.holds ·) type.parts := by
  constructor
  · exact fun hclosed index type hfound steps part hpart => hclosed.holds_of_mem hfound hpart
  · intro h type htype part hpart
    obtain ⟨index, hlt, rfl⟩ := Array.mem_iff_getElem.mp (Array.mem_toList_iff.mp htype)
    exact h index _ (Array.getElem?_eq_getElem hlt) part.1 part.2 hpart

structure Grows (graph later : Graph) : Prop where
  size : graph.declarations.size ≤ later.declarations.size
  declared : ∀ index < graph.declarations.size,
    later.declaration? index = graph.declaration? index

namespace Grows

variable {graph later last : Graph} {shape target : Shape}

theorem refl (graph : Graph) : graph.Grows graph where
  size := Nat.le_refl _
  declared _ _ := rfl

theorem trans (h : graph.Grows later) (hmore : later.Grows last) : graph.Grows last where
  size := Nat.le_trans h.size hmore.size
  declared index hindex :=
    (hmore.declared index (Nat.lt_of_lt_of_le hindex h.size)).trans (h.declared index hindex)

theorem declare (graph : Graph) (type : Declaration) : graph.Grows (graph.declare type).2 where
  size := by simp [Graph.declare]
  declared _ hindex := declaration?_declare hindex

theorem freshLabel (graph : Graph) : graph.Grows graph.freshLabel.2 where
  size := Nat.le_refl _
  declared _ _ := rfl

/-- What a graph declares is not changed where it did not declare anything. -/
theorem define (h : graph.Grows later) {index : Nat} (hindex : graph.declarations.size ≤ index)
    (type : Declaration) : graph.Grows (later.define index type) where
  size := by
    have hsize : (later.define index type).declarations.size = later.declarations.size := by
      simp [Graph.define]
    exact hsize ▸ h.size
  declared position hposition := by
    rw [declaration?_define (by omega)]
    exact h.declared position hposition

theorem holds (h : graph.Grows later) (hshape : graph.holds shape) : later.holds shape :=
  Shape.isWithin_mono h.size hshape

theorem parts_eq (h : graph.Grows later) (hshape : graph.holds shape) :
    later.parts shape = graph.parts shape := by
  cases shape with
  | declared index =>
    have hlt := holds_declared_iff.mp hshape
    simp only [parts, h.declared index hlt]
  | _ => rfl

/-- What the earlier graph holds reaches in the later one what it reached before. -/
theorem reaches (h : graph.Grows later) (hclosed : graph.IsClosed) (hshape : graph.holds shape)
    (hreaches : later.Reaches shape target) : graph.Reaches shape target ∧ graph.holds target := by
  obtain ⟨passed, steps, hwalk⟩ := hreaches
  induction hwalk with
  | stay shape => exact ⟨.refl graph shape, hshape⟩
  | go hpart _ ih =>
    rw [h.parts_eq hshape] at hpart
    obtain ⟨hrest, htarget⟩ := ih (hclosed.holds_part _ hshape _ _ hpart)
    exact ⟨(Reaches.of_mem_parts hpart).trans hrest, htarget⟩

end Grows

section Declared

variable {graph : Graph} {index : Nat} {type : Declaration} {target : Shape}

theorem IsClosed.declare (hclosed : graph.IsClosed) (htype : EachPart (graph.holds ·) type.parts) :
    (graph.declare type).2.IsClosed := by
  have hgrows := Grows.declare graph type
  refine isClosed_iff.mpr fun index other hfound steps part hpart => hgrows.holds ?_
  simp only [Graph.declare, declaration?, Array.getElem?_push] at hfound
  split at hfound
  · cases hfound
    exact htype steps part hpart
  · exact isClosed_iff.mp hclosed index other hfound steps part hpart

theorem declaration?_declare_self (graph : Graph) (type : Declaration) :
    (graph.declare type).2.declaration? graph.declarations.size = some type := by
  simp [Graph.declare, declaration?]

theorem holds_define (graph : Graph) (index : Nat) (type : Declaration) (shape : Shape) :
    (graph.define index type).holds shape = graph.holds shape := by
  simp [Graph.holds, Graph.define]

theorem IsClosed.define (hclosed : graph.IsClosed) (htype : EachPart (graph.holds ·) type.parts) :
    (graph.define index type).IsClosed := by
  refine isClosed_iff.mpr fun other found hfound steps part hpart => ?_
  change (graph.define index type).holds part
  rw [holds_define]
  simp only [Graph.define, declaration?, Array.getElem?_setIfInBounds] at hfound
  split at hfound
  · split at hfound
    · cases hfound
      exact htype steps part hpart
    · cases hfound
  · exact isClosed_iff.mp hclosed other found hfound steps part hpart

/-- If a type gets one further part, what is reached was reached before, or the type was and the new
part reaches it. -/
theorem reaches_define {before : Declaration} {inner shape : Shape}
    (hbefore : graph.declaration? index = some before)
    (hparts : EachPart (fun part => part = inner ∨ ∃ steps, (steps, part) ∈ before.parts)
      type.parts)
    (hreaches : (graph.define index type).Reaches shape target) :
    graph.Reaches shape target ∨
      graph.Reaches shape (.declared index) ∧ graph.Reaches inner target := by
  obtain ⟨passed, steps, hwalk⟩ := hreaches
  have hindex := Context.isDeclared_of_declaration? hbefore
  induction hwalk with
  | stay shape => exact .inl (.refl graph shape)
  | @go shape part target passed steps more hpart _ ih =>
    have hknown : (∃ steps, (steps, part) ∈ graph.parts shape) ∨
        shape = .declared index ∧ part = inner := by
      cases shape with
      | declared other =>
        by_cases heq : other = index
        · subst heq
          simp only [parts, declaration?_define_self hindex, Option.map_some,
            Option.getD_some] at hpart
          rcases hparts steps part hpart with rfl | hold
          · exact .inr ⟨rfl, rfl⟩
          · refine .inl ?_
            simpa [parts, hbefore] using hold
        · refine .inl ⟨steps, ?_⟩
          simpa only [parts, declaration?_define heq] using hpart
      | _ => exact .inl ⟨steps, hpart⟩
    rcases hknown with ⟨_, hold⟩ | ⟨rfl, rfl⟩
    · have hpart := Reaches.of_mem_parts hold
      exact ih.imp hpart.trans fun hrest => ⟨hpart.trans hrest.1, hrest.2⟩
    · exact .inr ⟨.refl graph _, ih.elim id And.right⟩

end Declared
end Graph

section Images

variable {R : Shape → Shape → Prop}

theorem Payload.Corresponds.preimage {x y : Payload} (h : Payload.Corresponds R x y) :
    EachPart (fun t => ∃ s, R s t) y.parts := by
  cases h with
  | unit => exact eachPart_nil
  | newtype hshape => exact eachPart_singleton.mpr ⟨_, hshape⟩
  | tuple helements => exact eachPart_tuple.mpr (exists_of_forall₂ helements.flip)
  | struct hfields =>
    refine eachPart_fields.mpr fun field hmem => ?_
    obtain ⟨other, hfield⟩ := exists_of_forall₂ hfields.flip field hmem
    exact ⟨other.shape, hfield.shape⟩

/-- Every part of an image is related to one of the declared type. -/
theorem Declaration.IsImage.preimage {x y : Declaration} (h : Declaration.IsImage R x y) :
    EachPart (fun t => ∃ s, R s t) y.parts := by
  cases h with
  | @struct x y _ _ hfields hextra =>
    refine eachPart_struct.mpr
      ⟨eachPart_fields.mp (Payload.Corresponds.struct hfields).preimage, ?_⟩
    generalize x.extra = given at hextra
    generalize y.extra = extra at hextra
    cases hextra with
    | values hshape =>
      unfold Extra.ofShape
      split
      · exact eachPart_nil
      · exact eachPart_nil
      · exact eachPart_singleton.mpr ⟨_, hshape⟩
    | _ => exact eachPart_nil
  | tuple _ helements => exact (Payload.Corresponds.tuple helements).preimage
  | enum _ _ _ hvariants =>
    refine eachPart_enum.mpr fun variant hmem => ?_
    obtain ⟨_, hvariant⟩ := exists_of_forall₂ hvariants.flip variant hmem
    exact hvariant.payload.preimage

end Images

namespace Substitution

variable {task : Task} {state : State}

/-- Replacements are of the graph that a substitution has made. -/
theorem State.Replaces.isWithin (h : state.IsFaithful task [])
    (hbindings : ∀ binding ∈ task.bindings, task.base.holds binding.2) {s t : Shape}
    (hst : state.Replaces task s t) : t.isWithin state.graph.declarations.size := by
  induction s using Shape.content_induction generalizing t with
  | h s ih =>
    cases hst with
    | leaf hleaf => cases s <;> first | rfl | cases hleaf
    | parameter label name =>
      cases hfound : task.bindings.lookup name with
      | none => rfl
      | some bound => exact Shape.isWithin_mono h.size (hbindings _ (mem_of_lookup hfound))
    | met hpair =>
      cases h.right hpair with
      | kept hcontent hinner =>
        rw [Shape.isWithin_of_content? hcontent]
        exact ih _ hcontent hinner
      | @rebuilt _ inner t label hcontent _ hinner _ =>
        rw [Shape.isWithin_of_content? (Shape.content?_refill hcontent label t)]
        exact ih _ hcontent hinner
      | copied _ _ hknown _ => exact decide_eq_true hknown

/-- Below an image there are images only, and below these at most what a binding reaches. -/
theorem State.IsFaithful.preimage (h : state.IsFaithful task []) (hclosed : task.base.IsClosed)
    (hbindings : ∀ binding ∈ task.bindings, task.base.holds binding.2) {t target : Shape}
    (hroot : state.Relates task task.root t) (hreaches : state.graph.Reaches t target) :
    (∃ s, state.Relates task s target) ∨
      ∃ binding ∈ task.bindings, task.base.Reaches binding.2 target := by
  have hgrows : task.base.Grows state.graph := ⟨h.size, h.declared⟩
  refine hreaches.part_induction (P := fun t => (∃ s, state.Relates task s t) ∨
    ∃ binding ∈ task.bindings, task.base.Reaches binding.2 t) (.inl ⟨_, hroot⟩) ?_
  rintro t (⟨s, hst⟩ | ⟨binding, hbinding, hreaches⟩) steps part hpart
  · cases h.image hst with
    | leaf hleaf => cases t <;> first | cases hleaf; done | cases hpart
    | parameter label name =>
      cases hfound : task.bindings.lookup name with
      | none =>
        rw [hfound] at hpart
        cases hpart
      | some bound =>
        have hmem := mem_of_lookup hfound
        rw [hfound, Option.getD_some, hgrows.parts_eq (hbindings _ hmem)] at hpart
        exact .inr ⟨_, hmem, .of_mem_parts hpart⟩
    | @wrapper _ inner t label hcontent hinner =>
      obtain ⟨_, hparts⟩ :=
        Shape.parts_of_content? state.graph (Shape.content?_refill hcontent label t)
      rw [hparts] at hpart
      cases List.mem_singleton.mp hpart
      exact .inl ⟨inner, hinner⟩
    | @declared _ _ _ y _ hcopied htype =>
      have hparts : (steps, part) ∈ y.parts := by simpa [Graph.parts, hcopied] using hpart
      exact .inl (htype.preimage steps part hparts)
  · obtain ⟨hreached, hholds⟩ :=
      (Graph.Grows.refl task.base).reaches hclosed (hbindings _ hbinding) hreaches
    rw [hgrows.parts_eq hholds] at hpart
    exact .inr ⟨binding, hbinding, hreached.trans (.of_mem_parts hpart)⟩

end Substitution

namespace Graph

variable {graph other : Graph} {bindings : Bindings} {root result : Shape}

/-- A substitution in a closed graph makes a closed graph, which has the result. -/
theorem substitute_isClosed (hclosed : graph.IsClosed)
    (hbindings : ∀ binding ∈ bindings, graph.holds binding.2) (hroot : graph.holds root)
    (hsubst : graph.substitute bindings root = (result, other)) :
    graph.Grows other ∧ other.IsClosed ∧ other.holds result := by
  by_cases hempty : bindings = []
  · subst hempty
    cases hsubst
    exact ⟨.refl graph, hclosed, hroot⟩
  obtain ⟨replaced, hfaithful, hrelated, _⟩ :=
    Substitution.exists_isFaithful hclosed hempty hroot hsubst
  have hwithin : ∀ {s t}, Substitution.State.Replaces ⟨graph, bindings, root⟩ ⟨other, replaced⟩
      s t → other.holds t := fun hst => hst.isWithin hfaithful hbindings
  have hgrows : graph.Grows other := ⟨hfaithful.size, hfaithful.declared⟩
  refine ⟨hgrows, isClosed_iff.mpr fun index type hfound => ?_, hwithin hrelated⟩
  by_cases hindex : index < graph.declarations.size
  · rw [hgrows.declared index hindex] at hfound
    have hparts := isClosed_iff.mp hclosed index type hfound
    exact fun steps part hpart => hgrows.holds (hparts steps part hpart)
  · have hlt := Context.isDeclared_of_declaration? hfound
    obtain ⟨origin, hpair⟩ :=
      (hfaithful.made index (Nat.le_of_not_lt hindex) hlt).resolve_left List.not_mem_nil
    cases hfaithful.right hpair with
    | kept hcontent => cases hcontent
    | rebuilt hcontent => cases hcontent
    | copied _ _ _ hdone =>
      obtain ⟨content, hcontent, himage⟩ := hdone.resolve_left List.not_mem_nil
      cases hfound.symm.trans hcontent
      intro steps part hpart
      obtain ⟨_, hst⟩ := himage.preimage steps part hpart
      exact hwithin hst

/-- The declared types that the result of a substitution reaches are new copies of what the root
reaches, and what the bindings reach. -/
theorem reaches_substitute (hclosed : graph.IsClosed)
    (hbindings : ∀ binding ∈ bindings, graph.holds binding.2) (hempty : bindings ≠ [])
    (hroot : graph.holds root) (hsubst : graph.substitute bindings root = (result, other))
    (index : Nat) (hreaches : other.Reaches result (.declared index)) :
    (∃ binding ∈ bindings, graph.Reaches binding.2 (.declared index)) ∨
      ∃ origin x y R, graph.Reaches root (.declared origin) ∧
        graph.declaration? origin = some x ∧ other.declaration? index = some y ∧
          Declaration.IsImage R x y ∧ graph.declarations.size ≤ index := by
  obtain ⟨replaced, hfaithful, hrelated, _⟩ :=
    Substitution.exists_isFaithful hclosed hempty hroot hsubst
  have hroot : Substitution.State.Relates ⟨graph, bindings, root⟩ ⟨other, replaced⟩ root result :=
    ⟨.refl graph root, hrelated⟩
  rcases hfaithful.preimage hclosed hbindings hroot hreaches with ⟨s, hst⟩ | hbinding
  · have himage := hfaithful.image hst
    generalize heq : Shape.declared index = t at himage hst
    cases himage with
    | leaf hleaf =>
      rw [← heq] at hleaf
      cases hleaf
    | parameter label name =>
      cases hfound : bindings.lookup name with
      | none =>
        rw [hfound] at heq
        cases heq
      | some bound =>
        rw [hfound] at heq
        cases heq
        exact .inl ⟨_, mem_of_lookup hfound, .refl graph _⟩
    | @wrapper _ inner t label hcontent _ =>
      have hrefill := Shape.content?_refill hcontent label t
      rw [← heq] at hrefill
      cases hrefill
    | @declared origin copy x y hgiven hcopied htype =>
      cases heq
      obtain ⟨_, heq, hfresh, _⟩ := hfaithful.copy hst
      cases heq
      exact .inr ⟨origin, x, y, _, hst.1, hgiven, hcopied, htype, hfresh⟩
  · exact .inl hbinding

end Graph
end ShapeSchema
