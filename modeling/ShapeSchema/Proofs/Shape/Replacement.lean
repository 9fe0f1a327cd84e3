import ShapeSchema.Proofs.Json.Members
import ShapeSchema.Proofs.Shape.Avoiding
import ShapeSchema.Proofs.Shape.Closed
import ShapeSchema.Proofs.Shape.Image
import ShapeSchema.Schema.Derivation

/-!
What the state of a substitution says about the nodes met so far. Every recorded replacement is a
right one, except that the copies which are still being made have no content yet; declared types
have one copy each, and different nodes never get the same new node.
-/

namespace ShapeSchema.Substitution

/-- What a substitution is about: the graph and the root that it started with, and the shapes that
the parameters stand for. -/
structure Task where
  base : Graph
  bindings : Bindings
  root : Shape

namespace State

def met (state : State) : List Shape :=
  state.replaced.map Prod.fst

/-- Whether a node is recorded as the replacement of another one, or stands for it without being
recorded. -/
inductive Replaces (task : Task) (state : State) : Shape → Shape → Prop
  | met {s t : Shape} (pair : (s, t) ∈ state.replaced) : Replaces task state s t
  | leaf {s : Shape} (leaf : s.isLeaf) : Replaces task state s s
  | parameter (label : Nat) (name : String) : Replaces task state (.generic label name)
      ((task.bindings.lookup name).getD (.generic label name))

/-- Whether a node is rightly recorded as the replacement of another one: a wrapper as itself or
around a new content, a declared type as a copy that is complete unless it is still being made. -/
inductive IsRight (task : Task) (making : List Nat) (state : State) : Shape → Shape → Prop
  | kept {s inner : Shape} (content : s.content? = some inner)
      (related : state.Replaces task inner inner) : IsRight task making state s s
  | rebuilt {s inner t : Shape} {label : Nat} (content : s.content? = some inner) (differs : t ≠ inner)
      (related : state.Replaces task inner t) (used : label < state.graph.labels) :
      IsRight task making state s (s.refill label t)
  | copied {index copy : Nat} {type : Declaration}
      (given : task.base.declaration? index = some type)
      (fresh : task.base.declarations.size ≤ copy) (known : copy < state.graph.declarations.size)
      (done : copy ∈ making ∨ ∃ content, state.graph.declaration? copy = some content ∧
        type.IsImage (state.Replaces task) content) :
      IsRight task making state (.declared index) (.declared copy)

structure Grows (state later : State) : Prop where
  replaced : state.replaced ⊆ later.replaced
  size : state.graph.declarations.size ≤ later.graph.declarations.size
  labels : state.graph.labels ≤ later.graph.labels
  declared : ∀ index < state.graph.declarations.size,
    later.graph.declaration? index = state.graph.declaration? index

end State

/-- Whether a wrapper is never met again below itself without a declared type between that was not
met before it. -/
def Task.Settles (task : Task) (s : Shape) : Prop :=
  ∀ passed steps inner, task.base.Walk task.root passed steps s → s.content? = some inner →
    ¬ task.base.ReachesAvoiding (passed.filter Shape.isDeclared) inner s

namespace State

/-- Whether a state is right while some copies are being made: the given types are as they were, all
others are copies, the replacements are right, and they are unique except for wrappers that are met
inside themselves. -/
structure IsFaithful (task : Task) (making : List Nat) (state : State) : Prop where
  size : task.base.declarations.size ≤ state.graph.declarations.size
  declared : ∀ index < task.base.declarations.size,
    state.graph.declaration? index = task.base.declaration? index
  made : ∀ copy, task.base.declarations.size ≤ copy → copy < state.graph.declarations.size →
    copy ∈ making ∨ ∃ index, (.declared index, .declared copy) ∈ state.replaced
  right : ∀ {s t}, (s, t) ∈ state.replaced → state.IsRight task making s t
  unique : ∀ {s t u}, s.isDeclared ∨ task.Settles s → (s, t) ∈ state.replaced →
    (s, u) ∈ state.replaced → t = u
  injective : ∀ {s u t}, (s, t) ∈ state.replaced → (u, t) ∈ state.replaced → s ≠ t → u ≠ t → s = u

variable {task : Task} {making more : List Nat} {state later : State} {s t : Shape}

theorem mem_met : s ∈ state.met ↔ ∃ t, (s, t) ∈ state.replaced := by
  simp [met]

theorem Grows.refl (state : State) : state.Grows state where
  replaced := List.Subset.refl _
  size := Nat.le_refl _
  labels := Nat.le_refl _
  declared _ _ := rfl

theorem Grows.trans {last : State} (h : state.Grows later) (hmore : later.Grows last) :
    state.Grows last where
  replaced := List.Subset.trans h.replaced hmore.replaced
  size := Nat.le_trans h.size hmore.size
  labels := Nat.le_trans h.labels hmore.labels
  declared index hindex :=
    (hmore.declared index (Nat.lt_of_lt_of_le hindex h.size)).trans (h.declared index hindex)

theorem Grows.met (h : state.Grows later) : state.met ⊆ later.met :=
  List.map_subset Prod.fst h.replaced

theorem Replaces.mono (h : state.Replaces task s t) (hsub : state.replaced ⊆ later.replaced) :
    later.Replaces task s t := by
  cases h with
  | met hpair => exact .met (hsub hpair)
  | leaf hleaf => exact .leaf hleaf
  | parameter label name => exact .parameter label name

theorem isImage_mono {x y : Declaration} (h : x.IsImage (state.Replaces task) y)
    (hsub : state.replaced ⊆ later.replaced) : x.IsImage (later.Replaces task) y :=
  h.imp fun _ _ _ _ hrelated => hrelated.mono hsub

/-- What was right stays right. -/
theorem IsRight.mono (h : state.IsRight task making s t) (hgrows : state.Grows later)
    (hmaking : making ⊆ more) : later.IsRight task more s t := by
  cases h with
  | kept hcontent hrelated => exact .kept hcontent (hrelated.mono hgrows.replaced)
  | rebuilt hcontent hdiffers hrelated hused =>
    exact .rebuilt hcontent hdiffers (hrelated.mono hgrows.replaced)
      (Nat.lt_of_lt_of_le hused hgrows.labels)
  | copied hgiven hfresh hknown hdone =>
    refine .copied hgiven hfresh (Nat.lt_of_lt_of_le hknown hgrows.size)
      (hdone.imp (hmaking ·) ?_)
    rintro ⟨content, hcontent, himage⟩
    exact ⟨content, (hgrows.declared _ hknown).trans hcontent, isImage_mono himage hgrows.replaced⟩

/-- A new copy is not yet the replacement of anything else. -/
theorem IsRight.lt_of_copy {copy : Nat} (h : state.IsRight task making s (.declared copy))
    (hne : s ≠ .declared copy) : copy < state.graph.declarations.size := by
  generalize heq : Shape.declared copy = t at h hne
  cases h with
  | kept => exact absurd rfl hne
  | @rebuilt _ inner t label hcontent _ _ _ =>
    have hrefill := Shape.content?_refill hcontent label t
    rw [← heq] at hrefill
    cases hrefill
  | copied _ _ hknown _ =>
    cases heq
    exact hknown

/-- A wrapper under a new label is not yet the replacement of anything. -/
theorem IsRight.lt_of_label {label : Nat} (h : state.IsRight task making s t)
    (hlabel : t.wrapperLabel? = some label) (hne : s ≠ t) : label < state.graph.labels := by
  cases h with
  | kept => exact absurd rfl hne
  | @rebuilt _ inner t given hcontent _ _ hused =>
    rw [Shape.wrapperLabel?_refill hcontent] at hlabel
    exact Option.some.inj hlabel ▸ hused
  | copied => cases hlabel

/-- A further replacement may be recorded if it is right, does not contradict what is recorded and
is no new node that replaces something else. -/
theorem IsFaithful.record (h : state.IsFaithful task making)
    (hright : state.IsRight task making s t)
    (hunique : s.isDeclared ∨ task.Settles s → ∀ u, (s, u) ∈ state.replaced → u = t)
    (hinjective : s ≠ t → ∀ u, (u, t) ∈ state.replaced → u ≠ t → u = s) :
    State.IsFaithful task making { state with replaced := (s, t) :: state.replaced } where
  size := h.size
  declared := h.declared
  made copy hfresh hknown :=
    (h.made copy hfresh hknown).imp_right fun ⟨index, hpair⟩ =>
      ⟨index, List.mem_cons_of_mem _ hpair⟩
  right {u v} hmem := by
    have hgrows : state.Grows { state with replaced := (s, t) :: state.replaced } :=
      { Grows.refl state with replaced := List.subset_cons_self _ _ }
    rcases List.mem_cons.mp hmem with heq | hmem
    · cases heq
      exact hright.mono hgrows (List.Subset.refl _)
    · exact (h.right hmem).mono hgrows (List.Subset.refl _)
  unique {u v w} hkind hv hw := by
    rcases List.mem_cons.mp hv with heq | hv <;> rcases List.mem_cons.mp hw with heq' | hw
    · cases heq
      cases heq'
      rfl
    · cases heq
      exact (hunique hkind w hw).symm
    · cases heq'
      exact hunique hkind v hv
    · exact h.unique hkind hv hw
  injective {u v w} hu hv hune hvne := by
    rcases List.mem_cons.mp hu with heq | hu <;> rcases List.mem_cons.mp hv with heq' | hv
    · cases heq
      cases heq'
      rfl
    · cases heq
      exact (hinjective hune v hv hvne).symm
    · cases heq'
      exact hinjective hvne u hu hune
    · exact h.injective hu hv hune hvne

/-- The same pair may be recorded again. -/
theorem IsFaithful.record_again (h : state.IsFaithful task making) (hmem : (s, t) ∈ state.replaced)
    (hdeclared : s.isDeclared) :
    State.IsFaithful task making { state with replaced := (s, t) :: state.replaced } :=
  h.record (h.right hmem) (fun _ _ hu => h.unique (.inl hdeclared) hu hmem)
    fun hne _ hu hune => h.injective hu hmem hune hne

theorem IsFaithful.freshLabel (h : state.IsFaithful task making) :
    State.IsFaithful task making { state with graph := state.graph.freshLabel.2 } where
  size := h.size
  declared := h.declared
  made := h.made
  right hmem := by
    refine (h.right hmem).mono { Grows.refl state with labels := Nat.le_succ _ } ?_
    exact List.Subset.refl _
  unique := h.unique
  injective := h.injective

theorem run_rewrap (node inner : Shape) (wrap : Nat → Shape → Shape) (t : Shape) (state : State) :
    (rewrap node inner wrap t).run state =
      if t = inner then (node, state)
      else (wrap state.graph.labels t, { state with graph := state.graph.freshLabel.2 }) := by
  unfold rewrap
  split <;> rfl

/-- A wrapper may be recorded with what it is rewrapped to, unless it has a replacement and may have
no other one. -/
theorem IsFaithful.rewrap {node inner : Shape} (h : state.IsFaithful task making)
    (hcontent : node.content? = some inner) (hrelated : state.Replaces task inner t)
    (hfree : task.Settles node → node ∉ state.met) {wrapped : Shape × State}
    (hrun : (Substitution.rewrap node inner node.refill t).run state = wrapped) :
    State.IsFaithful task making
        { wrapped.2 with replaced := (node, wrapped.1) :: wrapped.2.replaced } ∧
      state.Grows wrapped.2 ∧ wrapped.2.replaced = state.replaced := by
  have hunique : node.isDeclared ∨ task.Settles node → ∀ u, (node, u) ∉ state.replaced := by
    rintro (hdeclared | hsettles) u hmem
    · rw [Shape.isDeclared_of_content? hcontent] at hdeclared
      cases hdeclared
    · exact hfree hsettles (mem_met.mpr ⟨u, hmem⟩)
  rw [run_rewrap] at hrun
  split at hrun
  · next heq =>
    cases hrun
    subst heq
    refine ⟨h.record (.kept hcontent hrelated) ?_ ?_, .refl state, rfl⟩
    · exact fun hkind u hu => absurd hu (hunique hkind u)
    · exact fun hne => absurd rfl hne
  · next hne =>
    cases hrun
    refine ⟨h.freshLabel.record (.rebuilt hcontent hne ?_ ?_) ?_ ?_, ?_, rfl⟩
    · exact hrelated.mono (List.Subset.refl _)
    · exact Nat.lt_succ_self _
    · exact fun hkind u hu => absurd hu (hunique hkind u)
    · -- the label is new, so nothing else was replaced by this node
      intro _ u hu hune
      have hlt := (h.right hu).lt_of_label (Shape.wrapperLabel?_refill hcontent _ _) hune
      exact absurd hlt (Nat.lt_irrefl _)
    · exact { Grows.refl state with labels := Nat.le_succ _ }

section Copies

variable {index copy : Nat} {type content : Declaration}

def begun (state : State) (index : Nat) (type : Declaration) : State where
  graph := (state.graph.declare type).2
  replaced := (.declared index, .declared state.graph.declarations.size) :: state.replaced

theorem grows_begun (state : State) (index : Nat) (type : Declaration) :
    state.Grows (state.begun index type) where
  replaced := List.subset_cons_self _ _
  size := by simp [begun, Graph.declare]
  labels := Nat.le_refl _
  declared _ hindex := Graph.declaration?_declare hindex

/-- A copy may be begun for a declared type that has none. -/
theorem IsFaithful.begun (h : state.IsFaithful task making)
    (hgiven : task.base.declaration? index = some type) (hfree : .declared index ∉ state.met) :
    (state.begun index type).IsFaithful task (state.graph.declarations.size :: making) := by
  have hsize := h.size
  have hindex := Context.isDeclared_of_declaration? hgiven
  have hopened : State.IsFaithful task (state.graph.declarations.size :: making)
      { state with graph := (state.graph.declare type).2 } := by
    have hgrows : state.Grows { state with graph := (state.graph.declare type).2 } :=
      { state.grows_begun index type with replaced := List.Subset.refl _ }
    exact {
      size := Nat.le_trans hsize hgrows.size
      declared := fun i hi =>
        (hgrows.declared i (Nat.lt_of_lt_of_le hi hsize)).trans (h.declared i hi)
      made := fun copy hfresh hknown => by
        by_cases hlast : copy = state.graph.declarations.size
        · exact .inl (hlast ▸ List.mem_cons_self)
        · have hbefore : copy < state.graph.declarations.size := by
            simp only [Graph.declare, Array.size_push] at hknown
            omega
          exact (h.made copy hfresh hbefore).imp_left (List.mem_cons_of_mem _)
      right := fun hmem => (h.right hmem).mono hgrows (List.subset_cons_self _ _)
      unique := h.unique
      injective := h.injective }
  refine hopened.record (.copied hgiven hsize ?_ (.inl List.mem_cons_self)) ?_ ?_
  · simp [Graph.declare]
  · exact fun _ u hu => absurd (mem_met.mpr ⟨u, hu⟩) hfree
  · intro _ u hu hne
    exact absurd ((h.right hu).lt_of_copy hne) (Nat.lt_irrefl _)

/-- The copy that was begun is declared from then on. -/
theorem Grows.begun_lt (h : (state.begun index type).Grows later) :
    state.graph.declarations.size < later.graph.declarations.size := by
  have hsize := h.size
  simp only [State.begun, Graph.declare, Array.size_push] at hsize
  omega

/-- What was declared before the copy was begun is the same when the copy is complete. -/
theorem Grows.define (h : (state.begun index type).Grows later) (content : Declaration) :
    state.Grows
      { later with graph := later.graph.define state.graph.declarations.size content } := by
  have htotal := (state.grows_begun index type).trans h
  refine { htotal with
    size := by simpa [Graph.define] using htotal.size
    declared := fun i hi => ?_ }
  rw [Graph.declaration?_define (Nat.ne_of_lt hi)]
  exact htotal.declared i hi

/-- What was right stays right when a copy is complete, if its content is an image of all that it
replaces. -/
theorem IsRight.define (h : state.IsRight task (copy :: making) s t)
    (hknown : copy < state.graph.declarations.size)
    (himage : ∀ index type, s = .declared index → t = .declared copy →
      task.base.declaration? index = some type → type.IsImage (state.Replaces task) content) :
    State.IsRight task making { state with graph := state.graph.define copy content } s t := by
  have hsame : ∀ {s t}, state.Replaces task s t →
      State.Replaces task { state with graph := state.graph.define copy content } s t :=
    fun hrelated => hrelated.mono (List.Subset.refl _)
  have hsize : (state.graph.define copy content).declarations.size =
      state.graph.declarations.size := by simp [Graph.define]
  cases h with
  | kept hcontent hrelated => exact .kept hcontent (hsame hrelated)
  | rebuilt hcontent hdiffers hrelated hused =>
    exact .rebuilt hcontent hdiffers (hsame hrelated) hused
  | @copied index other type hgiven hfresh hlt hdone =>
    refine .copied hgiven hfresh (hsize ▸ hlt) ?_
    by_cases heq : other = copy
    · subst heq
      exact .inr ⟨content, Graph.declaration?_define_self hknown,
        isImage_mono (himage index type rfl rfl hgiven) (List.Subset.refl _)⟩
    · rw [Graph.declaration?_define heq]
      refine hdone.imp (fun hmaking => (List.mem_cons.mp hmaking).resolve_left heq) ?_
      rintro ⟨known, hfound, hknownImage⟩
      exact ⟨known, hfound, isImage_mono hknownImage (List.Subset.refl _)⟩

/-- A copy is complete once its content is an image of the type. -/
theorem IsFaithful.define (h : state.IsFaithful task (copy :: making))
    (hgiven : task.base.declaration? index = some type)
    (hmem : (.declared index, .declared copy) ∈ state.replaced)
    (hfresh : task.base.declarations.size ≤ copy) (hknown : copy < state.graph.declarations.size)
    (himage : type.IsImage (state.Replaces task) content) :
    State.IsFaithful task making { state with graph := state.graph.define copy content } where
  size := by simpa [Graph.define] using h.size
  declared i hi := by
    have hne : i ≠ copy := by omega
    rw [Graph.declaration?_define hne]
    exact h.declared i hi
  made other hother hlt := by
    have hlt : other < state.graph.declarations.size := by simpa [Graph.define] using hlt
    rcases h.made other hother hlt with hmaking | hpair
    · rcases List.mem_cons.mp hmaking with rfl | hmaking
      · exact .inr ⟨index, hmem⟩
      · exact .inl hmaking
    · exact .inr hpair
  right {s t} hpair := by
    refine (h.right hpair).define hknown ?_
    rintro i x rfl rfl hx
    have hother : ∀ {j y}, task.base.declaration? j = some y →
        Shape.declared j ≠ .declared copy := by
      rintro j y hy ⟨⟩
      have := Context.isDeclared_of_declaration? hy
      omega
    -- nothing but the type itself is replaced by the copy
    cases h.injective hpair hmem (hother hx) (hother hgiven)
    obtain rfl : x = type := Option.some.inj (hx.symm.trans hgiven)
    exact himage
  unique := h.unique
  injective := h.injective

end Copies
end State
end ShapeSchema.Substitution
