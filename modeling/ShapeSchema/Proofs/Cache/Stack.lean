import Mathlib.Data.List.Forall2
import ShapeSchema.Schema.Cache

/-!
The frames of the nodes that are being expanded. A frame without a mark was not cut short: nothing
that was visited in it, or in the frames inside it, is being expanded around it.
-/

namespace ShapeSchema

def positionsOf : List Shape → List (Shape × Nat)
  | [] => []
  | node :: rest => (node, rest.length) :: positionsOf rest

theorem map_positionsOf (nodes : List Shape) : (positionsOf nodes).map Prod.fst = nodes := by
  induction nodes with
  | nil => rfl
  | cons node rest ih => rw [positionsOf, List.map_cons, ih]

theorem mem_positionsOf {nodes : List Shape} {entry : Shape × Nat}
    (hentry : entry ∈ positionsOf nodes) : entry.1 ∈ nodes := by
  rw [← map_positionsOf nodes]
  exact List.mem_map_of_mem hentry

theorem lt_of_mem_positionsOf {nodes : List Shape} {entry : Shape × Nat}
    (hentry : entry ∈ positionsOf nodes) : entry.2 < nodes.length := by
  induction nodes with
  | nil => cases hentry
  | cons node rest ih =>
    rcases List.mem_cons.mp hentry with rfl | hentry
    · exact Nat.lt_succ_self _
    · exact Nat.lt_succ_of_lt (ih hentry)

/-- A node that is taken off the stack loses its position, and no other node does. -/
theorem filter_positionsOf {node : Shape} {rest : List Shape} (hfresh : node ∉ rest) :
    (positionsOf (node :: rest)).filter (·.1 ≠ node) = positionsOf rest := by
  have hrest : ∀ entry ∈ positionsOf rest, decide (entry.1 ≠ node) = true := by
    intro entry hentry
    have hne : entry.1 ≠ node := fun heq => hfresh (heq ▸ mem_positionsOf hentry)
    exact decide_eq_true hne
  rw [positionsOf, List.filter_cons_of_neg (by simp), List.filter_eq_self.mpr hrest]

theorem lookup_positionsOf {node : Shape} {nodes : List Shape} (hmem : node ∈ nodes) :
    ∃ position, (positionsOf nodes).lookup node = some position ∧
      (node, position) ∈ positionsOf nodes := by
  induction nodes with
  | nil => cases hmem
  | cons head rest ih =>
    by_cases heq : node = head
    · subst heq
      exact ⟨rest.length, List.lookup_cons_self, List.mem_cons_self⟩
    · obtain ⟨position, hlookup, hentry⟩ := ih (List.mem_of_ne_of_mem heq hmem)
      have hne : (node == head) = false := by simpa using heq
      exact ⟨position, by simp [positionsOf, List.lookup_cons, hne, hlookup],
        List.mem_cons_of_mem _ hentry⟩

theorem Frame.mem_visit {frame : Frame} {nodes : List Shape} {node : Shape} :
    node ∈ (frame.visit nodes).visited ↔ node ∈ frame.visited ∨ node ∈ nodes := by
  simp only [Frame.visit]
  induction nodes with
  | nil => simp
  | cons head rest ih =>
    rw [List.foldr_cons, List.mem_insert_iff, ih, List.mem_cons]
    tauto

section Nodes

variable (nodes : List Shape) (position : Nat) (frames : List Frame)

theorem map_visitTop : (visitTop nodes frames).map Frame.node = frames.map Frame.node := by
  cases frames <;> rfl

theorem length_visitTop : (visitTop nodes frames).length = frames.length := by
  cases frames <;> rfl

theorem length_taintAbove : (taintAbove position frames).length = frames.length := by
  induction frames with
  | nil => rfl
  | cons frame rest ih =>
    rw [taintAbove]
    split
    · rw [List.length_cons, ih, List.length_cons]
    · rfl

theorem map_taintAbove : (taintAbove position frames).map Frame.node = frames.map Frame.node := by
  induction frames with
  | nil => rfl
  | cons frame rest ih =>
    rw [taintAbove]
    split
    · rw [List.map_cons, ih, List.map_cons]
      rfl
    · rfl

end Nodes

def Grown : List Frame → List Frame → Prop :=
  List.Forall₂ fun frame later => frame.visited ⊆ later.visited

namespace Grown

variable {frames later last : List Frame}

theorem refl (frames : List Frame) : Grown frames frames :=
  List.forall₂_same.mpr fun _ _ => List.Subset.refl _

theorem trans (h : Grown frames later) (hmore : Grown later last) : Grown frames last := by
  induction h generalizing last with
  | nil => exact hmore
  | cons hframe _ ih =>
    cases hmore with
    | cons hlater hrest => exact .cons (List.Subset.trans hframe hlater) (ih hrest)

theorem tail (h : Grown frames later) : Grown frames.tail later.tail := by
  cases h with
  | nil => exact .nil
  | cons _ hrest => exact hrest

theorem visitTop (nodes : List Shape) (frames : List Frame) :
    Grown frames (visitTop nodes frames) := by
  cases frames with
  | nil => exact .nil
  | cons frame rest => exact .cons (fun _ hmem => Frame.mem_visit.mpr (.inl hmem)) (refl rest)

theorem taintAbove (position : Nat) (frames : List Frame) :
    Grown frames (taintAbove position frames) := by
  induction frames with
  | nil => exact .nil
  | cons frame rest ih =>
    rw [ShapeSchema.taintAbove]
    split
    · exact .cons (List.Subset.refl _) ih
    · exact refl _

end Grown

/-- Whether every frame without a mark has visited, by itself or through what is inside it, no node
that is being expanded around it. -/
def Marked : (inside : Shape → Prop) → List Frame → Prop
  | _, [] => True
  | inside, frame :: rest =>
    (frame.tainted = false →
      ∀ node, inside node ∨ node ∈ frame.visited → node ∉ rest.map Frame.node) ∧
    Marked (fun node => inside node ∨ node ∈ frame.visited) rest

section Marks

variable {inside more : Shape → Prop} {frame : Frame} {frames rest : List Frame}

/-- Visits of nodes that are not being expanded need no marks. -/
theorem marked_mono (h : Marked inside frames)
    (hmore : ∀ node, more node → inside node ∨ node ∉ frames.map Frame.node) :
    Marked more frames := by
  induction frames generalizing inside more with
  | nil => trivial
  | cons frame rest ih =>
    obtain ⟨hframe, hrest⟩ := h
    have hbelow : ∀ node, more node → inside node ∨ node ∉ rest.map Frame.node :=
      fun node hnode => (hmore node hnode).imp id fun hfree hmem =>
        hfree (List.mem_cons_of_mem _ hmem)
    refine ⟨fun hclean node hnode => ?_, ih hrest fun node hnode => ?_⟩
    · rcases hnode with hnode | hnode
      · exact (hbelow node hnode).elim (fun hin => hframe hclean node (.inl hin)) id
      · exact hframe hclean node (.inr hnode)
    · rcases hnode with hnode | hnode
      · exact (hbelow node hnode).imp .inl id
      · exact .inl (.inr hnode)

theorem marked_tail (h : Marked (fun _ => False) (frame :: rest)) :
    Marked (fun _ => False) rest :=
  marked_mono h.2 nofun

theorem marked_enter (h : Marked (fun _ => False) frames) {node : Shape}
    (hfresh : node ∉ frames.map Frame.node) :
    Marked (fun _ => False) (.opened node :: frames) := by
  have hvisited : ∀ visited ∈ (Frame.opened node).visited, visited ∉ frames.map Frame.node := by
    intro visited hmem
    rw [List.mem_singleton.mp hmem]
    exact hfresh
  refine ⟨fun _ visited hmem => ?_, marked_mono h fun visited hmem => .inr ?_⟩
  · exact hvisited visited (hmem.resolve_left id)
  · exact hvisited visited (hmem.resolve_left id)

/-- The innermost frame counts as visited what is visited inside it. -/
theorem marked_visitTop {nodes : List Shape} (h : Marked (· ∈ nodes) frames) :
    Marked (fun _ => False) (visitTop nodes frames) := by
  cases frames with
  | nil => trivial
  | cons frame rest =>
    obtain ⟨hframe, hrest⟩ := h
    have hvisit : ∀ node, False ∨ node ∈ (frame.visit nodes).visited →
        node ∈ nodes ∨ node ∈ frame.visited :=
      fun node hnode => (Frame.mem_visit.mp (hnode.resolve_left id)).symm
    exact ⟨fun hclean node hnode => hframe hclean node (hvisit node hnode),
      marked_mono hrest fun node hnode => .inl (hvisit node hnode)⟩

theorem marked_leave (h : Marked (fun _ => False) (frame :: rest)) :
    Marked (fun _ => False) (visitTop frame.visited rest) :=
  marked_visitTop (marked_mono h.2 fun _ hmem => .inl (.inr hmem))

theorem marked_hit (h : Marked (fun _ => False) frames) {nodes : List Shape}
    (hfree : ∀ node ∈ nodes, node ∉ frames.map Frame.node) :
    Marked (fun _ => False) (visitTop nodes frames) :=
  marked_visitTop (marked_mono h fun node hmem => .inr (hfree node hmem))

/-- The visit of a node that is being expanded needs marks above it only. -/
theorem marked_taintAbove (h : Marked inside frames) (hnodup : (frames.map Frame.node).Nodup)
    {node : Shape} {position : Nat}
    (hposition : (node, position) ∈ positionsOf (frames.map Frame.node))
    (hmore : ∀ visited, more visited → inside visited ∨ visited = node) :
    Marked more (taintAbove position frames) := by
  induction frames generalizing inside more with
  | nil => cases hposition
  | cons frame rest ih =>
    obtain ⟨hframe, hrest⟩ := h
    obtain ⟨hfresh, hnodup⟩ := List.nodup_cons.mp hnodup
    rw [taintAbove]
    rcases List.mem_cons.mp hposition with heq | hposition
    · -- the node itself: it is not expanded once more around its own frame
      obtain ⟨rfl, rfl⟩ := Prod.mk.inj heq
      rw [List.length_map, if_neg (Nat.lt_irrefl _)]
      refine ⟨fun hclean visited hnode => ?_, marked_mono hrest fun visited hnode => ?_⟩
      · rcases hnode with hnode | hnode
        · rcases hmore visited hnode with hin | rfl
          · exact hframe hclean visited (.inl hin)
          · exact hfresh
        · exact hframe hclean visited (.inr hnode)
      · rcases hnode with hnode | hnode
        · rcases hmore visited hnode with hin | rfl
          · exact .inl (.inl hin)
          · exact .inr hfresh
        · exact .inl (.inr hnode)
    · have hlt : position < rest.length := by simpa using lt_of_mem_positionsOf hposition
      rw [if_pos hlt]
      refine ⟨nofun, ih hrest hnodup hposition fun visited hnode => ?_⟩
      rcases hnode with hnode | hnode
      · exact (hmore visited hnode).imp .inl id
      · exact .inl (.inr hnode)

theorem marked_cut (h : Marked (fun _ => False) frames) (hnodup : (frames.map Frame.node).Nodup)
    {node : Shape} {position : Nat}
    (hposition : (node, position) ∈ positionsOf (frames.map Frame.node)) :
    Marked (fun _ => False) (visitTop [node] (taintAbove position frames)) :=
  marked_visitTop (marked_taintAbove h hnodup hposition fun _ hmem =>
    .inr (List.mem_singleton.mp hmem))

end Marks
end ShapeSchema
