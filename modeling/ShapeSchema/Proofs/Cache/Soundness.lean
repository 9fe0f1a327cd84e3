import ShapeSchema.Proofs.Cache.Discipline
import ShapeSchema.Proofs.Derivation.Coupling
import ShapeSchema.Proofs.Json.Members

/-!
The use of a cache follows the plain derivation. A cache is sound if every kept schema is what the
plain derivation gives for its node wherever none of the nodes listed with it is being expanded. A
derivation with a sound cache gives what the plain one gives, and leaves a sound cache behind even
when it fails.
-/

namespace ShapeSchema

/-- Whether every kept schema answers for its node wherever it may be used. The nodes with an entry
are nominal and have the property `P`. -/
structure Cache.IsSound (context : Context) (P : Shape → Prop) (cache : Cache) : Prop where
  node : ∀ {node entry}, cache.entries.lookup node = some entry → node.isNominal ∧ P node
  schema : ∀ {node entry}, cache.entries.lookup node = some entry → ∀ active place,
    disjoint entry.visited active → context.walk Policy.plain active node place = .ok entry.schema

namespace Cache

theorem lookup_keep (cache : Cache) (node : Shape) (entry : CacheEntry) (sought : Shape) :
    (cache.keep node entry).entries.lookup sought =
      if sought = node then some entry else cache.entries.lookup sought := by
  have hrest := lookup_filter cache.entries (fun shape => decide (shape ≠ node)) sought
  by_cases h : sought = node
  · simp [Cache.keep, h]
  · have hne : (sought == node) = false := by simpa using h
    simp only [Cache.keep, List.lookup_cons, hne, if_neg h]
    rw [hrest, if_pos (by simpa using h)]

variable {context : Context} {P : Shape → Prop} {cache : Cache}

theorem isSound_of_empty (hempty : cache.entries = []) : cache.IsSound context P where
  node h := by simp [hempty] at h
  schema h := by simp [hempty] at h

theorem IsSound.of_entries {other : Cache} (h : cache.IsSound context P)
    (hentries : other.entries = cache.entries) : other.IsSound context P where
  node hfound := h.node (hentries ▸ hfound)
  schema hfound := h.schema (hentries ▸ hfound)

/-- A sound cache is sound in another context for the nodes that it keeps, as far as the plain
derivations of these nodes are the same. -/
theorem IsSound.retain {next : Context} {Q : Shape → Prop} (h : cache.IsSound context P)
    (alive : Shape → Bool) (hsame : ∀ node, node.isNominal → P node → alive node →
      Q node ∧ ∀ active place, context.walk Policy.plain active node place =
        next.walk Policy.plain active node place) :
    (cache.retain alive).IsSound next Q where
  node {sought entry} hfound := by
    rw [Cache.retain, lookup_filter] at hfound
    split at hfound
    · next halive =>
      obtain ⟨hnominal, hnode⟩ := h.node hfound
      exact ⟨hnominal, (hsame sought hnominal hnode halive).1⟩
    · cases hfound
  schema {sought entry} hfound active place hdisjoint := by
    rw [Cache.retain, lookup_filter] at hfound
    split at hfound
    · next halive =>
      obtain ⟨hnominal, hnode⟩ := h.node hfound
      rw [← (hsame sought hnominal hnode halive).2 active place]
      exact h.schema hfound active place hdisjoint
    · cases hfound

/-- The same for all nodes. -/
theorem IsSound.transfer {next : Context} {Q : Shape → Prop} (h : cache.IsSound context P)
    (hsame : ∀ node, node.isNominal → P node → Q node ∧ ∀ active place,
      context.walk Policy.plain active node place = next.walk Policy.plain active node place) :
    cache.IsSound next Q :=
  (h.retain (fun _ => true) fun node hnominal hnode _ => hsame node hnominal hnode).of_entries
    (List.filter_true _).symm

theorem IsSound.keep (h : cache.IsSound context P) {node : Shape} {entry : CacheEntry}
    (hnode : node.isNominal ∧ P node) (hschema : ∀ active place, disjoint entry.visited active →
      context.walk Policy.plain active node place = .ok entry.schema) :
    (cache.keep node entry).IsSound context P where
  node {sought found} hfound := by
    rw [lookup_keep] at hfound
    split at hfound
    · next heq => exact heq ▸ hnode
    · exact h.node hfound
  schema {sought found} hfound := by
    rw [lookup_keep] at hfound
    split at hfound
    · next heq =>
      cases hfound
      exact heq ▸ hschema
    · exact h.schema hfound

end Cache

def AgreeOn (nodes active other : List Shape) : Prop :=
  ∀ node ∈ nodes, node ∈ active ↔ node ∈ other

namespace AgreeOn

variable {nodes more active other : List Shape}

theorem mono (h : AgreeOn nodes active other) (hsub : more ⊆ nodes) : AgreeOn more active other :=
  fun node hmem => h node (hsub hmem)

theorem cons (h : AgreeOn nodes active other) (node : Shape) :
    AgreeOn nodes (node :: active) (node :: other) := by
  intro other hmem
  simp [h other hmem]

theorem of_disjoint (hactive : Cache.disjoint nodes active) (hother : Cache.disjoint nodes other) :
    AgreeOn nodes active other := by
  intro node hmem
  rw [Cache.disjoint_iff] at hactive hother
  simp [hactive node hmem, hother node hmem]

theorem disjoint (h : AgreeOn nodes active other) (hactive : Cache.disjoint nodes active) :
    Cache.disjoint nodes other := by
  rw [Cache.disjoint_iff] at hactive ⊢
  intro node hmem
  rw [← h node hmem]
  exact hactive node hmem

end AgreeOn

def topVisited : List Frame → List Shape
  | [] => []
  | frame :: _ => frame.visited

theorem Grown.topVisited_subset {frames later : List Frame} (h : Grown frames later) :
    topVisited frames ⊆ topVisited later := by
  cases h with
  | nil => exact List.Subset.refl _
  | cons hframe _ => exact hframe

structure TrackingState.IsSound (context : Context) (P : Shape → Prop) (active : List Shape)
    (state : TrackingState) : Prop extends state.Expands active where
  cache : ∀ cache, state.cache? = some cache → cache.IsSound context P
  marked : Marked (fun _ => False) state.stack

/-- The state after the expansion of a node ended with a schema. What it visited counts for the
expansion around it. -/
def TrackingState.close (state : TrackingState) (node : Shape) (schema : Document) :
    TrackingState :=
  let (frame, outer) := state.leave node
  (outer.visit frame.visited).keep frame schema

namespace TrackingState.IsSound

variable {context : Context} {P : Shape → Prop} {active : List Shape} {state : TrackingState}
  {node : Shape}

theorem fetch (h : state.IsSound context P active) (node : Shape) :
    (state.fetch node).2.IsSound context P active ∧ (state.fetch node).2.stack = state.stack ∧
      ∀ entry, (state.fetch node).1 = some entry → Cache.disjoint entry.visited active ∧
        ∀ above place, Cache.disjoint entry.visited above →
          context.walk Policy.plain above node place = .ok entry.schema := by
  have hstack := state.stack_fetch node
  refine ⟨⟨h.toExpands.fetch node, fun after hafter => ?_, hstack ▸ h.marked⟩, hstack,
    fun entry hentry => ?_⟩
  · obtain ⟨before, hbefore, hentries⟩ := cache_of_fetch hafter
    exact (h.cache before hbefore).of_entries hentries
  · obtain ⟨cache, hcache, hlookup, hdisjoint⟩ := entry_of_fetch hentry
    rw [h.positions, map_positionsOf] at hdisjoint
    exact ⟨hdisjoint, fun above place => (h.cache cache hcache).schema hlookup above place⟩

theorem visit (h : state.IsSound context P active) {nodes : List Shape}
    (hmarked : Marked (fun _ => False) (visitTop nodes state.stack)) :
    (state.visit nodes).IsSound context P active where
  toExpands := h.toExpands.visit nodes
  cache := h.cache
  marked := hmarked

theorem enter (h : state.IsSound context P active) (hfresh : node ∉ active) :
    (state.enter node).IsSound context P (node :: active) where
  toExpands := h.toExpands.enter hfresh
  cache := h.cache
  marked := marked_enter h.marked (h.stack ▸ hfresh)

/-- The frame of a node is the innermost one when its expansion ends. -/
theorem leave (h : state.IsSound context P (node :: active)) :
    ∃ frame rest, state.stack = frame :: rest ∧ frame.node = node ∧
      state.leave node = (frame, { state with stack := rest, positions := positionsOf active }) ∧
        (state.leave node).2.IsSound context P active := by
  obtain ⟨frame, rest, hstack, hnode, hleave, hleft⟩ := h.toExpands.leave
  refine ⟨frame, rest, hstack, hnode, hleave, ?_⟩
  rw [hleave] at hleft ⊢
  exact ⟨hleft, h.cache, marked_tail (hstack ▸ h.marked)⟩

/-- Where nodes are being expanded, visits are recorded. -/
theorem subset_topVisited (h : state.IsSound context P active) (hne : active ≠ [])
    (nodes : List Shape) : nodes ⊆ topVisited (visitTop nodes state.stack) := by
  intro node hnode
  cases hframes : state.stack with
  | nil =>
    have hnone := h.stack
    rw [hframes] at hnone
    exact absurd hnone.symm hne
  | cons frame rest => exact Frame.mem_visit.mpr (.inr hnode)

theorem keep (h : state.IsSound context P active) {frame : Frame} {schema : Document}
    (hnode : frame.node.isNominal ∧ P frame.node)
    (hschema : frame.tainted = false → ∀ above place, Cache.disjoint frame.visited above →
      context.walk Policy.plain above frame.node place = .ok schema) :
    (state.keep frame schema).IsSound context P active where
  toExpands := h.toExpands.keep frame schema
  cache after hafter := by
    obtain hsame | ⟨hclean, before, hbefore, rfl⟩ := cache_of_keep hafter
    · exact h.cache after hsame
    · exact (h.cache before hbefore).keep hnode (hschema hclean)
  marked := (state.stack_keep frame schema) ▸ h.marked

/-- A kept schema may be used where none of the nodes listed with it is being expanded. -/
theorem reuse (h : state.IsSound context P active) {nodes : List Shape}
    (hactive : Cache.disjoint nodes active) :
    (state.visit nodes).IsSound context P active ∧
      Grown state.stack (state.visit nodes).stack := by
  have hfree : ∀ node ∈ nodes, node ∉ state.stack.map Frame.node := by
    rw [h.stack]
    exact Cache.disjoint_iff.mp hactive
  exact ⟨h.visit (marked_hit h.marked hfree), Grown.visitTop _ _⟩

/-- An expansion ends in a sound state if its schema is what the plain derivation gives under any
nodes that agree on what it visited. -/
theorem close (h : state.IsSound context P (node :: active)) {schema : Document}
    (hnode : node.isNominal ∧ P node)
    (hplain : ∀ above place, AgreeOn (topVisited state.stack) active above →
      context.walk Policy.plain above node place = .ok schema) :
    (state.close node schema).IsSound context P active ∧
      Grown state.stack.tail (state.close node schema).stack ∧
      (active ≠ [] → topVisited state.stack ⊆ topVisited (state.close node schema).stack) := by
  obtain ⟨frame, rest, htop, hframe, hleave, hleft⟩ := h.leave
  have hmarked : Marked (fun _ => False) (frame :: rest) := htop ▸ h.marked
  have hkeep : frame.tainted = false → ∀ above place, Cache.disjoint frame.visited above →
      context.walk Policy.plain above frame.node place = .ok schema := by
    intro hclean above place habove
    rw [hleave] at hleft
    have hactive : Cache.disjoint frame.visited active :=
      Cache.disjoint_iff.mpr fun node hin => hleft.stack ▸ hmarked.1 hclean node (.inr hin)
    rw [hframe]
    exact hplain above place (htop ▸ .of_disjoint hactive habove)
  simp only [TrackingState.close, hleave, htop] at hleft ⊢
  rw [TrackingState.stack_keep]
  have hvisit := hleft.visit (marked_leave hmarked)
  exact ⟨hvisit.keep (hframe ▸ hnode) hkeep, Grown.visitTop frame.visited rest,
    fun hne => hleft.subset_topVisited hne frame.visited⟩

theorem cut (h : state.IsSound context P active) (hmem : node ∈ active) :
    (state.cut node).IsSound context P active ∧ Grown state.stack (state.cut node).stack ∧
      node ∈ topVisited (state.cut node).stack := by
  obtain ⟨position, hlookup, hposition⟩ := lookup_positionsOf hmem
  have hcut : state.cut node =
      { state with stack := visitTop [node] (taintAbove position state.stack) } := by
    simp only [TrackingState.cut, h.positions, hlookup]
  have hexpands := h.toExpands.cut node
  rw [hcut] at hexpands ⊢
  refine ⟨⟨hexpands, h.cache, ?_⟩, ?_, ?_⟩
  · exact marked_cut h.marked (h.stack ▸ h.nodup) (h.stack ▸ hposition)
  · exact (Grown.taintAbove position state.stack).trans (Grown.visitTop _ _)
  · have hlength := length_taintAbove position state.stack
    cases hframes : taintAbove position state.stack with
    | nil =>
      rw [hframes] at hlength
      have hnone := List.eq_nil_of_length_eq_zero hlength.symm
      simp [← h.stack, hnone] at hmem
    | cons frame rest => exact Frame.mem_visit.mpr (.inr List.mem_cons_self)

end TrackingState.IsSound

namespace Tracking

/-- Whether a tracking derivation under one list of nodes follows a plain one under another list.
The schemas are related if the lists agree on all nodes visited; in the exact case, where lists and
places are the same, the errors are the same too. -/
structure Follows (context : Context) (P : Shape → Prop) (active other : List Shape)
    (exact : Prop) {α β : Type} (R : α → β → Prop) (x : Tracking α)
    (y : Except SchemaError β) : Prop where
  ok : ∀ {state a next}, state.IsSound context P active → x.run.run state = (.ok a, next) →
    next.IsSound context P active ∧ Grown state.stack next.stack ∧ ∃ b, R a b ∧
      (exact ∨ active ≠ [] ∧ AgreeOn (topVisited next.stack) active other → y = .ok b)
  error : ∀ {state e next}, state.IsSound context P active → x.run.run state = (.error e, next) →
    next.IsSound context P active ∧ (exact → y = .error e)

theorem run_bind {α β : Type} (x : Tracking α) (f : α → Tracking β) (state : TrackingState) :
    (x >>= f).run.run state =
      match x.run.run state with
      | (.ok a, next) => (f a).run.run next
      | (.error e, next) => (.error e, next) := by
  simp only [ExceptT.run_bind, StateT.run_bind]
  cases x.run.run state with
  | mk result next => cases result <;> rfl

theorem run_tryCatch {α : Type} (x : Tracking α) (handle : SchemaError → Tracking α)
    (state : TrackingState) :
    (tryCatch x handle).run.run state =
      match x.run.run state with
      | (.ok a, next) => (.ok a, next)
      | (.error e, next) => (handle e).run.run next := by
  simp only [ExceptT.run_tryCatch, StateT.run_bind]
  cases x.run.run state with
  | mk result next => cases result <;> rfl

namespace Follows

variable {context : Context} {P : Shape → Prop} {active other : List Shape} {exact : Prop}

theorem pure {α β : Type} {R : α → β → Prop} {a : α} {b : β} (h : R a b) :
    Follows context P active other exact R (Pure.pure a) (Pure.pure b) where
  ok hsound hrun := by
    cases hrun
    exact ⟨hsound, .refl _, b, h, fun _ => rfl⟩
  error _ hrun := by cases hrun

theorem bind {α β γ δ : Type} {R : α → β → Prop} {Q : γ → δ → Prop} {x : Tracking α}
    {y : Except SchemaError β} {f : α → Tracking γ} {g : β → Except SchemaError δ}
    (hx : Follows context P active other exact R x y)
    (hf : ∀ a b, R a b → Follows context P active other exact Q (f a) (g b)) :
    Follows context P active other exact Q (x >>= f) (y >>= g) where
  ok {state c next} hsound hrun := by
    rw [run_bind] at hrun
    rcases hx' : x.run.run state with ⟨_ | a, middle⟩ <;> simp only [hx'] at hrun
    · cases hrun
    · obtain ⟨hmiddle, hgrown, b, hab, hy⟩ := hx.ok hsound hx'
      obtain ⟨hnext, hmore, d, hcd, hg⟩ := (hf a b hab).ok hmiddle hrun
      refine ⟨hnext, hgrown.trans hmore, d, hcd, fun hagree => ?_⟩
      rw [hy (hagree.imp id fun h => ⟨h.1, h.2.mono hmore.topVisited_subset⟩)]
      exact hg hagree
  error {state e next} hsound hrun := by
    rw [run_bind] at hrun
    rcases hx' : x.run.run state with ⟨_ | a, middle⟩ <;> simp only [hx'] at hrun
    · cases hrun
      obtain ⟨hnext, hy⟩ := hx.error hsound hx'
      exact ⟨hnext, fun hexact => by rw [hy hexact]; rfl⟩
    · obtain ⟨hmiddle, _, b, hab, hy⟩ := hx.ok hsound hx'
      obtain ⟨hnext, hg⟩ := (hf a b hab).error hmiddle hrun
      exact ⟨hnext, fun hexact => by rw [hy (.inl hexact)]; exact hg hexact⟩

theorem fail {α β : Type} {R : α → β → Prop} {p q : Location} (defect : Defect)
    (hat : exact → p = q) :
    Follows context P active other exact R (Context.fail p defect : Tracking α)
      (Context.fail q defect : Except SchemaError β) where
  ok _ hrun := by cases hrun
  error hsound hrun := by
    cases hrun
    exact ⟨hsound, fun h => by rw [hat h]; rfl⟩

end Follows

def following (context : Context) (P : Shape → Prop) (active other : List Shape)
    (exact : Prop) : Coupling (fun _ => True) Tracking (Except SchemaError) where
  Rel := Follows context P active other exact
  At p q := exact → p = q
  pure := Follows.pure
  bind := Follows.bind
  fail defect _ := Follows.fail defect
  push step hat hexact := by rw [hat hexact]

/-- A node that is cut is cut in the plain derivation as well. -/
theorem follows_cut {context : Context} {P : Shape → Prop} {active other : List Shape}
    {exact : Prop} {shape : Shape} {place : Location} (hexact : exact → other = active)
    (hnominal : shape.isNominal) (hmem : shape ∈ active) :
    Follows context P active other exact Eq (do
      Policy.tracking.cut shape
      return context.cutSchema shape) (context.walk Policy.plain other shape place) where
  ok {state d next} hsound hrun := by
    cases hrun
    obtain ⟨hnext, hgrown, hvisited⟩ := hsound.cut hmem
    refine ⟨hnext, hgrown, _, rfl, fun hagree => context.plain_of_mem place hnominal ?_⟩
    rcases hagree with h | ⟨_, hagree⟩
    · exact hexact h ▸ hmem
    · exact (hagree shape hvisited).mp hmem
  error _ hrun := by cases hrun

theorem run_expand (node : Shape) (body : Tracking Document) (state : TrackingState) :
    (expand node body).run.run state =
      match state.fetch node with
      | (some entry, next) => (.ok entry.schema, next.visit entry.visited)
      | (none, next) =>
        match body.run.run (next.enter node) with
        | (.ok schema, after) => (.ok schema, after.close node schema)
        | (.error e, after) => (.error e, (after.leave node).2) := by
  have hfetch : (modifyGet (·.fetch node) : Tracking (Option CacheEntry)).run.run state =
      (.ok (state.fetch node).1, (state.fetch node).2) := rfl
  simp only [expand, run_bind, hfetch]
  rcases state.fetch node with ⟨_ | entry, next⟩
  · have henter : (modify (·.enter node) : Tracking Unit).run.run next =
        (.ok (), next.enter node) := rfl
    simp only [run_bind, henter, run_tryCatch]
    rcases body.run.run (next.enter node) with ⟨_ | schema, after⟩ <;> rfl
  · rfl

/-- The expansion of a node follows the plain one if what is below it does, whichever nodes are
being expanded above. -/
theorem follows_expand {context : Context} {P : Shape → Prop} {active other : List Shape}
    {exact : Prop} {shape : Shape} {here place : Location} {body : Tracking Document}
    (hP : P shape) (hexact : exact → other = active) (hat : exact → here = place)
    (hnominal : shape.isNominal) (hmem : shape ∉ active)
    (hbody : ∀ (above : List Shape) (there : Location) (same : Prop),
      (same → above = active ∧ here = there) →
        Follows context P (shape :: active) (shape :: above) same Eq body
          (context.level (context.walk Policy.plain (shape :: above)) shape there)) :
    Follows context P active other exact Eq (expand shape body)
      (context.walk Policy.plain other shape place) where
  ok {state d next} hsound hrun := by
    rw [run_expand] at hrun
    obtain ⟨hfetched, hstack, hentry⟩ := hsound.fetch shape
    rcases hfetch : state.fetch shape with ⟨_ | entry, fetched⟩ <;>
      simp only [hfetch] at hrun hfetched hstack hentry
    · rcases hrun' : body.run.run (fetched.enter shape) with ⟨_ | schema, after⟩ <;>
        simp only [hrun'] at hrun
      · cases hrun
      have hentered := hfetched.enter hmem
      obtain ⟨hafter, hgrown, _⟩ :=
        (hbody active here True fun _ => ⟨rfl, rfl⟩).ok hentered hrun'
      have hnode : shape ∈ topVisited after.stack := hgrown.topVisited_subset List.mem_cons_self
      -- what the parts give below any list that agrees on the visited nodes
      have hplain : ∀ above there, AgreeOn (topVisited after.stack) active above →
          context.walk Policy.plain above shape there = .ok schema := by
        intro above there hagree
        have hfresh : shape ∉ above := fun h => hmem ((hagree shape hnode).mpr h)
        obtain ⟨_, _, _, hsame, hd⟩ := (hbody above there False nofun).ok hentered hrun'
        rw [context.plain_of_not_mem there hnominal hfresh, hsame]
        exact hd (.inr ⟨List.cons_ne_nil _ _, hagree.cons shape⟩)
      obtain ⟨hclosed, hmore, hvisited⟩ := hafter.close ⟨hnominal, hP⟩ hplain
      cases hrun
      refine ⟨hclosed, ?_, _, rfl, fun hagree => hplain other place ?_⟩
      · rw [← hstack]
        exact hgrown.tail.trans hmore
      · rcases hagree with h | ⟨hne, hagree⟩
        · exact hexact h ▸ fun _ _ => Iff.rfl
        · exact hagree.mono (hvisited hne)
    · cases hrun
      obtain ⟨hactive, hplain⟩ := hentry entry rfl
      obtain ⟨hvisit, hgrown⟩ := hfetched.reuse hactive
      refine ⟨hvisit, hstack ▸ hgrown, _, rfl, fun hagree => hplain other place ?_⟩
      rcases hagree with h | ⟨hne, hagree⟩
      · exact hexact h ▸ hactive
      · exact (hagree.mono (hfetched.subset_topVisited hne entry.visited)).disjoint hactive
  error {state e next} hsound hrun := by
    rw [run_expand] at hrun
    obtain ⟨hfetched, -, -⟩ := hsound.fetch shape
    rcases hfetch : state.fetch shape with ⟨_ | entry, fetched⟩ <;>
      simp only [hfetch] at hrun hfetched
    · rcases hrun' : body.run.run (fetched.enter shape) with ⟨_ | schema, after⟩ <;>
        simp only [hrun'] at hrun <;> cases hrun
      obtain ⟨hafter, herror⟩ :=
        (hbody active here True fun _ => ⟨rfl, rfl⟩).error (hfetched.enter hmem) hrun'
      obtain ⟨_, _, _, _, _, hleft⟩ := hafter.leave
      refine ⟨hleft, fun h => ?_⟩
      rw [hexact h, ← hat h, context.plain_of_not_mem here hnominal hmem]
      exact herror trivial
    · cases hrun

/-- A derivation with a sound cache follows the plain one. -/
theorem follows_walk (context : Context) (P : Shape → Prop)
    (hP : ∀ shape, P shape → ∀ steps part, (steps, part) ∈ context.graph.parts shape → P part)
    (active : List Shape) (shape : Shape) :
    P shape → ∀ (other : List Shape) (exact : Prop) (p q : Location),
      (exact → other = active) → (exact → p = q) →
        Follows context P active other exact Eq (context.walk Policy.tracking active shape p)
          (context.walk Policy.plain other shape q) := by
  induction active, shape using context.graph.expansion_induction with
  | pass active shape hnominal ih =>
    intro hshape other exact p q hexact hat
    rw [context.walk_of_not_nominal Policy.tracking active p hnominal,
      context.walk_of_not_nominal Policy.plain other q hnominal]
    refine (following context P active other exact).level_self context
      (fun steps part hmem p q hat => ?_) hat
    exact ih steps part hmem (hP shape hshape steps part hmem) other exact p q hexact hat
  | cut active shape hnominal hmem =>
    intro _ other exact p q hexact _
    rw [context.walk_of_mem Policy.tracking p hnominal hmem]
    exact follows_cut hexact hnominal hmem
  | expand active shape hnominal hmem ih =>
    intro hshape other exact p q hexact hat
    cases hknown : context.graph.dangles shape with
    | true =>
      rw [context.walk_of_dangles Policy.tracking p hmem hknown]
      refine ⟨fun _ hrun => (by cases hrun), fun hsound hrun => ?_⟩
      cases hrun
      refine ⟨hsound, fun h => ?_⟩
      rw [hexact h, ← hat h, context.walk_of_dangles Policy.plain p hmem hknown]
      rfl
    | false =>
      rw [context.walk_of_not_mem Policy.tracking p hnominal hmem hknown]
      refine follows_expand hshape hexact hat hnominal hmem fun above there same hsame => ?_
      refine (following context P (shape :: active) (shape :: above) same).level_self context
        (fun steps part hpart p q hat => ?_) fun h => (hsame h).2
      exact ih steps part hpart (hP shape hshape steps part hpart) _ same p q
        (fun h => by rw [(hsame h).1]) hat

/-- What follows a plain derivation in the exact case has its result, and keeps the cache sound. -/
theorem Follows.run_eq {context : Context} {P : Shape → Prop} {active other : List Shape} {α : Type}
    {x : Tracking α} {y : Except SchemaError α} (h : Follows context P active other True Eq x y)
    {state : TrackingState} (hsound : state.IsSound context P active) :
    (x.run.run state).1 = y ∧ (x.run.run state).2.IsSound context P active := by
  rcases hrun : x.run.run state with ⟨e | a, next⟩
  · obtain ⟨hnext, herror⟩ := h.error hsound hrun
    exact ⟨(herror trivial).symm, hnext⟩
  · obtain ⟨hnext, _, _, rfl, hplain⟩ := h.ok hsound hrun
    exact ⟨(hplain (.inl trivial)).symm, hnext⟩

/-- Below any frames, and with any sound cache, a shape derives to what the plain derivation gives
under the nodes of the frames, and the cache stays sound. -/
theorem walk_eq_plain (context : Context) {P : Shape → Prop}
    (hP : ∀ shape, P shape → ∀ steps part, (steps, part) ∈ context.graph.parts shape → P part)
    {active : List Shape} {state : TrackingState} (hsound : state.IsSound context P active)
    {shape : Shape} (hshape : P shape) (place : Location) :
    ((context.walk Policy.tracking active shape place).run.run state).1 =
        context.walk Policy.plain active shape place ∧
      ((context.walk Policy.tracking active shape place).run.run state).2.IsSound context P
        active := by
  have hfollows := follows_walk context P hP active shape hshape active True place place
    (fun _ => rfl) fun _ => rfl
  exact hfollows.run_eq hsound

/-- The same with constraints on the shape. -/
theorem constrained_eq_plain (context : Context) {P : Shape → Prop}
    (hP : ∀ shape, P shape → ∀ steps part, (steps, part) ∈ context.graph.parts shape → P part)
    {active : List Shape} {state : TrackingState} (hsound : state.IsSound context P active)
    {shape : Shape} (hshape : P shape) (c : Constraints) (place : Location) :
    ((context.constrained (context.walk Policy.tracking active) shape c place).run.run state).1 =
      context.constrained (context.walk Policy.plain active) shape c place := by
  have hfollows : Follows context P active active True Eq
      (context.constrained (context.walk Policy.tracking active) shape c place)
      (context.constrained (context.walk Policy.plain active) shape c place) :=
    (following context P active active True).constrained_self context
      (fun p q hat => follows_walk context P hP active shape hshape active True p q
        (fun _ => rfl) hat) c fun _ => rfl
  exact (hfollows.run_eq hsound).1

end Tracking

/-- A derivation with a sound cache, or without a cache, gives what the plain derivation gives, and
leaves a sound cache behind. -/
theorem Context.deriveWith_of_isSound (context : Context) {P : Shape → Prop}
    (hP : ∀ shape, P shape → ∀ steps part, (steps, part) ∈ context.graph.parts shape → P part)
    {cache? : Option Cache} (hsound : ∀ cache, cache? = some cache → cache.IsSound context P)
    {shape : Shape} (hshape : P shape) (c : Constraints) :
    (context.deriveWith cache? shape c).1 = context.derive? shape c ∧
      ∀ cache, (context.deriveWith cache? shape c).2 = some cache → cache.IsSound context P := by
  have hroot : Tracking.Follows context P [] [] True Eq (context.root Policy.tracking shape c)
      (context.derive? shape c) :=
    (Tracking.following context P [] [] True).constrained_self context
      (fun p q hat => Tracking.follows_walk context P hP [] shape hshape [] True p q
        (fun _ => rfl) hat) c fun _ => rfl
  have hstart : TrackingState.IsSound context P [] ⟨cache?, [], []⟩ :=
    ⟨.start cache?, hsound, trivial⟩
  obtain ⟨hresult, hnext⟩ := hroot.run_eq hstart
  exact ⟨hresult, hnext.cache⟩

end ShapeSchema
