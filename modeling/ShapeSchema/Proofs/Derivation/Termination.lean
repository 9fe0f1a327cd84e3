import Mathlib.Order.Filter.AtTopBot.Basic
import Mathlib.Order.Filter.Finite
import ShapeSchema.Proofs.Cache.Recording
import ShapeSchema.Proofs.Cache.Soundness
import ShapeSchema.Proofs.Derivation.Agreement

/-!
Derivations end. Calls that are allowed to be nested deeply enough come to a result, which is that
of the walk, and all along no node is expanded inside itself and every node has the position of its
frame, also where a call ends with an error.
-/

namespace ShapeSchema

structure Record.IsOrderly (graph : Graph) (root : Shape) (active : List Shape)
    (record : Record) : Prop where
  expands : record.state.Expands active
  reached : ∀ node ∈ active, node ∈ graph.nominalsFrom root
  moments : ∀ state ∈ record.moments, state.IsDisciplined graph root
  calls : ∀ call ∈ record.calls, call.1.SameExpansions call.2

theorem TrackingState.Expands.isDisciplined {graph : Graph} {root : Shape} {active : List Shape}
    {state : TrackingState} (h : state.Expands active)
    (hreached : ∀ node ∈ active, node ∈ graph.nominalsFrom root) :
    state.IsDisciplined graph root where
  nodup := h.stack ▸ h.nodup
  positions node position := by
    rw [h.positions, h.stack]
    exact lookup_positionsOf_eq_some_iff h.nodup
  nesting := by
    have hlength : state.stack.length = active.length := by rw [← h.stack, List.length_map]
    rw [hlength]
    exact Graph.length_le_nominalsFrom h.nodup hreached

def Record.finish (record : Record) (node : Shape) (schema : Document) : Record :=
  let (frame, outer) := record.state.leave node
  let visited := outer.visit frame.visited
  ((record.move outer).move visited).move (visited.keep frame schema)

@[simp] theorem Record.state_finish (record : Record) (node : Shape) (schema : Document) :
    (record.finish node schema).state = record.state.close node schema := rfl

namespace Record.IsOrderly

variable {graph : Graph} {root : Shape} {active other : List Shape} {record : Record}

theorem start (graph : Graph) (root : Shape) (cache? : Option Cache) :
    (Record.start cache?).IsOrderly graph root [] where
  expands := .start cache?
  reached := by simp
  moments := by simp [Record.start]
  calls := by simp [Record.start]

theorem move (h : record.IsOrderly graph root active) {state : TrackingState}
    (hexpands : state.Expands other) (hreached : ∀ node ∈ other, node ∈ graph.nominalsFrom root) :
    (record.move state).IsOrderly graph root other where
  expands := hexpands
  reached := hreached
  moments := List.forall_mem_cons.mpr ⟨hexpands.isDisciplined hreached, h.moments⟩
  calls := h.calls

theorem close (h : record.IsOrderly graph root active) {before : TrackingState}
    (hbefore : before.Expands active) : (record.close before).IsOrderly graph root active where
  expands := h.expands
  reached := h.reached
  moments := h.moments
  calls := by
    refine List.forall_mem_cons.mpr ⟨⟨?_, ?_⟩, h.calls⟩
    · exact h.expands.stack.trans hbefore.stack.symm
    · exact h.expands.positions.trans hbefore.positions.symm

theorem leave {node : Shape} (h : record.IsOrderly graph root (node :: active)) :
    (record.move (record.state.leave node).2).IsOrderly graph root active := by
  obtain ⟨frame, rest, _, _, _, hleft⟩ := h.expands.leave
  exact h.move hleft (List.forall_mem_cons.mp h.reached).2

theorem finish {node : Shape} (h : record.IsOrderly graph root (node :: active))
    (schema : Document) : (record.finish node schema).IsOrderly graph root active := by
  have hleft := h.leave
  have hvisited := hleft.move (hleft.expands.visit (record.state.leave node).1.visited)
    hleft.reached
  exact hvisited.move (hvisited.expands.keep (record.state.leave node).1 schema) hvisited.reached

end Record.IsOrderly

namespace Recording

theorem run_bind {α β : Type} (x : Recording α) (f : α → Recording β) (record : Record) :
    (x >>= f).run.run record =
      match x.run.run record with
      | some (.ok a, next) => (f a).run.run next
      | some (.error e, next) => some (.error e, next)
      | none => none := by
  simp only [ExceptT.run_bind, StateT.run_bind]
  rcases x.run.run record with _ | ⟨_ | _, _⟩ <;> rfl

theorem run_tryCatch {α : Type} (x : Recording α) (handle : SchemaError → Recording α)
    (record : Record) :
    (tryCatch x handle).run.run record =
      match x.run.run record with
      | some (.ok a, next) => some (.ok a, next)
      | some (.error e, next) => (handle e).run.run next
      | none => none := by
  simp only [ExceptT.run_tryCatch, StateT.run_bind]
  rcases x.run.run record with _ | ⟨_ | _, _⟩ <;> rfl

theorem run_change {α : Type} (f : TrackingState → α × TrackingState) (record : Record) :
    (change f).run.run record = some (.ok (f record.state).1, record.move (f record.state).2) :=
  rfl

theorem run_expand (node : Shape) (body : Recording Document) (record : Record) :
    (expand node body).run.run record =
      match record.state.fetch node with
      | (some entry, fetched) =>
        some (.ok entry.schema, (record.move fetched).move (fetched.visit entry.visited))
      | (none, fetched) =>
        match body.run.run ((record.move fetched).move (fetched.enter node)) with
        | some (.ok schema, after) => some (.ok schema, after.finish node schema)
        | some (.error e, after) => some (.error e, after.move (after.state.leave node).2)
        | none => none := by
  simp only [expand, run_bind, run_change]
  rcases record.state.fetch node with ⟨_ | entry, fetched⟩
  · simp only [run_bind, run_change, run_tryCatch, Record.state_move]
    rcases body.run.run ((record.move fetched).move (fetched.enter node)) with
      _ | ⟨_ | schema, after⟩ <;> rfl
  · rfl

theorem run_nominal (context : Context) (node : Shape) (body : Recording Document)
    (record : Record) :
    (nominal context node body).run.run record =
      let looked := record.move record.state
      match record.state.positions.lookup node with
      | some _ => some (.ok (context.cutSchema node), looked.move (record.state.cut node))
      | none => (if context.graph.dangles node then body else expand node body).run.run looked := by
  simp only [nominal, run_bind, run_change]
  cases record.state.positions.lookup node <;> rfl

/-- Whether a derivation with a record comes to an end, and to the same end as one without, in
every state in which some nodes are being expanded. It leaves the record in order. -/
def Performs (graph : Graph) (root : Shape) (active : List Shape) {α β : Type}
    (R : α → β → Prop) (x : Recording α) (y : Tracking β) : Prop :=
  ∀ record : Record, record.IsOrderly graph root active → ∃ result other next,
    x.run.run record = some (result, next) ∧ y.run.run record.state = (other, next.state) ∧
      SameOutcome R result other ∧ next.IsOrderly graph root active

section Performs

variable {graph : Graph} {root : Shape} {active : List Shape}

theorem Performs.pure {α β : Type} {R : α → β → Prop} {a : α} {b : β} (h : R a b) :
    Performs graph root active R (Pure.pure a) (Pure.pure b) :=
  fun record horderly => ⟨.ok a, .ok b, record, rfl, rfl, .ok h, horderly⟩

theorem Performs.fail {α β : Type} {R : α → β → Prop} (place : Location) (defect : Defect) :
    Performs graph root active R (Context.fail place defect : Recording α)
      (Context.fail place defect : Tracking β) :=
  fun record horderly =>
    ⟨.error ⟨defect, place⟩, _, record, rfl, rfl, .error _, horderly⟩

theorem Performs.bind {α β γ δ : Type} {R : α → β → Prop} {Q : γ → δ → Prop} {x : Recording α}
    {y : Tracking β} {f : α → Recording γ} {g : β → Tracking δ}
    (hx : Performs graph root active R x y)
    (hf : ∀ a b, R a b → Performs graph root active Q (f a) (g b)) :
    Performs graph root active Q (x >>= f) (y >>= g) := by
  intro record horderly
  obtain ⟨result, other, next, hrun, hother, hsame, hnext⟩ := hx record horderly
  cases hsame with
  | @ok a b hab =>
    obtain ⟨result, other, last, hrun', hother', hsame, hlast⟩ := hf a b hab next hnext
    refine ⟨result, other, last, ?_, ?_, hsame, hlast⟩
    · rw [run_bind, hrun]
      exact hrun'
    · rw [Tracking.run_bind, hother]
      exact hother'
  | error e =>
    refine ⟨.error e, .error e, next, ?_, ?_, .error e, hnext⟩
    · rw [run_bind, hrun]
    · rw [Tracking.run_bind, hother]

def performing (graph : Graph) (root : Shape) (active : List Shape) :
    Coupling (fun _ => True) Recording Tracking where
  Rel := Performs graph root active
  At := Eq
  pure := Performs.pure
  bind := Performs.bind
  fail defect _ hat := hat ▸ Performs.fail _ defect
  push := @Location.push_congr

theorem Performs.call {α β : Type} {R : α → β → Prop} {x : Recording α} {y : Tracking β}
    (h : Performs graph root active R x y) : Performs graph root active R (call x) y := by
  intro record horderly
  obtain ⟨result, other, next, hrun, hother, hsame, hnext⟩ := h record horderly
  refine ⟨result, other, next.close record.state, ?_, hother, hsame, hnext.close horderly.expands⟩
  change (x.run.run record >>= fun last => some (last.1, last.2.close record.state)) = _
  rw [hrun]
  rfl

variable {node : Shape} {body : Recording Document} {twin : Tracking Document}

/-- The expansion of a node ends if what is below it does. -/
theorem performs_expand (hnode : node ∈ graph.nominalsFrom root) (hmem : node ∉ active)
    (hbody : Performs graph root (node :: active) Eq body twin) :
    Performs graph root active Eq (expand node body) (Tracking.expand node twin) := by
  intro record horderly
  have hfetched := horderly.expands.fetch node
  rw [Tracking.run_expand, run_expand]
  rcases hfetch : record.state.fetch node with ⟨_ | entry, fetched⟩ <;>
    simp only [hfetch] at hfetched ⊢
  · -- no entry: the node is expanded below a frame of its own
    have hopened := (horderly.move hfetched horderly.reached).move (hfetched.enter hmem)
      (List.forall_mem_cons.mpr ⟨hnode, horderly.reached⟩)
    obtain ⟨result, other, after, hrun, hother, hsame, hafter⟩ := hbody _ hopened
    rw [Record.state_move] at hother
    rw [hrun, hother]
    cases hsame with
    | @ok schema _ heq => exact ⟨_, _, _, rfl, heq ▸ rfl, .ok heq, hafter.finish schema⟩
    | error e => exact ⟨_, _, _, rfl, rfl, .error e, hafter.leave⟩
  · have hvisited := (horderly.move hfetched horderly.reached).move
      (hfetched.visit entry.visited) horderly.reached
    exact ⟨_, _, _, rfl, rfl, .ok rfl, hvisited⟩

/-- A node has a position exactly if it is being expanded, so the positions lead to the choice that
the walk makes. -/
theorem performs_nominal {context : Context} {place : Location}
    (hnode : node ∈ context.graph.nominalsFrom root)
    (hbody : node ∉ active → Performs context.graph root (node :: active) Eq body
      (context.level (context.walk Policy.tracking (node :: active)) node place))
    (hfail : context.graph.dangles node → body = Context.fail place (.notAShape .null)) :
    Performs context.graph root active Eq (nominal context node body)
      (context.walk Policy.tracking active node place) := by
  intro record horderly
  have hlooked := horderly.move horderly.expands horderly.reached
  rw [run_nominal]
  cases hposition : record.state.positions.lookup node with
  | none =>
    have hmem : node ∉ active := (horderly.expands.lookup_eq_none_iff node).mp hposition
    cases hknown : context.graph.dangles node with
    | false =>
      rw [context.walk_of_not_mem Policy.tracking place hnode.1 hmem hknown]
      exact performs_expand hnode hmem (hbody hmem) _ hlooked
    | true =>
      rw [context.walk_of_dangles Policy.tracking place hmem hknown]
      simp only [if_true, hfail hknown]
      exact Performs.fail place _ _ hlooked
  | some position =>
    have hmem : node ∈ active := by
      by_contra hfree
      rw [(horderly.expands.lookup_eq_none_iff node).mpr hfree] at hposition
      cases hposition
    rw [context.walk_of_mem Policy.tracking place hnode.1 hmem]
    have hcut := hlooked.move (horderly.expands.cut node) horderly.reached
    exact ⟨_, _, _, rfl, rfl, .ok rfl, hcut⟩

end Performs
end Recording

namespace Context

/-- If calls for each part of a shape may be nested so deeply that they end, then there is a depth
at which they all end. -/
theorem exists_depth_of_parts {parts : List (List Step × Shape)} {Ends : Nat → Shape → Prop}
    (h : ∀ steps part, (steps, part) ∈ parts → ∃ depth, ∀ more ≥ depth, Ends more part) :
    ∃ depth, ∀ more ≥ depth, ∀ steps part, (steps, part) ∈ parts → Ends more part := by
  have hall : ∀ᶠ more in Filter.atTop, ∀ part ∈ {part | part ∈ parts}, Ends more part.2 := by
    refine (Filter.eventually_all_finite parts.finite_toSet).mpr fun part hpart => ?_
    exact Filter.eventually_atTop.mpr (h part.1 part.2 hpart)
  obtain ⟨depth, hdepth⟩ := Filter.eventually_atTop.mp hall
  exact ⟨depth, fun more hmore steps part hpart => hdepth more hmore (steps, part) hpart⟩

/-- One level does what a level of the walk does if the calls for the parts do. -/
theorem performs_level (context : Context) {root : Shape} {active : List Shape} {shape : Shape}
    {depth : Nat}
    (hparts : ∀ steps part, (steps, part) ∈ context.graph.parts shape → ∀ place,
      Recording.Performs context.graph root active Eq (context.perform depth part place)
        (context.walk Policy.tracking active part place)) (place : Location) :
    Recording.Performs context.graph root active Eq
      (context.level (context.perform depth) shape place)
      (context.level (context.walk Policy.tracking active) shape place) := by
  refine (Recording.performing context.graph root active).level_self context
    (fun steps part hpart p q hat => ?_) rfl
  obtain rfl : p = q := hat
  exact hparts steps part hpart p

/-- Calls that may be nested deeply enough end, and they do what the walk does. -/
theorem exists_depth (context : Context) (root : Shape) (active : List Shape) (shape : Shape) :
    context.graph.Reaches root shape → ∃ depth, ∀ more ≥ depth, ∀ place,
      Recording.Performs context.graph root active Eq (context.perform more shape place)
        (context.walk Policy.tracking active shape place) := by
  induction active, shape using context.graph.expansion_induction with
  | pass active shape hnominal ih =>
    intro hreaches
    obtain ⟨depth, hdepth⟩ := exists_depth_of_parts fun steps part hpart =>
      ih steps part hpart (hreaches.trans (.of_mem_parts hpart))
    refine ⟨depth + 1, fun more hmore place => ?_⟩
    obtain ⟨less, rfl⟩ : ∃ less, more = less + 1 := ⟨more - 1, by omega⟩
    rw [context.walk_of_not_nominal Policy.tracking active place hnominal]
    simp only [perform, hnominal, Bool.false_eq_true, if_false]
    exact (context.performs_level (hdepth less (by omega)) place).call
  | cut active shape hnominal hmem =>
    intro hreaches
    refine ⟨1, fun more hmore place => ?_⟩
    obtain ⟨less, rfl⟩ : ∃ less, more = less + 1 := ⟨more - 1, by omega⟩
    simp only [perform, hnominal, if_true]
    refine (Recording.performs_nominal ⟨hnominal, hreaches⟩ ?_ ?_).call
    · exact fun hfree => absurd hmem hfree
    · exact fun hdangles => context.level_of_dangles _ place hdangles
  | expand active shape hnominal hmem ih =>
    intro hreaches
    obtain ⟨depth, hdepth⟩ := exists_depth_of_parts fun steps part hpart =>
      ih steps part hpart (hreaches.trans (.of_mem_parts hpart))
    refine ⟨depth + 1, fun more hmore place => ?_⟩
    obtain ⟨less, rfl⟩ : ∃ less, more = less + 1 := ⟨more - 1, by omega⟩
    simp only [perform, hnominal, if_true]
    refine (Recording.performs_nominal ⟨hnominal, hreaches⟩ (fun _ => ?_) ?_).call
    · exact context.performs_level (hdepth less (by omega)) place
    · exact fun hdangles => context.level_of_dangles _ place hdangles

/-- The walk of a root is also done by calls that may be nested deeply enough. -/
theorem exists_perform (context : Context) (cache? : Option Cache) {root : Shape}
    {place : Location} {result : Except SchemaError Document} {last : TrackingState}
    (hrun : (context.walk Policy.tracking [] root place).run.run ⟨cache?, [], []⟩ =
      (result, last)) :
    ∃ depth outcome record, (context.perform depth root place).run.run (.start cache?) =
      some (outcome, record) ∧ record.state = last := by
  obtain ⟨depth, hdepth⟩ := context.exists_depth root [] root (.refl _ root)
  obtain ⟨outcome, other, record, hperform, hwalk, _⟩ :=
    hdepth depth (Nat.le_refl depth) place (.start cache?) (.start context.graph root cache?)
  exact ⟨depth, outcome, record, hperform, (Prod.mk.inj (hwalk.symm.trans hrun)).2⟩

/-- Every derivation ends, whatever is in its cache: calls that may be nested deeply enough come to
the result of the derivation and to its cache. All along, no node is expanded inside itself, every
node being expanded has the position of its frame, and no more nodes are expanded inside each other
than the root reaches; every call leaves frames and positions as it found them, also if it ends with
an error, so that none are left at the end. -/
theorem perform_terminates (context : Context) (cache? : Option Cache) (root : Shape)
    (c : Constraints) :
    ∃ depth, ∀ more ≥ depth, ∃ record : Record,
      context.performRoot more cache? root c =
          some ((context.deriveWith cache? root c).1, record) ∧
        record.state.cache? = (context.deriveWith cache? root c).2 ∧
        record.state.stack = [] ∧ record.state.positions = [] ∧
        (∀ state ∈ record.moments, state.IsDisciplined context.graph root) ∧
        ∀ call ∈ record.calls, call.1.SameExpansions call.2 := by
  obtain ⟨depth, hdepth⟩ := context.exists_depth root [] root (.refl _ root)
  refine ⟨depth, fun more hmore => ?_⟩
  have hroot : Recording.Performs context.graph root [] Eq
      (context.constrained (context.perform more) root c (.start (context.graph.describe root)))
      (context.root Policy.tracking root c) := by
    refine (Recording.performing context.graph root []).constrained_self context
      (fun p q hat => ?_) c rfl
    obtain rfl : p = q := hat
    exact hdepth more hmore p
  obtain ⟨result, other, record, hrun, hother, hsame, horderly⟩ :=
    hroot _ (.start context.graph root cache?)
  have hother' : (context.root Policy.tracking root c).run.run ⟨cache?, [], []⟩ =
      (other, record.state) := hother
  have hresult : (context.deriveWith cache? root c).1 = other := by
    simp only [deriveWith, hother']
  have hcache : (context.deriveWith cache? root c).2 = record.state.cache? := by
    simp only [deriveWith, hother']
  refine ⟨record, ?_, hcache.symm, ?_, horderly.expands.positions, horderly.moments,
    horderly.calls⟩
  · rw [hresult, ← hsame.eq]
    exact hrun
  · exact List.map_eq_nil_iff.mp horderly.expands.stack

end Context
end ShapeSchema
