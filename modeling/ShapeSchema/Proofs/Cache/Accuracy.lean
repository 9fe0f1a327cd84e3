import ShapeSchema.Proofs.Cache.Exactness
import ShapeSchema.Proofs.Derivation.Locality
import ShapeSchema.Proofs.Derivation.Termination

/-!
What the entries of a cache say, at every moment of a derivation. An entry holds the schema that its
node has as a root, derived without a cache, and lists the nominal nodes that the node reaches. As
the derivation of a node depends on nothing else that is being expanded, such entries make a cache
sound. So derivations with a record, however deeply their calls may be nested, do what the walk does
and go through states with such entries only.
-/

namespace ShapeSchema

/-- Whether an entry holds what its node derives to as a root without constraints and without a
cache, and lists exactly the nominal nodes that the node reaches. -/
structure CacheEntry.IsAccurate (context : Context) (node : Shape) (entry : CacheEntry) : Prop where
  nominal : node.isNominal
  schema : context.derive? node .none = .ok entry.schema
  visited : ∀ other, other ∈ entry.visited ↔ other ∈ context.graph.nominalsFrom node

def Cache.IsAccurate (context : Context) (P : Shape → Prop) (cache : Cache) : Prop :=
  ∀ node entry, (node, entry) ∈ cache.entries → P node ∧ entry.IsAccurate context node

namespace Cache

variable {context : Context} {P : Shape → Prop} {cache : Cache} {node : Shape} {entry : CacheEntry}

theorem isAccurate_of_empty (hempty : cache.entries = []) : cache.IsAccurate context P := by
  intro node entry hmem
  rw [hempty] at hmem
  cases hmem

theorem IsAccurate.of_entries {other : Cache} (h : cache.IsAccurate context P)
    (hentries : other.entries = cache.entries) : other.IsAccurate context P := by
  intro node entry hmem
  exact h node entry (hentries ▸ hmem)

theorem IsAccurate.keep (h : cache.IsAccurate context P) (hnode : P node)
    (hentry : entry.IsAccurate context node) : (cache.keep node entry).IsAccurate context P := by
  intro sought found hmem
  rcases List.mem_cons.mp hmem with heq | hbefore
  · obtain ⟨rfl, rfl⟩ := Prod.mk.inj heq
    exact ⟨hnode, hentry⟩
  · exact h sought found (List.mem_of_mem_filter hbefore)

/-- What a node derives to as a root, it derives to wherever none of the nodes that it reaches is
being expanded. -/
theorem IsAccurate.isSound (h : cache.IsAccurate context P) : cache.IsSound context P where
  node hfound := by
    obtain ⟨hnode, hentry⟩ := h _ _ (mem_of_lookup hfound)
    exact ⟨hentry.nominal, hnode⟩
  schema {node entry} hfound active place hdisjoint := by
    obtain ⟨_, hentry⟩ := h node entry (mem_of_lookup hfound)
    have hnone : ∀ other ∈ context.graph.nominalsFrom node, other ∉ active :=
      fun other hother => disjoint_iff.mp hdisjoint other ((hentry.visited other).mpr hother)
    have hroot := context.displaced_derive?_none hnone place
    rw [hentry.schema] at hroot
    exact hroot.eq_ok

theorem IsAccurate.isExact (h : cache.IsAccurate context P) : cache.IsExact context.graph :=
  fun node entry hfound => (h node entry (mem_of_lookup hfound)).2.visited

/-- The entry of a sound and exact cache that a lookup finds is accurate. -/
theorem isAccurate_of_lookup (hsound : cache.IsSound context P)
    (hexact : cache.IsExact context.graph) (hfound : cache.entries.lookup node = some entry) :
    P node ∧ entry.IsAccurate context node := by
  obtain ⟨hnominal, hnode⟩ := hsound.node hfound
  refine ⟨hnode, hnominal, ?_, hexact node entry hfound⟩
  rw [context.derive?_none]
  exact hsound.schema hfound [] _ (disjoint_iff.mpr fun _ _ => List.not_mem_nil)

end Cache

def TrackingState.IsAccurate (context : Context) (P : Shape → Prop) (state : TrackingState) :
    Prop :=
  ∀ cache, state.cache? = some cache → cache.IsAccurate context P

namespace TrackingState

variable {context : Context} {P : Shape → Prop} {active : List Shape} {state : TrackingState}

theorem IsAccurate.of_same {other : TrackingState} (h : state.IsAccurate context P)
    (hcache : other.cache? = state.cache?) : other.IsAccurate context P :=
  fun cache hother => h cache (hcache ▸ hother)

/-- A lookup leaves the entries alone. -/
theorem IsAccurate.fetch (h : state.IsAccurate context P) (node : Shape) :
    (state.fetch node).2.IsAccurate context P := by
  intro after hafter
  obtain ⟨before, hbefore, hentries⟩ := cache_of_fetch hafter
  exact (h before hbefore).of_entries hentries

/-- What is kept at the end of an expansion is accurate, if it leaves an exact state. -/
theorem IsAccurate.keep (h : state.IsAccurate context P) {frame : Frame} {schema : Document}
    (hkept : (state.keep frame schema).IsExact context P active) :
    (state.keep frame schema).IsAccurate context P := by
  intro after hafter
  obtain ⟨hsound, hexact⟩ := And.intro (hkept.cache after hafter) (hkept.exact after hafter)
  obtain hsame | ⟨_, before, hbefore, rfl⟩ := cache_of_keep hafter
  · exact h after hsame
  · have hfound := before.lookup_keep frame.node ⟨schema, frame.visited⟩ frame.node
    rw [if_pos rfl] at hfound
    obtain ⟨hnode, hentry⟩ := Cache.isAccurate_of_lookup hsound hexact hfound
    exact (h before hbefore).keep hnode hentry

/-- A derivation that begins with accurate entries begins in an exact state. -/
theorem isExact_start {cache? : Option Cache}
    (hcache : ∀ cache, cache? = some cache → cache.IsAccurate context P) :
    TrackingState.IsExact context P [] ⟨cache?, [], []⟩ where
  toExpands := .start cache?
  cache cache hsome := (hcache cache hsome).isSound
  marked := trivial
  traced := trivial
  exact cache hsome := (hcache cache hsome).isExact

end TrackingState

structure Record.IsAccurate (context : Context) (P : Shape → Prop) (record : Record) : Prop where
  state : record.state.IsAccurate context P
  moments : ∀ state ∈ record.moments, state.IsAccurate context P

theorem Record.IsAccurate.move {context : Context} {P : Shape → Prop} {record : Record}
    (h : record.IsAccurate context P) {state : TrackingState}
    (hstate : state.IsAccurate context P) : (record.move state).IsAccurate context P where
  state := hstate
  moments := List.forall_mem_cons.mpr ⟨hstate, h.moments⟩

theorem Record.IsAccurate.leave {context : Context} {P : Shape → Prop} {record : Record}
    (h : record.IsAccurate context P) (node : Shape) :
    (record.move (record.state.leave node).2).IsAccurate context P :=
  h.move (h.state.of_same rfl)

/-- The end of an expansion keeps an accurate entry, if it leaves an exact state. -/
theorem Record.IsAccurate.finish {context : Context} {P : Shape → Prop} {active : List Shape}
    {record : Record} (h : record.IsAccurate context P) {node : Shape} {schema : Document}
    (hkept : (record.finish node schema).state.IsExact context P active) :
    (record.finish node schema).IsAccurate context P := by
  have hleft := (h.leave node).state
  have hvisited : ((record.state.leave node).2.visit
      (record.state.leave node).1.visited).IsAccurate context P := hleft.of_same rfl
  exact ((h.leave node).move hvisited).move (hvisited.keep hkept)

namespace Recording

/-- Whether a derivation with a record that begins in an exact state with accurate entries and comes
to an end does what one without a record does, and goes through states with accurate entries. -/
def Retraces (context : Context) (P : Shape → Prop) (active : List Shape) {α β : Type}
    (R : α → β → Prop) (x : Recording α) (y : Tracking β) : Prop :=
  ∀ record result next, record.IsAccurate context P → record.state.IsExact context P active →
    x.run.run record = some (result, next) →
      next.IsAccurate context P ∧ next.state.IsExact context P active ∧
        ∃ other, y.run.run record.state = (other, next.state) ∧ SameOutcome R result other

section Retraces

variable {context : Context} {P : Shape → Prop} {active : List Shape}

theorem Retraces.pure {α β : Type} {R : α → β → Prop} {a : α} {b : β} (h : R a b) :
    Retraces context P active R (Pure.pure a) (Pure.pure b) := by
  intro record result next hrecord hexact hrun
  cases hrun
  exact ⟨hrecord, hexact, .ok b, rfl, .ok h⟩

theorem Retraces.fail {α β : Type} {R : α → β → Prop} (place : Location) (defect : Defect) :
    Retraces context P active R (Context.fail place defect : Recording α)
      (Context.fail place defect : Tracking β) := by
  intro record result next hrecord hexact hrun
  cases hrun
  exact ⟨hrecord, hexact, _, rfl, .error _⟩

theorem Retraces.bind {α β γ δ : Type} {R : α → β → Prop} {Q : γ → δ → Prop} {x : Recording α}
    {y : Tracking β} {f : α → Recording γ} {g : β → Tracking δ}
    (hx : Retraces context P active R x y)
    (hf : ∀ a b, R a b → Retraces context P active Q (f a) (g b)) :
    Retraces context P active Q (x >>= f) (y >>= g) := by
  intro record result next hrecord hexact hrun
  rw [run_bind] at hrun
  rcases hfirst : x.run.run record with _ | ⟨outcome, middle⟩ <;> simp only [hfirst] at hrun
  · cases hrun
  obtain ⟨hmiddle, hexact', other, hother, hsame⟩ := hx record _ middle hrecord hexact hfirst
  rw [Tracking.run_bind, hother]
  cases hsame with
  | @ok a b hab => exact hf a b hab middle result next hmiddle hexact' hrun
  | error e =>
    cases hrun
    exact ⟨hmiddle, hexact', .error e, rfl, .error e⟩

def retracing (context : Context) (P : Shape → Prop) (active : List Shape) :
    Coupling (fun _ => True) Recording Tracking where
  Rel := Retraces context P active
  At := Eq
  pure := Retraces.pure
  bind := Retraces.bind
  fail defect _ hat := hat ▸ Retraces.fail _ defect
  push := @Location.push_congr

theorem Retraces.call {α β : Type} {R : α → β → Prop} {x : Recording α} {y : Tracking β}
    (h : Retraces context P active R x y) : Retraces context P active R (call x) y := by
  intro record result next hrecord hexact hrun
  obtain ⟨⟨outcome, last⟩, hlast, hclosed⟩ := Option.bind_eq_some_iff.mp hrun
  cases hclosed
  obtain ⟨hnext, hexact', hother⟩ := h record _ last hrecord hexact hlast
  exact ⟨⟨hnext.state, hnext.moments⟩, hexact', hother⟩

variable {node : Shape} {body : Recording Document} {place : Location}

/-- The expansion of a node retraces the walk if what is below the node does. That the entry which
it may leave is accurate is read off the state that the walk comes to. -/
theorem retraces_expand
    (hP : ∀ shape, P shape → ∀ steps part, (steps, part) ∈ context.graph.parts shape → P part)
    (hnode : P node) (hnominal : node.isNominal) (hmem : node ∉ active)
    (hbelow : context.graph.IsBelow active node) (hknown : context.graph.dangles node = false)
    (hbody : Retraces context P (node :: active) Eq body
      (context.level (context.walk Policy.tracking (node :: active)) node place)) :
    Retraces context P active Eq (expand node body)
      (context.walk Policy.tracking active node place) := by
  intro record result next hrecord hexact hrun
  have hvisits := Tracking.visits_walk context P hP active node hnode hbelow place record.state
  -- the walk comes to the same state, which is therefore exact
  suffices h : ∃ other, (context.walk Policy.tracking active node place).run.run record.state =
      (other, next.state) ∧ SameOutcome Eq result other ∧
        (next.state.IsExact context P active → next.IsAccurate context P) by
    obtain ⟨other, hother, hsame, hnext⟩ := h
    have hexact' := (hvisits other next.state hexact hother).1
    exact ⟨hnext hexact', hexact', other, hother, hsame⟩
  rw [context.walk_of_not_mem Policy.tracking place hnominal hmem hknown]
  change ∃ other, (Tracking.expand node _).run.run record.state = _ ∧ _
  rw [run_expand] at hrun
  rw [Tracking.run_expand]
  obtain ⟨hfetched, _⟩ := hexact.fetch node
  have hlooked := hrecord.state.fetch node
  rcases hfetch : record.state.fetch node with ⟨_ | entry, fetched⟩ <;>
    simp only [hfetch] at hrun hfetched hlooked ⊢
  · -- no entry: the node is expanded below a frame of its own
    have hentered : (fetched.enter node).IsAccurate context P := hlooked.of_same rfl
    rcases hrun' : body.run.run ((record.move fetched).move (fetched.enter node)) with
      _ | ⟨outcome, after⟩ <;> simp only [hrun'] at hrun
    · cases hrun
    obtain ⟨hafter, _, other, hother, hsame⟩ := hbody _ outcome after
      ((hrecord.move hlooked).move hentered) (hfetched.enter hmem hnominal) hrun'
    rw [Record.state_move] at hother
    rw [hother]
    cases hsame with
    | error e =>
      cases hrun
      exact ⟨.error e, rfl, .error e, fun _ => hafter.leave node⟩
    | @ok schema _ heq =>
      cases heq
      cases hrun
      exact ⟨.ok schema, rfl, .ok rfl, fun hkept => hafter.finish hkept⟩
  · cases hrun
    have hvisited : (fetched.visit entry.visited).IsAccurate context P := hlooked.of_same rfl
    exact ⟨.ok entry.schema, rfl, .ok rfl, fun _ => (hrecord.move hlooked).move hvisited⟩

/-- A nominal node is cut or expanded where the walk cuts or expands it. -/
theorem retraces_nominal
    (hP : ∀ shape, P shape → ∀ steps part, (steps, part) ∈ context.graph.parts shape → P part)
    (hnode : P node) (hnominal : node.isNominal) (hbelow : context.graph.IsBelow active node)
    (hbody : node ∉ active → Retraces context P (node :: active) Eq body
      (context.level (context.walk Policy.tracking (node :: active)) node place))
    (hfail : context.graph.dangles node → body = Context.fail place (.notAShape .null)) :
    Retraces context P active Eq (nominal context node body)
      (context.walk Policy.tracking active node place) := by
  intro record result next hrecord hexact hrun
  have hlooked : (record.move record.state).IsAccurate context P := hrecord.move hrecord.state
  have hposition := hexact.lookup_eq_none_iff node
  rw [run_nominal] at hrun
  cases hfound : record.state.positions.lookup node with
  | none =>
    have hmem : node ∉ active := hposition.mp hfound
    simp only [hfound] at hrun
    cases hknown : context.graph.dangles node with
    | false =>
      simp only [hknown, Bool.false_eq_true, if_false] at hrun
      exact retraces_expand hP hnode hnominal hmem hbelow hknown (hbody hmem)
        (record.move record.state) result next hlooked hexact hrun
    | true =>
      simp only [hknown, if_true, hfail hknown] at hrun
      rw [context.walk_of_dangles Policy.tracking place hmem hknown]
      exact Retraces.fail place _ (record.move record.state) result next hlooked hexact hrun
  | some position =>
    have hmem : node ∈ active := by
      by_contra hfree
      rw [hposition.mpr hfree] at hfound
      cases hfound
    simp only [hfound] at hrun
    cases hrun
    rw [context.walk_of_mem Policy.tracking place hnominal hmem]
    have hcut := hrecord.state.of_same (record.state.cache?_cut node)
    exact ⟨hlooked.move hcut, (hexact.cut hbelow hmem).1, _, rfl, .ok rfl⟩

end Retraces
end Recording

namespace Context

open Recording

variable (context : Context) {P : Shape → Prop}
  (hP : ∀ shape, P shape → ∀ steps part, (steps, part) ∈ context.graph.parts shape → P part)
include hP

/-- Calls retrace the walk, however deeply they may be nested. -/
theorem retraces_perform (depth : Nat) (active : List Shape) (shape : Shape) (place : Location)
    (hshape : P shape) (hbelow : context.graph.IsBelow active shape) :
    Retraces context P active Eq (context.perform depth shape place)
      (context.walk Policy.tracking active shape place) := by
  induction depth generalizing active shape place with
  | zero =>
    intro record result next _ _ hrun
    cases hrun
  | succ depth ih =>
    have hlevel : ∀ above, (∀ part ∈ context.graph.shapesIn shape,
        context.graph.IsBelow above part) → Retraces context P above Eq
          (context.level (context.perform depth) shape place)
          (context.level (context.walk Policy.tracking above) shape place) := by
      intro above habove
      refine (retracing context P above).level_self context (fun steps part hpart p q hat => ?_) rfl
      obtain rfl : p = q := hat
      exact ih above part p (hP shape hshape steps part hpart)
        (habove part (Graph.mem_shapesIn.mpr ⟨steps, hpart⟩))
    rw [perform]
    apply Retraces.call
    split
    · next hnominal =>
      refine retraces_nominal hP hshape hnominal hbelow (fun _ => ?_) ?_
      · exact hlevel _ fun part hpart => hbelow.inside hnominal hpart
      · exact fun hdangles => context.level_of_dangles _ place hdangles
    · next hnominal =>
      rw [context.walk_of_not_nominal Policy.tracking active place (by simpa using hnominal)]
      exact hlevel active fun part hpart => hbelow.of_part hpart

/-- At every moment of a derivation that begins with accurate entries, and at its end, the entries
are accurate. -/
theorem isAccurate_performRoot {depth : Nat} {cache? : Option Cache}
    (hcache : ∀ cache, cache? = some cache → cache.IsAccurate context P) {root : Shape}
    (hroot : P root) {c : Constraints} {result : Except SchemaError Document} {record : Record}
    (hrun : context.performRoot depth cache? root c = some (result, record)) :
    record.IsAccurate context P := by
  have hretraces : Retraces context P [] Eq
      (context.constrained (context.perform depth) root c
        (.start (context.graph.describe root)))
      (context.root Policy.tracking root c) := by
    refine (retracing context P []).constrained_self context (fun p q hat => ?_) c rfl
    obtain rfl : p = q := hat
    exact context.retraces_perform hP depth [] root p hroot (List.forall_mem_nil _)
  have hstart : (Record.start cache?).IsAccurate context P := ⟨hcache, List.forall_mem_nil _⟩
  exact (hretraces _ result record hstart (TrackingState.isExact_start hcache) hrun).1

/-- A derivation that begins with accurate entries leaves accurate entries behind, also where it
fails. -/
theorem isAccurate_deriveWith {cache? : Option Cache}
    (hcache : ∀ cache, cache? = some cache → cache.IsAccurate context P) {root : Shape}
    (hroot : P root) (c : Constraints) :
    ∀ cache, (context.deriveWith cache? root c).2 = some cache → cache.IsAccurate context P := by
  intro cache hafter
  obtain ⟨last, hlast, hcalls⟩ := context.calls_deriveWith cache? root c
  rw [hlast] at hafter
  obtain ⟨_, rfl⟩ | ⟨place, result, hrun, _⟩ := hcalls.only
  · exact hcache cache hafter
  · -- the same walk by calls that may be nested deeply enough, with a record
    obtain ⟨depth, outcome, record, hperform, rfl⟩ := context.exists_perform cache? hrun
    have hretraces := context.retraces_perform hP depth [] root place hroot (List.forall_mem_nil _)
    have hstart : (Record.start cache?).IsAccurate context P := ⟨hcache, List.forall_mem_nil _⟩
    obtain ⟨hrecord, _⟩ :=
      hretraces _ outcome record hstart (TrackingState.isExact_start hcache) hperform
    exact hrecord.state cache hafter

end Context
end ShapeSchema
