import ShapeSchema.Proofs.Derivation.Calls
import ShapeSchema.Proofs.Derivation.Termination

/-!
How many schemas are kept. A lookup that finds none opens at most one expansion, and an expansion
keeps at most one schema, so that entries and open expansions together are never more than the
lookups that found none. This holds at every moment of a derivation, also of one that fails.
-/

namespace ShapeSchema

namespace TrackingState

/-- Whether the entries, the expansions that are open and some further ones are no more than the
lookups that found no entry. -/
def IsCovered (pending : Nat) (state : TrackingState) : Prop :=
  ∀ cache, state.cache? = some cache → cache.size + state.stack.length + pending ≤ cache.misses

namespace IsCovered

variable {pending : Nat} {state : TrackingState}

theorem of_le {fewer : Nat} (h : state.IsCovered pending) (hle : fewer ≤ pending) :
    state.IsCovered fewer := by
  intro cache hcache
  have := h cache hcache
  omega

/-- A lookup that finds no entry allows for one more. -/
theorem fetch (h : state.IsCovered 0) (node : Shape) :
    (state.fetch node).2.IsCovered 0 ∧
      ((state.fetch node).1 = none → (state.fetch node).2.IsCovered 1) := by
  unfold TrackingState.fetch
  cases hcache : state.cache? with
  | none => exact ⟨h, fun _ cache hnone => by simp [hcache] at hnone⟩
  | some cache =>
    have hcovered := h cache hcache
    simp only [Cache.fetch]
    cases cache.find? (state.positions.map Prod.fst) node with
    | none =>
      have hmissed : ({ cache with misses := cache.misses + 1 } : Cache).size +
          state.stack.length + 1 ≤ cache.misses + 1 := Nat.succ_le_succ hcovered
      constructor
      · rintro _ ⟨⟩
        exact Nat.le_of_succ_le hmissed
      · rintro _ _ ⟨⟩
        exact hmissed
    | some entry =>
      constructor
      · rintro _ ⟨⟩
        exact hcovered
      · intro hnone
        cases hnone

theorem of_same {other : TrackingState} (h : state.IsCovered pending)
    (hcache : other.cache? = state.cache?) (hlength : other.stack.length = state.stack.length) :
    other.IsCovered pending := by
  intro cache hother
  rw [hlength]
  exact h cache (hcache ▸ hother)

theorem visit (h : state.IsCovered pending) (nodes : List Shape) :
    (state.visit nodes).IsCovered pending :=
  h.of_same rfl (length_visitTop nodes state.stack)

theorem enter (h : state.IsCovered (pending + 1)) (node : Shape) :
    (state.enter node).IsCovered pending := by
  intro cache hcache
  have := h cache hcache
  simp only [TrackingState.enter, List.length_cons]
  omega

/-- An expansion that ends leaves room for the entry of its node. -/
theorem leave (h : state.IsCovered pending) {outside : Nat}
    (hopen : state.stack.length = outside + 1) (node : Shape) :
    (state.leave node).2.IsCovered (pending + 1) ∧
      (state.leave node).2.stack.length = outside := by
  have hlength : (state.leave node).2.stack.length = outside := by
    simp only [TrackingState.leave, List.length_tail]
    omega
  refine ⟨fun cache hcache => ?_, hlength⟩
  have := h cache hcache
  omega

theorem keep (h : state.IsCovered (pending + 1)) (frame : Frame) (schema : Document) :
    (state.keep frame schema).IsCovered pending := by
  intro after hafter
  rw [TrackingState.stack_keep]
  obtain hsame | ⟨_, before, hbefore, rfl⟩ := cache_of_keep hafter
  · exact h.of_le (Nat.le_succ pending) after hsame
  · have hcovered := h before hbefore
    have hfewer : (before.entries.filter (·.1 ≠ frame.node)).length ≤ before.entries.length :=
      List.length_filter_le _ _
    simp only [Cache.size, Cache.keep, List.length_cons] at hcovered ⊢
    omega

end IsCovered

end TrackingState

structure Record.IsCovered (pending : Nat) (record : Record) : Prop where
  state : record.state.IsCovered pending
  moments : ∀ state ∈ record.moments, state.IsCovered 0

theorem Record.IsCovered.move {pending more : Nat} {record : Record}
    (h : record.IsCovered pending) {state : TrackingState} (hstate : state.IsCovered more) :
    (record.move state).IsCovered more where
  state := hstate
  moments := List.forall_mem_cons.mpr ⟨hstate.of_le (Nat.zero_le more), h.moments⟩

/-- The end of an expansion keeps at most the schema that its frame stands for. -/
theorem Record.IsCovered.finish {outside : Nat} {record : Record} (h : record.IsCovered 0)
    (hopen : record.state.stack.length = outside + 1) (node : Shape) (schema : Document) :
    (record.finish node schema).IsCovered 0 ∧
      (record.finish node schema).state.stack.length = outside := by
  obtain ⟨hleft, hclosed⟩ := h.state.leave hopen node
  have hvisited := hleft.visit (record.state.leave node).1.visited
  refine ⟨((h.move hleft).move hvisited).move (hvisited.keep _ schema), ?_⟩
  rw [Record.state_finish, TrackingState.close, TrackingState.stack_keep]
  exact (length_visitTop _ _).trans hclosed

namespace Recording

/-- Whether a derivation ends with as many expansions open as it began with, and kept no more than
was looked up in vain, if it comes to an end. -/
def Counts {α : Type} (P : α → Prop) (x : Recording α) : Prop :=
  ∀ record result next, record.IsCovered 0 → x.run.run record = some (result, next) →
    next.IsCovered 0 ∧ next.state.stack.length = record.state.stack.length ∧
      ∀ a, result = .ok a → P a

section Counts

variable {α β : Type} {P : α → Prop} {Q : β → Prop}

theorem Counts.imp {P' : α → Prop} (h : ∀ a, P a → P' a) {x : Recording α} (hx : Counts P x) :
    Counts P' x := by
  intro record result next hrecord hrun
  obtain ⟨hnext, hlength, hresult⟩ := hx record result next hrecord hrun
  exact ⟨hnext, hlength, fun a ha => h a (hresult a ha)⟩

theorem Counts.bind {x : Recording α} {f : α → Recording β} (hx : Counts P x)
    (hf : ∀ a, P a → Counts Q (f a)) : Counts Q (x >>= f) := by
  intro record result next hrecord hrun
  rw [run_bind] at hrun
  rcases hfirst : x.run.run record with _ | ⟨_ | a, middle⟩ <;> simp only [hfirst] at hrun
  · cases hrun
  · cases hrun
    obtain ⟨hnext, hlength, _⟩ := hx _ _ _ hrecord hfirst
    exact ⟨hnext, hlength, nofun⟩
  · obtain ⟨hmiddle, hlength, ha⟩ := hx _ _ _ hrecord hfirst
    obtain ⟨hnext, hmore, hb⟩ := hf a (ha a rfl) _ _ _ hmiddle hrun
    exact ⟨hnext, hmore.trans hlength, hb⟩

theorem Counts.call {x : Recording α} (hx : Counts P x) : Counts P (call x) := by
  intro record result next hrecord hrun
  obtain ⟨⟨outcome, last⟩, hlast, hclosed⟩ := Option.bind_eq_some_iff.mp hrun
  cases hclosed
  obtain ⟨hnext, hlength, hresult⟩ := hx record _ last hrecord hlast
  exact ⟨⟨hnext.state, hnext.moments⟩, hlength, hresult⟩

end Counts
end Recording

namespace Context

open Recording

end Context
end ShapeSchema
