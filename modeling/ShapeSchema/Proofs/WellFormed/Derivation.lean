import ShapeSchema.Proofs.Cache.Soundness
import ShapeSchema.Proofs.WellFormed.Adjustment
import ShapeSchema.Proofs.WellFormed.Encoding

/-!
Every rule of a derivation gives schemas in order, if those of the parts are, and reports defects of
the description only. So does a derivation with a cache, whatever its entries are for, as long as
the schemas among them are in order; the cache holds such schemas again afterwards, also after an
error.
-/

namespace ShapeSchema

open Schema

def Alike {α : Type} (P : α → Prop) (a b : α) : Prop :=
  a = b ∧ P a

theorem Context.isFresh_cutSchema (context : Context) (shape : Shape) :
    IsFresh (context.cutSchema shape) := by
  cases shape with
  | declared index =>
    rw [Context.cutSchema, Context.placeholder]
    split
    · exact isFresh_kind (.inl rfl) (by simp)
    · exact isFresh_kind (.inl rfl) (by simp)
    · exact isFresh_nil
  | _ => exact isFresh_nil

namespace Coupling

variable {m n : Type → Type} [Monad m] [MonadExceptOf SchemaError m] [Monad n]
  [MonadExceptOf SchemaError n]

theorem located_yields (C : Coupling Defect.IsOrdinary m n) {α : Type} {P : α → Prop}
    {x : Except Defect α} (hx : Yields P x) {p q : Location} (hat : C.At p q) :
    C.Rel (Alike P) (Context.located p x : m α) (Context.located q x : n α) := by
  cases x with
  | ok a => exact C.pure ⟨rfl, hx⟩
  | error defect => exact C.fail defect hx hat

theorem isPayload_of_corresponds {v w : EncodedVariant}
    (h : v.Corresponds (Alike IsCoherent) w) : v = w ∧ IsPayload v := by
  obtain ⟨key, schema, mergeable⟩ := v
  obtain ⟨key', schema', mergeable'⟩ := w
  obtain ⟨rfl, rfl, hschema⟩ := h
  cases hschema with
  | none => exact ⟨rfl, nofun⟩
  | some hdoc =>
    obtain ⟨d, _, rfl, rfl, rfl, hd⟩ := hdoc
    refine ⟨rfl, fun schema hschema => ?_⟩
    cases hschema
    exact ⟨d, rfl, hd⟩

theorem eq_of_forall₂ {α : Type} {R : α → α → Prop} {P : α → Prop}
    (hR : ∀ {a b}, R a b → a = b ∧ P a) {xs ys : List α} (h : List.Forall₂ R xs ys) :
    xs = ys ∧ ∀ x ∈ xs, P x := by
  induction h with
  | nil => exact ⟨rfl, by simp⟩
  | cons hhead _ ih =>
    obtain ⟨rfl, hx⟩ := hR hhead
    obtain ⟨rfl, hxs⟩ := ih
    exact ⟨rfl, List.forall_mem_cons.mpr ⟨hx, hxs⟩⟩

theorem isWellFormed_of_corresponds {p q : Context.Property}
    (h : p.Corresponds (Alike IsCoherent) q) : p = q ∧ IsWellFormed p.schema := by
  obtain ⟨key, schema, required⟩ := p
  obtain ⟨rfl, rfl, rfl, hschema⟩ := h
  exact ⟨rfl, hschema.wellFormed⟩

/-- The rules of the derivation give schemas in order. -/
theorem respects_fresh (C : Coupling Defect.IsOrdinary m n) (context : Context) :
    C.Respects context context Eq (Alike IsFresh) (Alike IsCoherent)
      (Alike (HoldsWellFormed "additionalProperties")) where
  ordinary := id
  optional h := by rw [h]
  mergeable h := by rw [h]
  inner h := ⟨h.1, h.2.toIsCoherent⟩
  bounded {s t p q d e c} _ hshape hdoc hat := by
    obtain ⟨rfl, hd⟩ := hdoc
    rw [hshape]
    exact C.located_yields (yields_applyBounds context t c hd) hat
  widened {p q d e} hdoc hat := by
    obtain ⟨rfl, hd⟩ := hdoc
    obtain ⟨widened, hok, hwidened⟩ := hd.widened
    rw [hok]
    exact C.pure ⟨rfl, hwidened⟩
  mapped {p q d e} key hdoc hat := by
    obtain ⟨rfl, hd⟩ := hdoc
    exact C.located_yields (yields_map key hd.wellFormed) hat
  primitive kind := ⟨rfl, isFresh_primitive kind⟩
  anyObject := ⟨rfl, isFresh_kind (.inl rfl) (by simp)⟩
  objectId := ⟨rfl, isFresh_kind (.inr rfl) (by simp)⟩
  unit := ⟨rfl, isFresh_unit⟩
  array h := ⟨by rw [h.1], isFresh_array h.2.wellFormed⟩
  set h := ⟨by rw [h.1], isFresh_set h.2.wellFormed⟩
  fixedArray length h := ⟨by rw [h.1], isFresh_fixedArray length h.2.wellFormed⟩
  tuple h := by
    obtain ⟨rfl, hds⟩ := eq_of_forall₂ id h
    exact ⟨rfl, isFresh_tuple fun d hd => (hds d hd).wellFormed⟩
  unspecified := ⟨rfl, holdsWellFormed_bool⟩
  allowed _ := ⟨rfl, holdsWellFormed_bool⟩
  values h := ⟨by rw [h.1], holdsWellFormed_schema (.inr rfl) h.2.wellFormed⟩
  object h hnodup hfurther := by
    obtain ⟨rfl, hps⟩ := eq_of_forall₂ isWellFormed_of_corresponds h
    obtain ⟨rfl, hx⟩ := hfurther
    exact ⟨rfl, isFresh_objectSchema hnodup hps hx⟩
  union {vs ws p q} tagging h hat := by
    obtain ⟨rfl, hvs⟩ := eq_of_forall₂ isPayload_of_corresponds h
    exact C.located_yields (yields_encodeUnion tagging hvs) hat

end Coupling

def Ends {α : Type} (P : α → Prop) : Except SchemaError α → Prop
  | .ok a => P a
  | .error error => error.defect.IsOrdinary

theorem Ends.imp {α : Type} {P Q : α → Prop} (h : ∀ a, P a → Q a) {x : Except SchemaError α}
    (hx : Ends P x) : Ends Q x := by
  cases x with
  | ok a => exact h a hx
  | error error => exact hx

theorem alike_left {P : Document → Prop} (d : Document) (h : ∃ e, Alike P d e) : P d := by
  obtain ⟨_, _, hd⟩ := h
  exact hd

/-- A plain derivation on its own; what it is compared with plays no part. -/
def Coupling.alone :
    Coupling Defect.IsOrdinary (Except SchemaError) (Except SchemaError) where
  Rel R x _ := Ends (fun a => ∃ b, R a b) x
  At _ _ := True
  pure {_ _ _ _ b} h := ⟨b, h⟩
  bind {_ _ _ _ _ _ x _ _ _} hx hf := by
    cases x with
    | ok a =>
      obtain ⟨b, hab⟩ := hx
      exact hf a b hab
    | error error => exact hx
  fail _ hdefect _ := hdefect
  push _ _ := trivial

namespace Context

/-- The plain derivation of a shape gives a schema in order wherever it gives one. -/
theorem ends_plain (context : Context) (active : List Shape) (shape : Shape) :
    ∀ place, Ends IsFresh (context.walk Policy.plain active shape place) := by
  intro place
  let derivation := context.walk Policy.plain active shape place
  have hends : Coupling.alone.Rel (Alike IsFresh) derivation derivation := by
    refine (Coupling.alone.respects_fresh context).walk rfl (fun node => ?_)
      (fun _ _ _ hbody => hbody) active shape place place trivial
    exact ⟨_, rfl, context.isFresh_cutSchema node⟩
  exact hends.imp alike_left

theorem ends_derive? (context : Context) (shape : Shape) (c : Constraints) :
    Ends IsCoherent (context.derive? shape c) := by
  let derivation := context.derive? shape c
  have hends : Coupling.alone.Rel (Alike IsCoherent) derivation derivation := by
    refine (Coupling.alone.respects_fresh context).constrained (fun place _ _ => ?_) rfl c trivial
    exact (context.ends_plain [] shape place).imp fun d hd => ⟨d, rfl, hd⟩
  exact hends.imp alike_left

end Context

def Cache.IsFresh (cache : Cache) : Prop :=
  ∀ kept ∈ cache.entries, Schema.IsFresh kept.2.schema

theorem Cache.isFresh_empty : Cache.empty.IsFresh := by
  intro kept hmem
  cases hmem

theorem Cache.IsFresh.retain {cache : Cache} (h : cache.IsFresh) (alive : Shape → Bool) :
    (cache.retain alive).IsFresh :=
  fun kept hmem => h kept (List.mem_of_mem_filter hmem)

theorem Cache.IsFresh.keep {cache : Cache} (h : cache.IsFresh) (node : Shape) {entry : CacheEntry}
    (hentry : Schema.IsFresh entry.schema) : (cache.keep node entry).IsFresh := by
  refine List.forall_mem_cons.mpr ⟨hentry, fun kept hmem => ?_⟩
  exact h kept (List.mem_of_mem_filter hmem)

namespace TrackingState

def IsFresh (state : TrackingState) : Prop :=
  ∀ cache, state.cache? = some cache → cache.IsFresh

variable {state : TrackingState}

theorem IsFresh.fetch (h : state.IsFresh) (node : Shape) : (state.fetch node).2.IsFresh ∧
    ∀ entry, (state.fetch node).1 = some entry → Schema.IsFresh entry.schema := by
  refine ⟨fun after hafter => ?_, fun entry hentry => ?_⟩
  · obtain ⟨before, hbefore, hentries⟩ := cache_of_fetch hafter
    exact fun kept hmem => h before hbefore kept (hentries ▸ hmem)
  · obtain ⟨cache, hcache, hlookup, _⟩ := entry_of_fetch hentry
    exact h cache hcache _ (mem_of_lookup hlookup)

theorem IsFresh.cut (h : state.IsFresh) (node : Shape) : (state.cut node).IsFresh := by
  unfold TrackingState.cut
  split
  · exact h
  · exact h

theorem IsFresh.close (h : state.IsFresh) (node : Shape) {schema : Document}
    (hschema : Schema.IsFresh schema) : (state.close node schema).IsFresh := by
  intro after hafter
  obtain hsame | ⟨_, before, hbefore, rfl⟩ := cache_of_keep hafter
  · exact h after hsame
  · exact (h before hbefore).keep _ hschema

end TrackingState

namespace Tracking

/-- Whether a derivation ends with a result of some kind or an ordinary defect, and leaves schemas
in order in the cache if there were no others before. -/
def Keeps {α : Type} (P : α → Prop) (x : Tracking α) : Prop :=
  ∀ state : TrackingState, state.IsFresh →
    Ends P (x.run.run state).1 ∧ (x.run.run state).2.IsFresh

theorem Keeps.imp {α : Type} {P Q : α → Prop} (h : ∀ a, P a → Q a) {x : Tracking α}
    (hx : Keeps P x) : Keeps Q x :=
  fun state hstate => (hx state hstate).imp_left (.imp h)

theorem Keeps.bind {α β : Type} {P : α → Prop} {Q : β → Prop} {x : Tracking α}
    {f : α → Tracking β} (hx : Keeps P x) (hf : ∀ a, P a → Keeps Q (f a)) : Keeps Q (x >>= f) := by
  intro state hstate
  obtain ⟨hends, hnext⟩ := hx state hstate
  rw [run_bind]
  rcases hrun : x.run.run state with ⟨_ | a, next⟩ <;> simp only [hrun] at hends hnext ⊢
  · exact ⟨hends, hnext⟩
  · exact hf a hends next hnext

def alone : Coupling Defect.IsOrdinary Tracking Tracking where
  Rel R x _ := Keeps (fun a => ∃ b, R a b) x
  At _ _ := True
  pure {_ _ _ _ b} h := fun _ hstate => ⟨⟨b, h⟩, hstate⟩
  bind hx hf := hx.bind fun a ⟨b, hab⟩ => hf a b hab
  fail _ hdefect _ := fun _ hstate => ⟨hdefect, hstate⟩
  push _ _ := trivial

theorem keeps_expand {node : Shape} {body : Tracking Document} (hbody : Keeps Schema.IsFresh body) :
    Keeps Schema.IsFresh (expand node body) := by
  intro state hstate
  rw [run_expand]
  obtain ⟨hfetched, hentry⟩ := hstate.fetch node
  rcases hfetch : state.fetch node with ⟨_ | entry, fetched⟩ <;>
    simp only [hfetch] at hfetched hentry ⊢
  · obtain ⟨hends, hafter⟩ := hbody (fetched.enter node) hfetched
    rcases hrun : body.run.run (fetched.enter node) with ⟨_ | schema, after⟩ <;>
      simp only [hrun] at hends hafter ⊢
    · exact ⟨hends, hafter⟩
    · exact ⟨hends, hafter.close node hends⟩
  · exact ⟨hentry entry rfl, hfetched⟩

/-- The derivation of a shape with a cache gives a schema in order wherever it gives one. -/
theorem keeps_walk (context : Context) (active : List Shape) (shape : Shape) :
    ∀ place, Keeps Schema.IsFresh (context.walk Policy.tracking active shape place) := by
  intro place
  let derivation := context.walk Policy.tracking active shape place
  have hkeeps : alone.Rel (Alike Schema.IsFresh) derivation derivation := by
    refine (alone.respects_fresh context).walk rfl (fun node state hstate => ?_)
      (fun node body _ hbody => ?_) active shape place place trivial
    · exact ⟨⟨_, rfl, context.isFresh_cutSchema node⟩, hstate.cut node⟩
    · exact (keeps_expand (hbody.imp alike_left)).imp fun doc hdoc => ⟨doc, rfl, hdoc⟩
  exact hkeeps.imp alike_left

end Tracking

/-- A derivation with a cache of schemas in order, or with none, gives a schema in order or reports
a defect of the description, and leaves such a cache. -/
theorem Context.ends_deriveWith (context : Context) {cache? : Option Cache}
    (hcache : ∀ cache, cache? = some cache → cache.IsFresh) (shape : Shape) (c : Constraints) :
    Ends IsCoherent (context.deriveWith cache? shape c).1 ∧
      ∀ cache, (context.deriveWith cache? shape c).2 = some cache → cache.IsFresh := by
  have hroot : Tracking.Keeps IsCoherent (context.root Policy.tracking shape c) := by
    let derivation := context.root Policy.tracking shape c
    have hends : Tracking.alone.Rel (Alike IsCoherent) derivation derivation := by
      refine (Tracking.alone.respects_fresh context).constrained (fun place _ _ => ?_) rfl c trivial
      exact (Tracking.keeps_walk context [] shape place).imp fun d hd => ⟨d, rfl, hd⟩
    exact hends.imp alike_left
  exact hroot ⟨cache?, [], []⟩ hcache

end ShapeSchema
