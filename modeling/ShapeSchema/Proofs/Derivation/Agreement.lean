import ShapeSchema.Proofs.Derivation.Coupling

/-!
Derivations over graphs whose nodes may be other ones, but are built alike. Since a derivation looks
at the identity of nodes only to cut cycles, it gives the same if different nodes stay different.
-/

namespace ShapeSchema

inductive SameOutcome {ε α β : Type} (R : α → β → Prop) : Except ε α → Except ε β → Prop
  | ok {a : α} {b : β} (result : R a b) : SameOutcome R (.ok a) (.ok b)
  | error (e : ε) : SameOutcome R (.error e) (.error e)

namespace SameOutcome

variable {ε α β α' β' : Type} {R : α → β → Prop} {Q : α' → β' → Prop}

theorem eq {x y : Except ε α} (h : SameOutcome Eq x y) : x = y := by
  cases h with
  | ok h => rw [h]
  | error e => rfl

theorem refl (x : Except ε α) : SameOutcome Eq x x := by
  cases x with
  | ok a => exact .ok rfl
  | error e => exact .error e

theorem imp {S : α → β → Prop} {x : Except ε α} {y : Except ε β} (h : SameOutcome R x y)
    (hRS : ∀ a b, R a b → S a b) : SameOutcome S x y := by
  cases h with
  | ok h => exact .ok (hRS _ _ h)
  | error e => exact .error e

/-- Outcomes fail alike if one succeeds where the other one does and passes on its errors. -/
theorem of_survives {x : Except ε α} {y : Except ε β}
    (hok : ∀ a, x = .ok a → ∃ b, y = .ok b ∧ R a b)
    (herror : ∀ e, x = .error e → y = .error e) : SameOutcome R x y := by
  cases x with
  | ok a =>
    obtain ⟨b, rfl, hab⟩ := hok a rfl
    exact .ok hab
  | error e =>
    rw [herror e rfl]
    exact .error e

theorem bind {x : Except ε α} {y : Except ε β} {f : α → Except ε α'} {g : β → Except ε β'}
    (h : SameOutcome R x y) (hnext : ∀ a b, R a b → SameOutcome Q (f a) (g b)) :
    SameOutcome Q (x >>= f) (y >>= g) := by
  cases h with
  | ok hab => exact hnext _ _ hab
  | error e => exact .error e

theorem mapM {x : List α'} {y : List β'} {f : α' → Except ε α} {g : β' → Except ε β}
    (h : List.Forall₂ (fun a b => SameOutcome R (f a) (g b)) x y) :
    SameOutcome (List.Forall₂ R) (x.mapM f) (y.mapM g) := by
  induction h with
  | nil => exact .ok .nil
  | cons hhead _ ih =>
    rw [List.mapM_cons, List.mapM_cons]
    exact hhead.bind fun _ _ hfirst => ih.bind fun _ _ hrest => .ok (.cons hfirst hrest)

theorem located {x : Except Defect α} {y : Except Defect β} (h : SameOutcome R x y)
    (place : Location) :
    SameOutcome R (Context.located place x : Except SchemaError α)
      (Context.located place y : Except SchemaError β) := by
  cases h with
  | ok hab => exact .ok hab
  | error => exact .error _

end SameOutcome

theorem Location.push_congr {p q : Location} (step : Step) (h : p = q) :
    p.push step = q.push step :=
  congrArg (·.push step) h

def Coupling.sameOutcome :
    Coupling (fun _ => True) (Except SchemaError) (Except SchemaError) where
  Rel := SameOutcome
  At := Eq
  pure h := .ok h
  bind := .bind
  fail _ _ hat := hat ▸ .error _
  push := @Location.push_congr

/-- Whether a relation takes the nodes of one graph to nodes of another one that are built alike,
have the same names, and are the same where the given ones are. -/
structure Graph.IsRenaming (g h : Graph) (R : Shape → Shape → Prop) : Prop where
  corresponds : ∀ {s t}, R s t → Graph.Corresponds R g h s t
  describe : ∀ {s t}, R s t → g.describe s = h.describe t
  same : ∀ {s t u v}, R s t → R u v → s.isNominal → u.isNominal → (s = u ↔ t = v)

namespace Graph.IsRenaming

variable {a b : Context} {R : Shape → Shape → Prop} {s t : Shape}

theorem isNominal_eq {g h : Graph} (hR : g.IsRenaming h R) (hst : R s t) :
    s.isNominal = t.isNominal := by
  cases hR.corresponds hst <;> rfl

theorem isOptional_eq {g h : Graph} (hR : g.IsRenaming h R) (hst : R s t) :
    s.isOptional = t.isOptional := by
  cases hR.corresponds hst <;> rfl

theorem unwrapped {g h : Graph} (hR : g.IsRenaming h R) (hst : R s t) :
    R s.unwrapped t.unwrapped := by
  induction s generalizing t with
  | optional label inner ih =>
    cases hR.corresponds hst with
    | optional _ _ hinner =>
      have hbelow := ih hinner
      exact hbelow
  | newtype label name inner ih =>
    cases hR.corresponds hst with
    | newtype _ _ _ hinner =>
      have hbelow := ih hinner
      exact hbelow
  | _ =>
    have hcorresponds := hR.corresponds hst
    cases hcorresponds <;> exact hst

theorem underlying {g h : Graph} (hR : g.IsRenaming h R) (hst : R s t) :
    R s.underlying t.underlying := by
  induction s generalizing t with
  | newtype label name inner ih =>
    cases hR.corresponds hst with
    | newtype _ _ _ hinner =>
      have hbelow := ih hinner
      exact hbelow
  | _ =>
    have hcorresponds := hR.corresponds hst
    cases hcorresponds <;> exact hst

theorem applyBounds_eq (hR : a.graph.IsRenaming b.graph R) (hst : R s t) (c : Constraints)
    (doc : Document) : a.applyBounds s c doc = b.applyBounds t c doc := by
  have hbelow := hR.unwrapped hst
  have hname := hR.describe hbelow
  have hcorresponds := hR.corresponds hbelow
  unfold Context.applyBounds
  generalize s.unwrapped = x at hname hcorresponds
  generalize t.unwrapped = y at hname hcorresponds
  cases hcorresponds <;> first | rfl | simp only [hname]

theorem isObjectPayload_eq (hR : a.graph.IsRenaming b.graph R) (hst : R s t) :
    a.isObjectPayload s = b.isObjectPayload t := by
  have hcorresponds := hR.corresponds (hR.underlying hst)
  unfold Context.isObjectPayload
  generalize s.underlying = x at hcorresponds
  generalize t.underlying = y at hcorresponds
  cases hcorresponds with
  | declared hleft hright htype => cases htype <;> simp only [hleft, hright]
  | dangling hleft hright => simp only [hleft, hright]
  | _ => rfl

theorem cutSchema_eq (hR : a.graph.IsRenaming b.graph R) (hst : R s t) :
    a.cutSchema s = b.cutSchema t := by
  cases hR.corresponds hst with
  | declared hleft hright htype =>
    cases htype <;> simp only [Context.cutSchema, Context.placeholder, hleft, hright]
  | dangling hleft hright => simp only [Context.cutSchema, Context.placeholder, hleft, hright]
  | _ => rfl

/-- One level over renamed nodes gives the same if the derivations of the parts do. -/
theorem level_eq (hR : a.graph.IsRenaming b.graph R) (hstrict : a.strict = b.strict)
    {left right : Shape → Location → Except SchemaError Document} (hst : R s t)
    (hparts : ∀ steps part, (steps, part) ∈ a.graph.parts s → ∀ image, R part image →
      ∀ place, left part place = right image place) (place : Location) :
    a.level left s place = b.level right t place := by
  let S : Shape → Shape → Prop := fun x y => R x y ∧ ∃ steps, (steps, x) ∈ a.graph.parts s
  have hrules : Coupling.sameOutcome.Respects a b S Eq Eq Eq :=
    Coupling.respects_eq _ hstrict (fun h => hR.isOptional_eq h.1)
      (fun h => hR.isObjectPayload_eq h.1) fun h => hR.applyBounds_eq h.1
  have hshape : Graph.Corresponds S a.graph b.graph s t :=
    (hR.corresponds hst).imp fun steps part hpart image himage => ⟨himage, steps, hpart⟩
  refine (hrules.level ?_ hshape rfl).eq
  rintro x y p _ ⟨hxy, steps, hpart⟩ rfl
  rw [hparts steps x hpart y hxy p]
  exact .refl _

/-- Renamed nodes have the same schemas while the nodes being expanded are renamed ones too. -/
theorem plain_eq (hR : a.graph.IsRenaming b.graph R) (hstrict : a.strict = b.strict)
    (active : List Shape) (s : Shape) :
    ∀ other t, (∀ u v, R u v → u.isNominal → (u ∈ active ↔ v ∈ other)) → R s t →
      ∀ place, a.walk Policy.plain active s place = b.walk Policy.plain other t place := by
  induction active, s using a.graph.expansion_induction with
  | pass active s hs ih =>
    intro other t hactive hst place
    have ht : t.isNominal = false := hR.isNominal_eq hst ▸ hs
    rw [a.walk_of_not_nominal Policy.plain active place hs,
      b.walk_of_not_nominal Policy.plain other place ht]
    exact hR.level_eq hstrict hst (fun steps part hpart image himage =>
      ih steps part hpart other image hactive himage) place
  | cut active s hs hmem =>
    intro other t hactive hst place
    have ht : t.isNominal := hR.isNominal_eq hst ▸ hs
    have hmem' := (hactive s t hst hs).mp hmem
    rw [a.plain_of_mem place hs hmem, b.plain_of_mem place ht hmem', hR.cutSchema_eq hst]
  | expand active s hs hmem ih =>
    intro other t hactive hst place
    have ht : t.isNominal := hR.isNominal_eq hst ▸ hs
    have hmem' := fun h => hmem ((hactive s t hst hs).mpr h)
    have hopened : ∀ u v, R u v → u.isNominal → (u ∈ s :: active ↔ v ∈ t :: other) := by
      intro u v huv hu
      rw [List.mem_cons, List.mem_cons, hR.same huv hst hu hs, hactive u v huv hu]
    rw [a.plain_of_not_mem place hs hmem, b.plain_of_not_mem place ht hmem']
    exact hR.level_eq hstrict hst (fun steps part hpart image himage =>
      ih steps part hpart (t :: other) image hopened himage) place

/-- Renamed roots have the same schemas, or fail alike. -/
theorem derive?_eq (hR : a.graph.IsRenaming b.graph R) (hstrict : a.strict = b.strict) (hst : R s t)
    (c : Constraints) : a.derive? s c = b.derive? t c := by
  have hrules : Coupling.sameOutcome.Respects a b R Eq Eq Eq :=
    Coupling.respects_eq _ hstrict hR.isOptional_eq hR.isObjectPayload_eq hR.applyBounds_eq
  unfold Context.derive? Context.root
  rw [hR.describe hst]
  refine (hrules.constrained (fun p q hat => ?_) hst c rfl).eq
  obtain rfl : p = q := hat
  rw [hR.plain_eq hstrict [] s [] t (by simp) hst p]
  exact .refl _

end Graph.IsRenaming

/-- Graphs that declare the same types as far as shapes reach rename no node. -/
theorem Graph.isRenaming_of_agree {g h : Graph} {P : Shape → Prop}
    (hP : ∀ shape, P shape → ∀ steps part, (steps, part) ∈ g.parts shape → P part)
    (hsame : ∀ index, P (.declared index) → g.declaration? index = h.declaration? index) :
    g.IsRenaming h fun s t => s = t ∧ P s where
  corresponds := by
    rintro s _ ⟨rfl, hs⟩
    exact Graph.corresponds_self s (fun index hindex => hsame index (hindex ▸ hs))
      fun steps part hpart => ⟨rfl, hP s hs steps part hpart⟩
  describe := by
    rintro s _ ⟨rfl, hs⟩
    cases s with
    | declared index => simp only [Graph.describe, hsame index hs]
    | _ => rfl
  same := by
    rintro s _ u _ ⟨rfl, _⟩ ⟨rfl, _⟩ _ _
    exact Iff.rfl

/-- Two contexts that agree on all that a shape reaches derive the same for it. -/
theorem Context.plain_eq_of_agree {a b : Context} {P : Shape → Prop} (hstrict : a.strict = b.strict)
    (hP : ∀ shape, P shape → ∀ steps part, (steps, part) ∈ a.graph.parts shape → P part)
    (hsame : ∀ index, P (.declared index) →
      a.graph.declaration? index = b.graph.declaration? index)
    (active : List Shape) (shape : Shape) (hshape : P shape) (place : Location) :
    a.walk Policy.plain active shape place = b.walk Policy.plain active shape place := by
  -- no node is another one, so the nodes being expanded are the same too
  have hrenaming := Graph.isRenaming_of_agree hP hsame
  refine hrenaming.plain_eq hstrict active shape active shape ?_ ⟨rfl, hshape⟩ place
  rintro u _ ⟨rfl, _⟩ _
  exact Iff.rfl

/-- A graph with other labels derives the same. -/
theorem Graph.derive?_of_declarations {graph other : Graph} {strict : Bool}
    (hsame : graph.declarations = other.declarations) (shape : Shape) (c : Constraints) :
    Context.derive? ⟨graph, strict⟩ shape c = Context.derive? ⟨other, strict⟩ shape c := by
  have hrenaming : graph.IsRenaming other fun s t => s = t ∧ True :=
    Graph.isRenaming_of_agree (fun _ _ _ _ _ => trivial) fun index _ => by
      rw [Graph.declaration?, Graph.declaration?, hsame]
  exact Graph.IsRenaming.derive?_eq (a := ⟨graph, strict⟩) (b := ⟨other, strict⟩) hrenaming rfl
    ⟨rfl, trivial⟩ c

end ShapeSchema
