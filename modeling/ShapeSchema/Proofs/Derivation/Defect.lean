import ShapeSchema.Constraints

/-!
What a step of a derivation ends with: a result of some kind, or a defect of the description. A type
specification that null cannot join would be a defect of a derived schema.
-/

namespace ShapeSchema

/-- Whether a defect is one of the description, and not a type specification that null cannot
join. -/
def Defect.IsOrdinary : Defect → Prop
  | invalidType _ => False
  | _ => True

def Yields {α : Type} (P : α → Prop) : Except Defect α → Prop
  | .ok a => P a
  | .error defect => defect.IsOrdinary

theorem Yields.isOrdinary {α : Type} {P : α → Prop} {x : Except Defect α} {defect : Defect}
    (h : Yields P x) (hx : x = .error defect) : defect.IsOrdinary := by
  rw [hx] at h
  exact h

theorem Yields.eq_ok {α : Type} {P : α → Prop} {x : Except Defect α} (h : Yields P x) :
    Yields (fun a => x = .ok a) x := by
  cases x with
  | ok a => rfl
  | error defect => exact h

theorem Yields.bind {α β : Type} {P : α → Prop} {Q : β → Prop} {x : Except Defect α}
    {f : α → Except Defect β} (hx : Yields P x) (hf : ∀ a, P a → Yields Q (f a)) :
    Yields Q (x >>= f) := by
  cases x with
  | ok a => exact hf a hx
  | error defect => exact hx

theorem Yields.guarded {α : Type} {Q : α → Prop} {P : Prop} [Decidable P] (defect : Defect)
    {x : Except Defect α} (hdefect : defect.IsOrdinary) (hx : ¬ P → Yields Q x) :
    Yields Q (if P then (do throw defect; x) else x) := by
  split
  · exact hdefect
  · next hP => exact hx hP

theorem Yields.mapM {α β : Type} {P : β → Prop} {xs : List α} {f : α → Except Defect β}
    (hf : ∀ x ∈ xs, Yields P (f x)) :
    Yields (fun ys => ys.length = xs.length ∧ ∀ y ∈ ys, P y) (xs.mapM f) := by
  induction xs with
  | nil => exact ⟨rfl, by simp⟩
  | cons x xs ih =>
    obtain ⟨hx, hxs⟩ := List.forall_mem_cons.mp hf
    rw [List.mapM_cons]
    refine hx.bind fun y hy => (ih hxs).bind ?_
    rintro ys ⟨hlength, hys⟩
    exact ⟨congrArg Nat.succ hlength, List.forall_mem_cons.mpr ⟨hy, hys⟩⟩

theorem Constraints.yields_checkBound (bound : String × Option Json) :
    Yields (fun _ => True) (Constraints.checkBound bound) := by
  unfold checkBound
  split
  · trivial
  · split
    · trivial
    · trivial
  · trivial

theorem Yields.forM {α : Type} {xs : List α} {f : α → Except Defect Unit}
    (hf : ∀ x ∈ xs, Yields (fun _ => True) (f x)) : Yields (fun _ => True) (xs.forM f) := by
  induction xs with
  | nil => trivial
  | cons x xs ih =>
    obtain ⟨hx, hxs⟩ := List.forall_mem_cons.mp hf
    exact hx.bind fun _ _ => ih hxs

theorem Constraints.yields_checkRename (rename : Option String) :
    Yields (fun _ : Unit => True) (match rename with
      | some key => if key.toList.all Unicode.isBlank then throw Defect.emptyRename else pure ()
      | _ => pure ()) := by
  split
  · split
    · trivial
    · trivial
  · trivial

/-- Constraints that do not fit together are an ordinary defect. -/
theorem Constraints.yields_check (c : Constraints) : Yields (fun _ => True) c.check := by
  unfold check
  refine .guarded .twoLowerBounds trivial fun _ => .guarded .twoUpperBounds trivial fun _ => ?_
  refine .bind (.forM fun bound _ => yields_checkBound bound) fun _ _ => ?_
  dsimp only
  have hrename := yields_checkRename c.rename
  split
  · next lower upper _ =>
    exact .guarded (.emptyRange lower.value upper.value) trivial fun _ => hrename
  · exact hrename

end ShapeSchema
