import ShapeSchema.Json

/-!
Looking up keys after a change: what a document says under a key once another key is set or dropped.
-/

namespace ShapeSchema

theorem lookup_filter {α β : Type} [BEq α] [LawfulBEq α] (entries : List (α × β)) (p : α → Bool)
    (sought : α) :
    (entries.filter (p ·.1)).lookup sought = if p sought then entries.lookup sought else none := by
  induction entries with
  | nil => simp
  | cons head rest ih =>
    obtain ⟨key, entry⟩ := head
    cases hkey : sought == key with
    | true =>
      cases eq_of_beq hkey
      cases hp : p sought <;> simp [hp, ih]
    | false => cases hp : p key <;> simp [hp, List.lookup_cons, hkey, ih]

theorem mem_of_lookup {α β : Type} [BEq α] [LawfulBEq α] {entries : List (α × β)} {key : α}
    {entry : β} (hfound : entries.lookup key = some entry) : (key, entry) ∈ entries := by
  obtain ⟨before, after, hentries, _⟩ := List.lookup_eq_some_iff.mp hfound
  rw [hentries]
  exact List.mem_append_right before List.mem_cons_self

/-- Where no key is listed twice, looking one up finds the entry that has it. -/
theorem mem_iff_lookup {α β : Type} [BEq α] [LawfulBEq α] {entries : List (α × β)}
    (hnodup : (entries.map Prod.fst).Nodup) {key : α} {entry : β} :
    (key, entry) ∈ entries ↔ entries.lookup key = some entry := by
  refine ⟨fun hmem => ?_, mem_of_lookup⟩
  induction entries with
  | nil => cases hmem
  | cons head rest ih =>
    obtain ⟨k, given⟩ := head
    obtain ⟨hfresh, hrest⟩ := List.nodup_cons.mp hnodup
    rw [List.lookup_cons]
    rcases List.mem_cons.mp hmem with heq | hmem
    · cases heq
      rw [BEq.rfl]
    · have hne : (key == k) = false := by
        refine beq_eq_false_iff_ne.mpr fun heq => hfresh ?_
        exact List.mem_map.mpr ⟨_, hmem, heq⟩
      rw [hne]
      exact ih hrest hmem

namespace Document

@[simp]
theorem get?_nil (key : String) : get? key [] = none := rfl

theorem get?_cons (key k : String) (value : Json) (rest : Document) :
    get? key ((k, value) :: rest) = if key = k then some value else get? key rest := by
  simp only [get?, List.lookup_cons]
  by_cases h : key = k
  · simp [h]
  · rw [if_neg h, beq_eq_false_iff_ne.mpr h]

theorem get?_append (key : String) (doc more : Document) :
    get? key (doc ++ more) = (get? key doc).or (get? key more) :=
  List.lookup_append

theorem mem_of_get? {key : String} {value : Json} {doc : Document}
    (hfound : doc.get? key = some value) : (key, value) ∈ doc :=
  mem_of_lookup hfound

theorem get?_of_mem {key : String} {value : Json} {doc : Document} (hnodup : doc.keys.Nodup)
    (hmem : (key, value) ∈ doc) : doc.get? key = some value :=
  (mem_iff_lookup hnodup).mp hmem

theorem has_iff {key : String} {doc : Document} :
    doc.has key ↔ ∃ value, doc.get? key = some value := by
  induction doc with
  | nil => simp [has]
  | cons head rest ih =>
    rw [get?_cons]
    by_cases h : key = head.1
    · simp [has, h]
    · have hne : (head.1 == key) = false := by simpa using fun heq : head.1 = key => h heq.symm
      simpa [has, h, hne] using ih

theorem has_eq_mem {key : String} {doc : Document} : doc.has key ↔ key ∈ doc.keys := by
  simp [has, keys]

theorem get?_eq_none {key : String} {doc : Document} (habsent : key ∉ doc.keys) :
    doc.get? key = none := by
  cases hfound : doc.get? key with
  | none => rfl
  | some value => exact absurd (has_eq_mem.mp (has_iff.mpr ⟨value, hfound⟩)) habsent

theorem get?_put (key k : String) (value : Json) (doc : Document) :
    (doc.put k value).get? key = if key = k then some value else doc.get? key := by
  induction doc with
  | nil => simp [put, get?_cons]
  | cons head rest ih =>
    unfold put
    split
    · next h =>
      rw [get?_cons, get?_cons, h]
      by_cases hkey : key = k
      · rw [if_pos hkey, if_pos hkey]
      · rw [if_neg hkey, if_neg hkey, if_neg hkey]
    · next h =>
      rw [get?_cons, get?_cons, ih]
      by_cases hkey : key = k
      · rw [if_neg fun heq : key = head.1 => h (heq ▸ hkey), if_pos hkey, if_pos hkey]
      · rw [if_neg hkey, if_neg hkey]

theorem get?_put_of_ne {key k : String} (hne : key ≠ k) (value : Json) (doc : Document) :
    (doc.put k value).get? key = doc.get? key := by
  rw [get?_put, if_neg hne]

/-- What is found after a member was set is that member, or was there before. -/
theorem of_get?_put {key k : String} {value other : Json} {doc : Document}
    (hfound : (doc.put k value).get? key = some other) :
    key = k ∧ other = value ∨ doc.get? key = some other := by
  rw [get?_put] at hfound
  split at hfound
  · next heq =>
    cases hfound
    exact .inl ⟨heq, rfl⟩
  · exact .inr hfound

theorem mem_keys_put {key k : String} {value : Json} {doc : Document} :
    key ∈ (doc.put k value).keys ↔ key = k ∨ key ∈ doc.keys := by
  rw [← has_eq_mem, ← has_eq_mem, has_iff, has_iff, get?_put]
  by_cases h : key = k <;> simp [h]

theorem nodup_keys_put {doc : Document} (hnodup : doc.keys.Nodup) (k : String) (value : Json) :
    (doc.put k value).keys.Nodup := by
  induction doc with
  | nil => simp [put, keys]
  | cons head rest ih =>
    obtain ⟨hfresh, hrest⟩ := List.nodup_cons.mp hnodup
    unfold put
    split
    · next h => exact List.nodup_cons.mpr ⟨h ▸ hfresh, hrest⟩
    · next h =>
      refine List.nodup_cons.mpr ⟨fun hmem => ?_, ih hrest⟩
      rcases mem_keys_put.mp hmem with heq | hmem
      · exact h heq
      · exact hfresh hmem

theorem get?_remove (key k : String) (doc : Document) :
    (doc.remove k).get? key = if key = k then none else doc.get? key := by
  have h := lookup_filter doc (· != k) key
  by_cases hkey : key = k <;> simpa [remove, get?, hkey] using h

theorem nodup_keys_remove {doc : Document} (hnodup : doc.keys.Nodup) (k : String) :
    (doc.remove k).keys.Nodup :=
  List.Nodup.sublist (List.filter_sublist.map Prod.fst) hnodup

theorem get?_update (key : String) (doc : Document) {changes : Document}
    (hnodup : changes.keys.Nodup) :
    (doc.update changes).get? key = (changes.get? key).or (doc.get? key) := by
  induction changes generalizing doc with
  | nil => simp [update]
  | cons head rest ih =>
    obtain ⟨hfresh, hrest⟩ := List.nodup_cons.mp hnodup
    change ((doc.put head.1 head.2).update rest).get? key = _
    rw [ih _ hrest, get?_put, get?_cons]
    by_cases hkey : key = head.1
    · have hnone : Document.get? key rest = none := get?_eq_none (hkey ▸ hfresh)
      rw [hnone, if_pos hkey, if_pos hkey]
      rfl
    · rw [if_neg hkey, if_neg hkey]

theorem nodup_keys_update {doc : Document} (hnodup : doc.keys.Nodup) (changes : Document) :
    (doc.update changes).keys.Nodup := by
  induction changes generalizing doc with
  | nil => exact hnodup
  | cons head rest ih => exact ih (nodup_keys_put hnodup head.1 head.2)

/-- A key that is not there is set behind the others. -/
theorem put_of_notMem {key : String} {doc : Document} (habsent : key ∉ doc.keys) (value : Json) :
    doc.put key value = doc ++ [(key, value)] := by
  induction doc with
  | nil => rfl
  | cons head rest ih =>
    obtain ⟨hne, hrest⟩ := not_or.mp (mt List.mem_cons.mpr habsent)
    rw [put, if_neg (Ne.symm hne), ih hrest, List.cons_append]

theorem update_of_nodup {doc changes : Document} (hnodup : (doc ++ changes).keys.Nodup) :
    doc.update changes = doc ++ changes := by
  induction changes generalizing doc with
  | nil => exact (List.append_nil doc).symm
  | cons member changes ih =>
    have hfresh : member.1 ∉ doc.keys := by
      rw [keys, List.map_append, List.map_cons] at hnodup
      exact fun hmem => (List.nodup_append.mp hnodup).2.2 _ hmem _ List.mem_cons_self rfl
    have hnext : doc.put member.1 member.2 = doc ++ [member] := put_of_notMem hfresh member.2
    rw [update, List.foldl_cons, hnext, ← update, ih (by simpa using hnodup), List.append_assoc,
      List.singleton_append]

end Document
end ShapeSchema
