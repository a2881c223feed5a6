import PhasedInduction.Proofs.WrittenData

/-!
# Objects sorted by name

Data may be printed with the members of every object in the order of their names.  Sorting moves
members and does nothing else: a name leads to the value that it led to before, with the objects in
it sorted as well, and plain data stays plain.  So a reader that asks for members by name does not
see whether data was sorted.

Main results:

- Theorem {lit}`Json.lookup_sortedMembers`: a name leads to the same value as before.
- Theorem {lit}`Json.isPlain_sorted`: plain data stays plain.
- Theorem {lit}`PassList.ofJson?_sorted_toJson`: sorted passes are read as the passes.
-/

namespace PhasedInduction

namespace Json

/-! ## Members that move -/

/-- A member is put among the others, and no other one is lost. -/
theorem insertSorted_perm (name : String) (value : Json) (members : Members) :
    (insertSorted name value members).Perm ((name, value) :: members) := by
  induction members with
  | nil => exact List.Perm.refl _
  | cons member members ih =>
    obtain ⟨other, content⟩ := member
    unfold insertSorted
    split
    · exact List.Perm.refl _
    · exact (ih.cons (other, content)).trans (List.Perm.swap _ _ _)

/-- The sorted members are those from before with their values sorted. -/
theorem sortedMembers_perm (members : Members) :
    (sortedMembers members).Perm (members.map fun member => (member.1, member.2.sorted)) := by
  induction members with
  | nil => exact List.Perm.refl _
  | cons member members ih => exact (insertSorted_perm _ _ _).trans (ih.cons _)

/-- The names stay the same. -/
theorem map_fst_sortedMembers_perm (members : Members) :
    ((sortedMembers members).map Prod.fst).Perm (members.map Prod.fst) := by
  have hperm := (sortedMembers_perm members).map Prod.fst
  rwa [List.map_map] at hperm

/-- A new name leads to its value wherever the member is put, and the other names to theirs. -/
theorem lookup_insertSorted {name : String} {members : Members}
    (h : name ∉ members.map Prod.fst) (value : Json) (key : String) :
    (insertSorted name value members).lookup key = ((name, value) :: members).lookup key := by
  induction members with
  | nil => rfl
  | cons member members ih =>
    obtain ⟨other, content⟩ := member
    obtain ⟨hother, hrest⟩ := List.ne_and_not_mem_of_not_mem_cons h
    unfold insertSorted
    split
    · rfl
    · by_cases hkey : key = other
      · subst hkey
        rw [List.lookup_cons_self, lookup_cons_of_ne (Ne.symm hother), List.lookup_cons_self]
      · rw [lookup_cons_of_ne hkey, ih hrest, Rows.lookup_cons, Rows.lookup_cons,
          lookup_cons_of_ne hkey]

/-- A name leads to the value that it led to before, sorted. -/
theorem lookup_sortedMembers {members : Members} (h : (members.map Prod.fst).Nodup)
    (key : String) : (sortedMembers members).lookup key = (members.lookup key).map sorted := by
  induction members with
  | nil => rfl
  | cons member members ih =>
    obtain ⟨name, value⟩ := member
    obtain ⟨hname, hrest⟩ := List.nodup_cons.mp h
    have hnew : name ∉ (sortedMembers members).map Prod.fst := fun hmem =>
      hname ((map_fst_sortedMembers_perm members).mem_iff.mp hmem)
    rw [sortedMembers, lookup_insertSorted hnew]
    by_cases hkey : key = name
    · subst hkey
      rw [List.lookup_cons_self, List.lookup_cons_self, Option.map_some]
    · rw [lookup_cons_of_ne hkey, lookup_cons_of_ne hkey, ih hrest]

/-! ## Values that stay -/

/-- The items of an array stay in their places. -/
theorem sortedItems_eq_map (items : List Json) : sortedItems items = items.map sorted := by
  induction items with
  | nil => rfl
  | cons item items ih => exact congrArg (List.cons _) ih

theorem sorted_array (items : List Json) : (array items).sorted = array (items.map sorted) := by
  rw [sorted, sortedItems_eq_map]

@[simp]
theorem sorted_ofStrings (texts : List String) : (ofStrings texts).sorted = ofStrings texts := by
  rw [ofStrings, sorted_array, List.map_map]
  rfl

mutual

/-- Plain data stays plain. -/
theorem isPlain_sorted {j : Json} (h : j.IsPlain) : j.sorted.IsPlain := by
  match j, h with
  | null, h => exact h
  | bool _, h => exact h
  | integer _, h => exact h
  | string _, h => exact h
  | array items, h => exact arePlainItems_sortedItems h
  | object members, h =>
    refine ⟨?_, arePlainMembers_sortedMembers h.2⟩
    exact (map_fst_sortedMembers_perm members).nodup_iff.mpr h.1

/-- Plain items stay plain. -/
theorem arePlainItems_sortedItems {items : List Json} (h : ArePlainItems items) :
    ArePlainItems (sortedItems items) := by
  match items, h with
  | [], _ => trivial
  | _ :: _, h => exact ⟨isPlain_sorted h.1, arePlainItems_sortedItems h.2⟩

/-- The values of members stay plain. -/
theorem arePlainMembers_sortedMembers {members : List (String × Json)}
    (h : ArePlainMembers members) : ArePlainMembers (sortedMembers members) := by
  match members, h with
  | [], _ => trivial
  | (name, value) :: members, h =>
    have hall := arePlainMembers_iff.mp (arePlainMembers_sortedMembers h.2)
    refine arePlainMembers_iff.mpr fun member hmember => ?_
    rcases List.mem_cons.mp ((insertSorted_perm _ _ _).mem_iff.mp hmember) with rfl | hrest
    · exact isPlain_sorted h.1
    · exact hall member hrest

end

end Json

/-! ## Sorted properties and passes -/

/-- A sorted property is read as the property. -/
theorem Property.ofJson?_sorted_toJson (p : Property) : ofJson? p.toJson.sorted = some p := by
  have hread := Json.mapM_map_of_inverse PropertyKind.ofJson?_toJson p.kinds
  have hkinds : (p.kinds.map PropertyKind.toJson).map Json.sorted =
      p.kinds.map PropertyKind.toJson := by
    rw [List.map_map]
    rfl
  simp [ofJson?, toJson, Json.sorted, Json.required, Json.lookup_sortedMembers,
    Json.sortedItems_eq_map, hkinds, hread]

/-- A sorted pass is read as the pass. -/
theorem Pass.ofJson?_sorted_toJson (p : Pass) : ofJson? p.toJson.sorted = some p := by
  unfold toJson
  split
  · next h =>
    obtain ⟨name, params⟩ := p
    obtain rfl := List.isEmpty_iff.mp h
    rfl
  · simp [ofJson?, Json.sorted, Json.required, Json.withDefault, Json.lookup_sortedMembers]

/-- Sorted passes are read as the passes. -/
theorem PassList.ofJson?_sorted_toJson (l : PassList) : ofJson? l.toJson.sorted = some l := by
  have hread := Json.mapM_map_of_inverse Pass.ofJson?_sorted_toJson l.passes
  simp [ofJson?, toJson, Json.sorted_array, List.map_map, Function.comp_def, hread]

end PhasedInduction
