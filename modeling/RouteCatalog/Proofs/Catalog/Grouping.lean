import RouteCatalog.Proofs.Catalog.StableSort

/-!
# Grouping by controller

`IsGrouping records groups` says what it is to group records: the controllers ascend, they are
those of the records, and the group of a controller holds its records in their order. Adding one
record changes the groups in one place (`ControllerGroup.exists_insert_eq`), and so
`ControllerGroup.ofRecords` groups any records (`isGrouping_ofRecords`), sorted or not. The groups
of records that are sorted by controller give the records back (`IsGrouping.flatMap_records`).
-/

namespace RouteCatalog

variable {R : Type} [Record R]

/-- The controller of a record, empty for none. -/
def Record.controllerKey (record : R) : String :=
  (Record.declaration record).controllerKey

/-- The groups of records by controller, in ascending order. -/
structure IsGrouping (records : List R) (groups : List (ControllerGroup R)) : Prop where
  ascending : (groups.map ControllerGroup.controller).Pairwise fun a b => compare a b = .lt
  mem_controllers_iff : ∀ controller, controller ∈ groups.map ControllerGroup.controller ↔
    controller ∈ records.map Record.controllerKey
  records_eq : ∀ group ∈ groups,
    group.records = records.filter fun record => Record.controllerKey record == group.controller

namespace ControllerGroup

/-- Adding a record extends the group of its controller, or makes that group where it belongs. -/
theorem exists_insert_eq {groups : List (ControllerGroup R)}
    (hascending : (groups.map controller).Pairwise fun a b => compare a b = .lt) (record : R) :
    ∃ front held back, groups = front ++ held ++ back ∧
      insert groups record =
        front ++ ⟨Record.controllerKey record, held.flatMap records ++ [record]⟩ :: back ∧
      (∀ group ∈ front, compare group.controller (Record.controllerKey record) = .lt) ∧
      (∀ group ∈ held, group.controller = Record.controllerKey record) ∧ held.length ≤ 1 ∧
      ∀ group ∈ back, compare (Record.controllerKey record) group.controller = .lt := by
  induction groups with
  | nil => exact ⟨[], [], [], rfl, rfl, by simp⟩
  | cons group groups ih =>
    obtain ⟨hhead, htail⟩ := List.pairwise_cons.1 hascending
    have hbeyond : ∀ other ∈ groups, compare group.controller other.controller = .lt :=
      fun other hother => hhead _ (List.mem_map_of_mem hother)
    unfold insert
    cases hcompare : compare (Record.controllerKey record) group.controller with
    | lt =>
      refine ⟨[], [], group :: groups, rfl, ?_, by simp, by simp, by simp, ?_⟩
      · simp only [Record.controllerKey] at hcompare
        simp [hcompare, Record.controllerKey]
      · intro other hother
        rcases List.mem_cons.1 hother with rfl | hother
        · exact hcompare
        · exact Std.TransCmp.lt_trans hcompare (hbeyond other hother)
    | eq =>
      have hkey : Record.controllerKey record = group.controller :=
        Std.LawfulEqOrd.eq_of_compare hcompare
      refine ⟨[], [group], groups, rfl, ?_, by simp, by simp [hkey], by simp, ?_⟩
      · simp only [Record.controllerKey] at hcompare hkey
        simp [Record.controllerKey, hkey]
      · intro other hother
        rw [hkey]
        exact hbeyond other hother
    | gt =>
      obtain ⟨front, held, back, hgroups, hinsert, hfront, hheld, hlength, hback⟩ := ih htail
      refine ⟨group :: front, held, back, by simp [hgroups], ?_, ?_, hheld, hlength, hback⟩
      · simp only [Record.controllerKey] at hcompare
        simp [hcompare, hinsert]
      · intro other hother
        rcases List.mem_cons.1 hother with rfl | hother
        · exact Std.OrientedCmp.lt_of_gt hcompare
        · exact hfront other hother

end ControllerGroup

namespace IsGrouping

variable {records : List R} {groups : List (ControllerGroup R)}

theorem records_ne_nil (hgrouping : IsGrouping records groups) {group : ControllerGroup R}
    (hgroup : group ∈ groups) : group.records ≠ [] := by
  obtain ⟨record, hrecord, hkey⟩ := List.mem_map.1
    ((hgrouping.mem_controllers_iff _).1 (List.mem_map_of_mem hgroup))
  rw [hgrouping.records_eq group hgroup]
  exact List.ne_nil_of_mem (List.mem_filter.2 ⟨hrecord, by simpa using hkey⟩)

-- If there is no group of the key yet, no record has it.
theorem flatMap_held (hgrouping : IsGrouping records groups)
    {front held back : List (ControllerGroup R)} {key : String}
    (hgroups : groups = front ++ held ++ back)
    (hfront : ∀ group ∈ front, compare group.controller key = .lt)
    (hheld : ∀ group ∈ held, group.controller = key) (hlength : held.length ≤ 1)
    (hback : ∀ group ∈ back, compare key group.controller = .lt) :
    held.flatMap ControllerGroup.records =
      records.filter fun record => Record.controllerKey record == key := by
  match held, hlength with
  | [], _ =>
    rw [List.flatMap_nil, eq_comm, List.filter_eq_nil_iff]
    intro record hrecord hkey
    obtain ⟨group, hgroup, hcontroller⟩ := List.mem_map.1
      ((hgrouping.mem_controllers_iff key).2 (List.mem_map.2 ⟨record, hrecord, by simpa using hkey⟩))
    rw [hgroups, List.append_nil] at hgroup
    rcases List.mem_append.1 hgroup with hgroup | hgroup
    · exact ne_of_compare_lt (hfront group hgroup) hcontroller
    · exact ne_of_compare_lt (hback group hgroup) hcontroller.symm
  | [group], _ =>
    have hgroup : group ∈ groups := by simp [hgroups]
    rw [List.flatMap_singleton, hgrouping.records_eq group hgroup,
      hheld group (List.mem_singleton_self group)]

theorem insert (hgrouping : IsGrouping records groups) (record : R) :
    IsGrouping (records ++ [record]) (ControllerGroup.insert groups record) := by
  obtain ⟨front, held, back, hgroups, hinsert, hfront, hheld, hlength, hback⟩ :=
    ControllerGroup.exists_insert_eq hgrouping.ascending record
  have hrecords := hgrouping.flatMap_held hgroups hfront hheld hlength hback
  have hkept : (front ++ back).Sublist groups := by
    rw [hgroups, List.append_assoc]
    exact (List.sublist_append_right held back).append_left front
  rw [hinsert]
  refine ⟨?_, fun controller => ?_, fun group hgroup => ?_⟩
  · have hascending := hgrouping.ascending.sublist (hkept.map ControllerGroup.controller)
    rw [List.map_append, List.pairwise_append] at hascending
    rw [List.map_append, List.map_cons, List.pairwise_append, List.pairwise_cons]
    obtain ⟨hfronts, hbacks, hacross⟩ := hascending
    have hbelow : ∀ a ∈ front.map ControllerGroup.controller,
        compare a (Record.controllerKey record) = .lt := List.forall_mem_map.2 hfront
    refine ⟨hfronts, ⟨List.forall_mem_map.2 hback, hbacks⟩, fun a ha b hb => ?_⟩
    rcases List.mem_cons.1 hb with rfl | hb
    · exact hbelow a ha
    · exact hacross a ha b hb
  · have hbefore := hgrouping.mem_controllers_iff controller
    have hkey : ∀ other ∈ held.map ControllerGroup.controller,
        other = Record.controllerKey record := List.forall_mem_map.2 hheld
    specialize hkey controller
    simp only [hgroups, List.map_append, List.mem_append, List.map_cons, List.mem_cons,
      List.map_nil, List.not_mem_nil, or_false] at hbefore ⊢
    tauto
  · have hgroup : group ∈ front ++ back ∨ group.controller = Record.controllerKey record ∧
        group.records = held.flatMap ControllerGroup.records ++ [record] := by
      simp only [List.mem_append, List.mem_cons] at hgroup ⊢
      rcases hgroup with hgroup | rfl | hgroup
      · exact .inl (.inl hgroup)
      · exact .inr ⟨rfl, rfl⟩
      · exact .inl (.inr hgroup)
    rw [List.filter_append]
    rcases hgroup with hgroup | ⟨hkey, hgroup⟩
    · have hother : Record.controllerKey record ≠ group.controller := by
        rcases List.mem_append.1 hgroup with hgroup | hgroup
        · exact (ne_of_compare_lt (hfront group hgroup)).symm
        · exact ne_of_compare_lt (hback group hgroup)
      rw [hgrouping.records_eq group (hkept.subset hgroup), List.filter_singleton,
        beq_false_of_ne hother, cond_false, List.append_nil]
    · rw [hgroup, hrecords, hkey, List.filter_singleton, beq_self_eq_true, cond_true]

theorem foldl_insert (hgrouping : IsGrouping records groups) (added : List R) :
    IsGrouping (records ++ added) (added.foldl ControllerGroup.insert groups) := by
  induction added generalizing records groups with
  | nil => rwa [List.append_nil]
  | cons record added ih =>
    rw [List.append_cons]
    exact ih (hgrouping.insert record)

theorem flatMap_records (hgrouping : IsGrouping records groups)
    (hsorted : records.Pairwise fun a b =>
      (compare (Record.controllerKey a) (Record.controllerKey b)).isLE = true) :
    groups.flatMap ControllerGroup.records = records := by
  have hpieces := flatMap_filter_of_sorted hsorted hgrouping.ascending fun record hrecord =>
    (hgrouping.mem_controllers_iff _).2 (List.mem_map_of_mem hrecord)
  rw [List.flatMap_map] at hpieces
  exact (List.flatMap_congr hgrouping.records_eq).trans hpieces

end IsGrouping

/-- **Any records are grouped**, in whatever order they come. -/
theorem isGrouping_ofRecords (records : List R) :
    IsGrouping records (ControllerGroup.ofRecords records) := by
  have hempty : IsGrouping ([] : List R) [] := ⟨List.Pairwise.nil, fun _ => Iff.rfl, by simp⟩
  exact hempty.foldl_insert records

end RouteCatalog
