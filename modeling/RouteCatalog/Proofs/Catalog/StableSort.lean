import Mathlib.Data.List.Basic
import Mathlib.Data.List.Pairwise
import RouteCatalog.Catalog.Order

/-!
# Stable sorting by a comparison

`sortBy cmp` is the sort that the catalog uses for records and sections, and `IsStableSort` says
what a stable sort is. Sorting one more element puts it in front of the first that is not smaller
(`sortBy_split`), so sorting commutes with selecting (`filter_sortBy`), and the sort is stable; a
list has no other stable sort (`IsStableSort.eq_sortBy`). A list that is sorted by a key is made of
its pieces of each key, in ascending order of the keys (`flatMap_filter_of_sorted`).
-/

namespace RouteCatalog

open Std (TransCmp OrientedCmp ReflCmp)

variable {α : Type}

/-- The stable sort by a comparison. -/
def sortBy (cmp : α → α → Ordering) (l : List α) : List α :=
  l.mergeSort fun a b => (cmp a b).isLE

/-- A list in ascending order with the same elements, those that compare equal in their old order. -/
structure IsStableSort (cmp : α → α → Ordering) (l sorted : List α) : Prop where
  perm : sorted.Perm l
  ascending : sorted.Pairwise fun a b => (cmp a b).isLE = true
  stable : ∀ a, (sorted.filter fun b => cmp a b == .eq) = l.filter fun b => cmp a b == .eq

section Sorting

variable (cmp : α → α → Ordering)

theorem sortBy_perm (l : List α) : (sortBy cmp l).Perm l :=
  List.mergeSort_perm l _

theorem sortBy_ne_nil {l : List α} (hl : l ≠ []) : sortBy cmp l ≠ [] := by
  intro hnil
  have hperm := sortBy_perm cmp l
  rw [hnil] at hperm
  exact hl hperm.symm.eq_nil

variable [TransCmp cmp]

theorem isLE_total (a b : α) : ((cmp a b).isLE || (cmp b a).isLE) = true := by
  have hswap : cmp b a = (cmp a b).swap := OrientedCmp.eq_swap
  rw [hswap]
  cases cmp a b <;> rfl

theorem pairwise_sortBy (l : List α) :
    (sortBy cmp l).Pairwise fun a b => (cmp a b).isLE = true :=
  List.pairwise_mergeSort (fun _ _ _ => TransCmp.isLE_trans) (isLE_total cmp) l

/-- A sorted list falls apart at every element, and that is where one more element goes: in front
of the first that is not smaller. -/
theorem sortBy_split (a : α) (l : List α) :
    sortBy cmp l =
        (sortBy cmp l).filter (fun b => !(cmp a b).isLE) ++
          (sortBy cmp l).filter (fun b => (cmp a b).isLE) ∧
      sortBy cmp (a :: l) =
        (sortBy cmp l).filter (fun b => !(cmp a b).isLE) ++
          a :: (sortBy cmp l).filter fun b => (cmp a b).isLE := by
  obtain ⟨front, back, hcons, hsort, hfront⟩ :=
    List.mergeSort_cons (fun _ _ _ => TransCmp.isLE_trans) (isLE_total cmp) a l
  have hpairwise : (front ++ a :: back).Pairwise fun a b => (cmp a b).isLE = true :=
    hcons ▸ pairwise_sortBy cmp (a :: l)
  have hback : ∀ b ∈ back, (cmp a b).isLE = true :=
    (List.pairwise_cons.1 (List.pairwise_append.1 hpairwise).2.1).1
  have hsmaller : (sortBy cmp l).filter (fun b => !(cmp a b).isLE) = front := by
    have hnone : (back.filter fun b => !(cmp a b).isLE) = [] :=
      List.filter_eq_nil_iff.2 fun b hb => by rw [hback b hb]; decide
    rw [sortBy, hsort, List.filter_append, List.filter_eq_self.2 hfront, hnone, List.append_nil]
  have hlarger : ((sortBy cmp l).filter fun b => (cmp a b).isLE) = back := by
    have hnone : (front.filter fun b => (cmp a b).isLE) = [] :=
      List.filter_eq_nil_iff.2 fun b hb => by simpa using hfront b hb
    rw [sortBy, hsort, List.filter_append, List.filter_eq_self.2 hback, hnone, List.nil_append]
  rw [hsmaller, hlarger]
  exact ⟨hsort, hcons⟩

/-- Selecting from a sorted list is sorting what is selected. -/
theorem filter_sortBy (p : α → Bool) (l : List α) :
    (sortBy cmp l).filter p = sortBy cmp (l.filter p) := by
  induction l with
  | nil => simp [sortBy]
  | cons a l ih =>
    have hcomm : ∀ q : α → Bool, ((sortBy cmp l).filter q).filter p =
        (sortBy cmp (l.filter p)).filter q := by
      intro q
      rw [List.filter_comm, ih]
    rw [(sortBy_split cmp a l).2, List.filter_append, List.filter_cons, hcomm, hcomm]
    by_cases hp : p a = true
    · rw [if_pos hp, List.filter_cons_of_pos hp, (sortBy_split cmp a (l.filter p)).2]
    · rw [if_neg hp, List.filter_cons_of_neg hp]
      exact (sortBy_split cmp a (l.filter p)).1.symm

/-- The sort of the catalog is stable. -/
theorem sortBy_isStableSort (l : List α) : IsStableSort cmp l (sortBy cmp l) where
  perm := sortBy_perm cmp l
  ascending := pairwise_sortBy cmp l
  stable a := by
    rw [filter_sortBy]
    -- All that is selected compares equal, so it is in order as it stands.
    apply List.mergeSort_of_pairwise
    rw [List.pairwise_filter]
    refine List.pairwise_of_forall fun b c hb hc => ?_
    rw [beq_iff_eq] at hb hc
    rw [← TransCmp.congr_left hb, hc]
    rfl

end Sorting

/-! ### One stable sort

Two elements are in one place of an order if they compare equal. An ascending list is determined by
its elements of each place, in their order. -/

section Places

/-- Two lists hold the same elements of each place, in the same order. -/
def SamePlaces (cmp : α → α → Ordering) (l₁ l₂ : List α) : Prop :=
  ∀ a, (l₁.filter fun b => cmp a b == .eq) = l₂.filter fun b => cmp a b == .eq

variable {cmp : α → α → Ordering} {l₁ l₂ : List α}

theorem SamePlaces.symm (hplaces : SamePlaces cmp l₁ l₂) : SamePlaces cmp l₂ l₁ :=
  fun a => (hplaces a).symm

theorem SamePlaces.of_cons {a : α} (hplaces : SamePlaces cmp (a :: l₁) (a :: l₂)) :
    SamePlaces cmp l₁ l₂ := by
  intro b
  have hplace := hplaces b
  rw [List.filter_cons, List.filter_cons] at hplace
  split at hplace
  · exact List.tail_eq_of_cons_eq hplace
  · exact hplace

variable [TransCmp cmp]

theorem self_mem_place (a : α) : (cmp a a == .eq) = true :=
  beq_iff_eq.2 ReflCmp.compare_self

theorem SamePlaces.subset (hplaces : SamePlaces cmp l₁ l₂) : l₁ ⊆ l₂ := by
  intro a ha
  have hplace : a ∈ l₁.filter fun b => cmp a b == .eq :=
    List.mem_filter.2 ⟨ha, self_mem_place a⟩
  rw [hplaces a] at hplace
  exact List.mem_of_mem_filter hplace

theorem isLE_of_mem_cons {a b : α} {l : List α}
    (hascending : (a :: l).Pairwise fun a b => (cmp a b).isLE = true) (hb : b ∈ a :: l) :
    (cmp a b).isLE = true := by
  rcases List.mem_cons.1 hb with rfl | hb
  · exact Ordering.isLE_of_eq_eq ReflCmp.compare_self
  · exact (List.pairwise_cons.1 hascending).1 b hb

theorem SamePlaces.eq_of_ascending (hplaces : SamePlaces cmp l₁ l₂)
    (h₁ : l₁.Pairwise fun a b => (cmp a b).isLE = true)
    (h₂ : l₂.Pairwise fun a b => (cmp a b).isLE = true) : l₁ = l₂ := by
  induction l₁ generalizing l₂ with
  | nil => exact (List.subset_nil.1 hplaces.symm.subset).symm
  | cons a l₁ ih =>
    cases l₂ with
    | nil => exact absurd (hplaces.subset List.mem_cons_self) List.not_mem_nil
    | cons b l₂ =>
      -- Each head is least in both lists, so the heads are in one place, and both come first in it.
      have hequal : cmp a b = .eq := OrientedCmp.isLE_antisymm
        (isLE_of_mem_cons h₁ (hplaces.symm.subset List.mem_cons_self))
        (isLE_of_mem_cons h₂ (hplaces.subset List.mem_cons_self))
      have hheads := hplaces a
      rw [List.filter_cons, List.filter_cons, if_pos (self_mem_place a),
        if_pos (beq_iff_eq.2 hequal)] at hheads
      obtain rfl : a = b := List.head_eq_of_cons_eq hheads
      rw [ih hplaces.of_cons h₁.of_cons h₂.of_cons]

/-- **A list has one stable sort.** -/
theorem IsStableSort.eq_sortBy {l sorted : List α} (hsort : IsStableSort cmp l sorted) :
    sorted = sortBy cmp l := by
  have hsorted := sortBy_isStableSort cmp l
  have hplaces : SamePlaces cmp sorted (sortBy cmp l) :=
    fun a => (hsort.stable a).trans (hsorted.stable a).symm
  exact hplaces.eq_of_ascending hsort.ascending hsorted.ascending

/-- The sort of a list whose elements are all in places of their own does not depend on their
order. -/
theorem sortBy_eq_of_perm {l : List α} (hapart : l.Pairwise fun a b => cmp a b ≠ .eq)
    (h₁ : l₁.Perm l) (h₂ : l₂.Perm l) : sortBy cmp l₁ = sortBy cmp l₂ := by
  have hperm₁ := (sortBy_perm cmp l₁).trans h₁
  have hperm₂ := (sortBy_perm cmp l₂).trans h₂
  have hsymm : Std.Symm fun a b => cmp a b ≠ .eq :=
    ⟨fun a b hne heq => hne (OrientedCmp.eq_symm heq)⟩
  refine List.Perm.eq_of_pairwise (fun a b ha hb hab hba => ?_) (pairwise_sortBy cmp l₁)
    (pairwise_sortBy cmp l₂) (hperm₁.trans hperm₂.symm)
  by_contra hne
  exact hapart.forall (hperm₁.subset ha) (hperm₂.subset hb) hne
    (OrientedCmp.isLE_antisymm hab hba)

end Places

/-! ### Pieces of a sorted list -/

section Pieces

variable {key : α → String}

theorem ne_of_compare_lt {β : Type} [Ord β] [Std.ReflOrd β] {a b : β} (hlt : compare a b = .lt) :
    a ≠ b := by
  rintro rfl
  rw [Std.ReflOrd.compare_self] at hlt
  exact absurd hlt (by decide)

theorem lt_of_isLE_of_ne {β : Type} [Ord β] [Std.LawfulEqOrd β] {a b : β}
    (hle : (compare a b).isLE = true) (hne : a ≠ b) : compare a b = .lt := by
  rcases Ordering.isLE_iff_eq_lt_or_eq_eq.1 hle with hlt | heq
  · exact hlt
  · exact absurd (Std.LawfulEqOrd.eq_of_compare heq) hne

/-- Sorting by a key that tells all elements apart makes the keys ascend. -/
theorem ascending_sortBy {β : Type} [Ord β] [Std.TransOrd β] [Std.LawfulEqOrd β] (key : α → β)
    {l : List α} (hnodup : (l.map key).Nodup) :
    (sortBy (compareOn key) l).Pairwise fun a b => compare (key a) (key b) = .lt := by
  have hapart := ((sortBy_perm (compareOn key) l).map key).nodup_iff.2 hnodup
  refine ((pairwise_sortBy (compareOn key) l).and (List.pairwise_map.1 hapart)).imp ?_
  rintro a b ⟨hle, hne⟩
  exact lt_of_isLE_of_ne hle hne

/-- The elements of the least key stand first. -/
theorem filter_append_filter_of_least {l : List α} {least : String}
    (hsorted : l.Pairwise fun a b => (compare (key a) (key b)).isLE = true)
    (hleast : ∀ a ∈ l, (compare least (key a)).isLE = true) :
    (l.filter fun a => key a == least) ++ (l.filter fun a => key a != least) = l := by
  induction l with
  | nil => rfl
  | cons a l ih =>
    obtain ⟨hhead, htail⟩ := List.pairwise_cons.1 hsorted
    have hrest := ih htail fun b hb => hleast b (List.mem_cons_of_mem _ hb)
    by_cases ha : key a = least
    · rw [List.filter_cons_of_pos (by simpa using ha), List.filter_cons_of_neg (by simpa using ha),
        List.cons_append, hrest]
    · have hlt : compare least (key a) = .lt :=
        lt_of_isLE_of_ne (hleast a List.mem_cons_self) (Ne.symm ha)
      have hother : ∀ b ∈ a :: l, key b ≠ least := by
        intro b hb
        rcases List.mem_cons.1 hb with rfl | hb
        · exact ha
        · exact (ne_of_compare_lt (TransCmp.lt_of_lt_of_isLE hlt (hhead b hb))).symm
      rw [List.filter_eq_nil_iff.2 fun b hb => by simpa using hother b hb,
        List.filter_eq_self.2 fun b hb => by simpa using hother b hb, List.nil_append]

/-- A list that is sorted by a key is made of its pieces of each key, in ascending order. -/
theorem flatMap_filter_of_sorted {l : List α} {keys : List String}
    (hsorted : l.Pairwise fun a b => (compare (key a) (key b)).isLE = true)
    (hkeys : keys.Pairwise fun a b => compare a b = .lt) (hcover : ∀ a ∈ l, key a ∈ keys) :
    (keys.flatMap fun k => l.filter fun a => key a == k) = l := by
  induction keys generalizing l with
  | nil =>
    have hnil : l = [] := List.eq_nil_iff_forall_not_mem.2 fun a ha => List.not_mem_nil (hcover a ha)
    rw [hnil, List.flatMap_nil]
  | cons least keys ih =>
    obtain ⟨hleast, hrest⟩ := List.pairwise_cons.1 hkeys
    have hfirst : ∀ a ∈ l, (compare least (key a)).isLE = true := by
      intro a ha
      rcases List.mem_cons.1 (hcover a ha) with heq | hmem
      · rw [heq, Std.ReflOrd.compare_self]
        rfl
      · rw [hleast _ hmem]
        rfl
    have hpieces : (keys.flatMap fun k => l.filter fun a => key a == k) =
        l.filter fun a => key a != least := by
      have hih := @ih (l.filter fun a => key a != least) (hsorted.filter _) hrest (by
        intro a ha
        rw [List.mem_filter] at ha
        exact (List.mem_cons.1 (hcover a ha.1)).resolve_left (by simpa using ha.2))
      rw [← hih]
      refine List.flatMap_congr fun k hk => ?_
      have hne : k ≠ least := (ne_of_compare_lt (hleast k hk)).symm
      rw [List.filter_filter]
      refine List.filter_congr fun a _ => ?_
      rw [Bool.eq_iff_iff]
      simp only [beq_iff_eq, Bool.and_eq_true, bne_iff_ne, ne_eq]
      exact ⟨fun heq => ⟨heq, heq ▸ hne⟩, And.left⟩
    rw [List.flatMap_cons, hpieces]
    exact filter_append_filter_of_least hsorted hfirst

end Pieces

end RouteCatalog
