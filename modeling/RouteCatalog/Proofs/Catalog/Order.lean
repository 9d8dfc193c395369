import RouteCatalog.Proofs.Catalog.Grouping

/-!
# The orders of records

Routes and handlers are compared by namespace, then by controller, and then each in a way of their
own, so grouping sorted records of one namespace by controller leaves them in order
(`Partitions.rejoins`). Both comparisons are total preorders, and they make the catalog canonical:
the order in which records come is of no consequence, except among those that agree in all that is
compared (`IsCanonical`).
-/

namespace RouteCatalog

open Std (TransCmp OrientedCmp ReflCmp)

variable {R : Type} [Record R]

/-- The namespace of a record. -/
def Record.owner (record : R) : String :=
  (Record.declaration record).owner

/-- The arguments of a record between brackets. -/
def Record.argsText (record : R) : String :=
  (Record.declaration record).argsText

/-- A comparison of records by namespace, then by controller, and then in some way of its own. -/
structure IsRecordOrder (cmp : R → R → Ordering) : Prop where
  owner_isLE : ∀ {a b}, (cmp a b).isLE = true →
    (compare (Record.owner a) (Record.owner b)).isLE = true
  controllerKey_isLE : ∀ {a b}, (cmp a b).isLE = true → Record.owner a = Record.owner b →
    (compare (Record.controllerKey a) (Record.controllerKey b)).isLE = true

theorem isRecordOrder_compareLex (rest : R → R → Ordering) :
    IsRecordOrder
      (compareLex (compareOn Record.owner) (compareLex (compareOn Record.controllerKey) rest)) where
  owner_isLE hle := Ordering.isLE_left_of_isLE_then hle
  controllerKey_isLE {a b} hle howner := by
    have hrest : ((compare (Record.owner a) (Record.owner b)).then
        ((compare (Record.controllerKey a) (Record.controllerKey b)).then (rest a b))).isLE = true :=
      hle
    rw [howner, Std.ReflOrd.compare_self] at hrest
    exact Ordering.isLE_left_of_isLE_then hrest

theorem IsRecordOrder.pairwise_controllerKey {cmp : R → R → Ordering} (hcmp : IsRecordOrder cmp)
    {records : List R} {path : String} (howner : ∀ record ∈ records, Record.owner record = path)
    (hsorted : records.Pairwise fun a b => (cmp a b).isLE = true) :
    records.Pairwise fun a b =>
      (compare (Record.controllerKey a) (Record.controllerKey b)).isLE = true := by
  refine hsorted.imp_of_mem ?_
  intro a b ha hb hle
  exact hcmp.controllerKey_isLE hle ((howner a ha).trans (howner b hb).symm)

instance : TransCmp (compareRank (R := R)) :=
  inferInstanceAs (TransCmp fun a b : R => compareOn Record.priority b a)

instance : TransCmp Route.order := by
  unfold Route.order
  infer_instance

instance : TransCmp Handler.order := by
  unfold Handler.order
  infer_instance

theorem Route.isRecordOrder_order : IsRecordOrder Route.order :=
  isRecordOrder_compareLex _

theorem Handler.isRecordOrder_order : IsRecordOrder Handler.order :=
  isRecordOrder_compareLex _

/-! ### Sorting -/

/-- Two records agree in all that the catalog orders them by. -/
structure Record.SameKeys {V : Type} (verb : R → V) (a b : R) : Prop where
  owner_eq : Record.owner a = Record.owner b
  controllerKey_eq : Record.controllerKey a = Record.controllerKey b
  verb_eq : verb a = verb b
  argsText_eq : Record.argsText a = Record.argsText b

/-- A comparison of records is a total preorder that tells records apart by namespace, controller,
verb and arguments, and the sort gives the stable sort of every list, which is the same for every
order of the list if all records are told apart. -/
structure IsCanonical {V : Type} (verb : R → V) (cmp : R → R → Ordering)
    (sort : List R → List R) : Prop where
  compare_self : ∀ a, cmp a a = .eq
  compare_swap : ∀ a b, cmp b a = (cmp a b).swap
  isLE_trans : ∀ a b c, (cmp a b).isLE = true → (cmp b c).isLE = true → (cmp a c).isLE = true
  compare_eq_iff : ∀ a b, cmp a b = .eq ↔ Record.SameKeys verb a b
  isStableSort_iff : ∀ records sorted, IsStableSort cmp records sorted ↔ sorted = sort records
  sort_eq_of_perm : ∀ records first second, (records.Pairwise fun a b => cmp a b ≠ .eq) →
    first.Perm records → second.Perm records → sort first = sort second

theorem compareOn_eq_iff {α β : Type} [Ord β] [Std.LawfulEqOrd β] {key : α → β} {a b : α} :
    compareOn key a b = .eq ↔ key a = key b :=
  Std.compare_eq_iff_eq

theorem compareRank_eq_iff {a b : R} :
    compareRank a b = .eq ↔ Record.priority a = Record.priority b :=
  Std.compare_eq_iff_eq.trans eq_comm

theorem RouteVerb.priority_inj {verb other : RouteVerb} :
    verb.priority = other.priority ↔ verb = other := by
  cases verb <;> cases other <;> decide

theorem HookVerb.priority_inj {verb other : HookVerb} :
    verb.priority = other.priority ↔ verb = other := by
  cases verb <;> cases other <;> decide

theorem Route.order_eq_iff (a b : Route) :
    Route.order a b = .eq ↔ Record.SameKeys Route.verb a b := by
  rw [Route.order, compareLex_eq_eq, compareLex_eq_eq, compareLex_eq_eq, compareOn_eq_iff,
    compareOn_eq_iff, compareOn_eq_iff, compareRank_eq_iff]
  constructor
  · rintro ⟨howner, hcontroller, hargs, hrank⟩
    exact ⟨howner, hcontroller, RouteVerb.priority_inj.1 hrank, hargs⟩
  · rintro ⟨howner, hcontroller, hverb, hargs⟩
    exact ⟨howner, hcontroller, hargs, RouteVerb.priority_inj.2 hverb⟩

theorem Handler.order_eq_iff (a b : Handler) :
    Handler.order a b = .eq ↔ Record.SameKeys Handler.verb a b := by
  rw [Handler.order, compareLex_eq_eq, compareLex_eq_eq, compareLex_eq_eq, compareOn_eq_iff,
    compareOn_eq_iff, compareOn_eq_iff, compareRank_eq_iff]
  constructor
  · rintro ⟨howner, hcontroller, hrank, hargs⟩
    exact ⟨howner, hcontroller, HookVerb.priority_inj.1 hrank, hargs⟩
  · rintro ⟨howner, hcontroller, hverb, hargs⟩
    exact ⟨howner, hcontroller, HookVerb.priority_inj.2 hverb, hargs⟩

theorem isCanonical_sortBy {V : Type} {verb : R → V} {cmp : R → R → Ordering} [TransCmp cmp]
    (heq : ∀ a b, cmp a b = .eq ↔ Record.SameKeys verb a b) :
    IsCanonical verb cmp (sortBy cmp) where
  compare_self _ := ReflCmp.compare_self
  compare_swap _ _ := OrientedCmp.eq_swap
  isLE_trans _ _ _ := TransCmp.isLE_trans
  compare_eq_iff := heq
  isStableSort_iff records _ :=
    ⟨IsStableSort.eq_sortBy, fun hsorted => hsorted ▸ sortBy_isStableSort cmp records⟩
  sort_eq_of_perm _ _ _ := sortBy_eq_of_perm

/-- **The orders of routes and of handlers are canonical.** -/
theorem Record.orders_canonical :
    IsCanonical Route.verb Route.order Route.sort ∧
      IsCanonical Handler.verb Handler.order Handler.sort :=
  ⟨isCanonical_sortBy Route.order_eq_iff, isCanonical_sortBy Handler.order_eq_iff⟩

/-- The route of a verb to `/` in the namespace `App`, inside a controller or none. -/
def Route.inApp (controller : Option String) (verb : RouteVerb) : Route where
  owner := "App"
  controller := controller
  args := [.text "/"]
  conditions := {}
  source := ""
  location := ⟨⟨[]⟩, 1⟩
  docstring := ""
  verb := verb

theorem Record.orders_canonical_inApp :
    let get := Route.inApp (some "users") .get
    let head := Route.inApp (some "users") .head
    let bare := Route.inApp none .delete
    ([bare, get, head].Pairwise fun a b => Route.order a b ≠ .eq) ∧
      Route.sort [get, head, bare] = Route.sort [head, bare, get] := by
  intro get head bare
  have hapart : [bare, get, head].Pairwise fun a b => Route.order a b ≠ .eq := by decide +kernel
  exact ⟨hapart, orders_canonical.1.sort_eq_of_perm _ _ _ hapart (by decide +kernel)
    (by decide +kernel)⟩

/-! ### Grouping -/

/-- Groups take records apart by controller, without empty groups, and put together they give the
records back if these are sorted and of one namespace. -/
structure Partitions (cmp : R → R → Ordering) (records : List R)
    (groups : List (ControllerGroup R)) : Prop where
  grouping : IsGrouping records groups
  nonempty : ∀ group ∈ groups, group.records ≠ []
  rejoins : ∀ path, (∀ record ∈ records, Record.owner record = path) →
    (records.Pairwise fun a b => (cmp a b).isLE = true) →
      groups.flatMap ControllerGroup.records = records

theorem partitions_ofRecords {cmp : R → R → Ordering} (hcmp : IsRecordOrder cmp)
    (records : List R) : Partitions cmp records (ControllerGroup.ofRecords records) where
  grouping := isGrouping_ofRecords records
  nonempty _ hgroup := (isGrouping_ofRecords records).records_ne_nil hgroup
  rejoins _ howner hsorted :=
    (isGrouping_ofRecords records).flatMap_records (hcmp.pairwise_controllerKey howner hsorted)

/-- **Grouping by controller takes any routes and any handlers apart.** -/
theorem ControllerGroup.groups_partition :
    (∀ routes : List Route, Partitions Route.order routes (ofRecords routes)) ∧
      ∀ handlers : List Handler, Partitions Handler.order handlers (ofRecords handlers) :=
  ⟨partitions_ofRecords Route.isRecordOrder_order, partitions_ofRecords Handler.isRecordOrder_order⟩

-- No controller and the empty one fall into one group.
theorem ControllerGroup.groups_partition_inApp :
    let routes := [Route.inApp (some "") .get, .inApp none .post, .inApp (some "users") .get]
    (∀ route ∈ routes, Record.owner route = "App") ∧
      (routes.Pairwise fun a b => (Route.order a b).isLE = true) ∧
      (ofRecords routes).flatMap records = routes := by
  intro routes
  have howner : ∀ route ∈ routes, Record.owner route = "App" := by decide +kernel
  have hsorted : routes.Pairwise fun a b => (Route.order a b).isLE = true := by decide +kernel
  exact ⟨howner, hsorted, (groups_partition.1 routes).rejoins "App" howner hsorted⟩

end RouteCatalog
