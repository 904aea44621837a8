import Hmdp.Model.Codec
import Hmdp.Model.ShopCache
import Mathlib.Data.Finset.Basic
import Mathlib.Data.List.AList

/-!
# The geo index of the shops

`ShopServiceImpl.saveShop`, `update` and `syncGeoIndex`, and
`ShopGeoIndexInitializer.rebuildGeoIndex`, over the committed rows of `tb_shop` and the sorted sets
`shop:geo:<type>`.

* A member of a set stands for the text of its id, and has the position Redis keeps of its point; a
  set without members is no key. `Double` is any type.
* An `update` of a shop runs under its WRITE lock, a `saveShop` is for an id no other statement
  knows: a shop has one write transaction at a time. What it reads and writes of the table before
  its first Redis command nobody else sees, so that is one step.
* Other columns, the Bloom filter and the invalidation change neither rows nor index; a failure of
  theirs is one way to a rollback.
* The temporary key of a rebuild is a step with its `RENAME`; it never matches the scan.
-/

namespace Hmdp.Model

/-- `tb_shop.type_id` -/
abbrev ShopTypeId := Long

/-- The columns the index is about. -/
structure GeoShop (Double : Type) where
  typeId : Option ShopTypeId
  x : Option Double
  y : Option Double
  deriving DecidableEq

/-- The committed rows. -/
abbrev ShopRows (Double : Type) := AList fun _ : ShopId => GeoShop Double

/-- A sorted set of positions. -/
abbrev GeoKey (Double : Type) := AList fun _ : ShopId => Double × Double

/-- The sorted sets `shop:geo:<type>`. -/
abbrev GeoIndex (Double : Type) := ShopTypeId → GeoKey Double

variable {Double : Type}

/-- `updateById`: the fields that are not null. -/
def GeoShop.patch (old update : GeoShop Double) : GeoShop Double where
  typeId := update.typeId.or old.typeId
  x := update.x.or old.x
  y := update.y.or old.y

/-- `hasGeoCoordinates`, and what is put into the index then. -/
def GeoShop.location (shop : GeoShop Double) : Option (ShopTypeId × Double × Double) :=
  match shop.typeId, shop.x, shop.y with
  | some typeId, some x, some y => some (typeId, x, y)
  | _, _, _ => none

theorem GeoShop.typeId_of_location {shop : GeoShop Double} {typeId : ShopTypeId}
    {point : Double × Double} (h : shop.location = some (typeId, point)) :
    shop.typeId = some typeId := by
  unfold location at h
  split at h <;> cases h
  assumption

/-- The position of a shop in the set of a type. -/
def GeoShop.position (shop : GeoShop Double) (typeId : ShopTypeId) : Option (Double × Double) :=
  (shop.location.filter fun location => decide (location.1 = typeId)).map Prod.snd

theorem GeoShop.position_eq_some {shop : GeoShop Double} {typeId : ShopTypeId}
    {point : Double × Double} :
    shop.position typeId = some point ↔ shop.location = some (typeId, point) := by
  unfold position
  rw [Option.map_eq_some_iff]
  constructor
  · rintro ⟨⟨type, point'⟩, hlocation, rfl⟩
    obtain ⟨hlocation, htype⟩ := Option.filter_eq_some_iff.mp hlocation
    rw [hlocation, show type = typeId from of_decide_eq_true htype]
  · intro hlocation
    exact ⟨(typeId, point), Option.filter_eq_some_iff.mpr ⟨hlocation, decide_eq_true rfl⟩, rfl⟩

/-- A shop is in the set of one type. -/
theorem GeoShop.position_eq_none {shop : GeoShop Double} {typeId : ShopTypeId}
    (h : ∀ location, shop.location = some location → location.1 ≠ typeId) :
    shop.position typeId = none :=
  Option.eq_none_iff_forall_ne_some.mpr fun _ hpoint =>
    h _ (GeoShop.position_eq_some.mp hpoint) rfl

/-! ## `syncGeoIndex` -/

/-- `ZREM` of the shop. -/
def GeoIndex.remove (index : GeoIndex Double) (typeId : ShopTypeId) (id : ShopId) :
    GeoIndex Double :=
  Function.update index typeId ((index typeId).erase id)

/-- `GEOADD` of the shop. -/
def GeoIndex.add (index : GeoIndex Double) (typeId : ShopTypeId) (point : Double × Double)
    (id : ShopId) : GeoIndex Double :=
  Function.update index typeId ((index typeId).insert id point)

theorem GeoIndex.lookup_remove (index : GeoIndex Double) (typeId typeId' : ShopTypeId)
    (id id' : ShopId) : ((index.remove typeId id) typeId').lookup id' =
      if typeId' = typeId ∧ id' = id then none else (index typeId').lookup id' := by
  by_cases htype : typeId' = typeId
  · subst htype
    by_cases hid : id' = id
    · subst hid
      simp [remove]
    · simp [remove, hid]
  · simp [remove, htype]

theorem GeoIndex.lookup_add (index : GeoIndex Double) (typeId typeId' : ShopTypeId)
    (point : Double × Double) (id id' : ShopId) :
    ((index.add typeId point id) typeId').lookup id' =
      if typeId' = typeId ∧ id' = id then some point else (index typeId').lookup id' := by
  by_cases htype : typeId' = typeId
  · subst htype
    by_cases hid : id' = id
    · subst hid
      simp [add]
    · simp [add, hid, AList.lookup_insert_ne hid]
  · simp [add, htype]

/-- Where a write transaction stands. -/
inductive SyncPhase where
  | remove
  | add
  /-- its Redis commands are done -/
  | finish
  deriving DecidableEq

/-- The write transaction of a shop: the row it found, the row it has written, and where it
stands. -/
structure ShopWrite (Double : Type) where
  oldShop : Option (GeoShop Double)
  newShop : GeoShop Double
  phase : SyncPhase
  deriving DecidableEq

/-- The next command of `syncGeoIndex`. -/
def GeoIndex.sync (index : GeoIndex Double) (id : ShopId) (write : ShopWrite Double) :
    Option (GeoIndex Double × ShopWrite Double) :=
  match write.phase with
  | .remove =>
    match write.oldShop.bind GeoShop.typeId with
    | some typeId => some (index.remove typeId id, { write with phase := .add })
    | none => some (index, { write with phase := .add })
  | .add =>
    match write.newShop.location with
    | some (typeId, point) => some (index.add typeId point id, { write with phase := .finish })
    | none => some (index, { write with phase := .finish })
  | .finish => none

/-! ## `rebuildGeoIndex` -/

/-- A `GeoLocation` of the type, with the id as its name. -/
def geoLocation (typeId : ShopTypeId) (row : (_ : ShopId) × GeoShop Double) :
    Option ((_ : ShopId) × (Double × Double)) :=
  (row.2.position typeId).map fun point => ⟨row.1, point⟩

theorem keys_geoLocation (typeId : ShopTypeId) (rows : List ((_ : ShopId) × GeoShop Double)) :
    (rows.filterMap (geoLocation typeId)).keys.Sublist rows.keys := by
  induction rows with
  | nil => exact List.Sublist.refl _
  | cons row rows ih =>
    cases hposition : row.2.position typeId with
    | none =>
      simp only [List.filterMap_cons, geoLocation, hposition, Option.map_none, List.keys_cons]
      exact ih.trans (List.sublist_cons_self _ _)
    | some point =>
      simp only [List.filterMap_cons, geoLocation, hposition, Option.map_some, List.keys_cons]
      exact ih.cons_cons _

/-- The shops of one type with their positions: what the temporary key gets. -/
def ShopRows.located (rows : ShopRows Double) (typeId : ShopTypeId) : GeoKey Double where
  entries := rows.entries.filterMap (geoLocation typeId)
  nodupKeys := (keys_geoLocation typeId rows.entries).nodup rows.nodupKeys

/-- The shop's position in the key that is built from the rows. -/
theorem ShopRows.lookup_located (rows : ShopRows Double) (typeId : ShopTypeId) (id : ShopId) :
    (rows.located typeId).lookup id = (rows.lookup id).bind fun shop => shop.position typeId := by
  refine Option.ext fun point => ?_
  rw [← Option.mem_def, AList.mem_lookup_iff, Option.bind_eq_some_iff]
  simp only [located, List.mem_filterMap, geoLocation, Option.map_eq_some_iff]
  constructor
  · rintro ⟨⟨id', shop⟩, hmem, point', hposition, heq⟩
    cases heq
    exact ⟨shop, AList.mem_lookup_iff.mpr hmem, hposition⟩
  · rintro ⟨shop, hshop, hposition⟩
    exact ⟨⟨id, shop⟩, AList.mem_lookup_iff.mp hshop, point, hposition, rfl⟩

/-- The keys of `shopsByType`. -/
def ShopRows.types (rows : ShopRows Double) : Finset ShopTypeId :=
  (rows.entries.filterMap fun e => e.2.location.map Prod.fst).toFinset

theorem ShopRows.mem_types {rows : ShopRows Double} {typeId : ShopTypeId} :
    typeId ∈ rows.types ↔
      ∃ id shop point, rows.lookup id = some shop ∧ shop.location = some (typeId, point) := by
  simp only [types, List.mem_toFinset, List.mem_filterMap, Option.map_eq_some_iff]
  constructor
  · rintro ⟨⟨id, shop⟩, hmem, ⟨type, point⟩, hlocation, rfl⟩
    exact ⟨id, shop, point, AList.mem_lookup_iff.mpr hmem, hlocation⟩
  · rintro ⟨id, shop, point, hlookup, hlocation⟩
    exact ⟨⟨id, shop⟩, AList.mem_lookup_iff.mp hlookup, (typeId, point), hlocation, rfl⟩

/-- A key that is built has a shop. -/
theorem ShopRows.mem_types_of_located {rows : ShopRows Double} {typeId : ShopTypeId}
    (h : (rows.located typeId).entries.isEmpty = false) : typeId ∈ rows.types := by
  obtain ⟨⟨id, point⟩, hmem⟩ := List.exists_mem_of_ne_nil _ (by simpa using h)
  have hlookup := rows.lookup_located typeId id
  rw [AList.mem_lookup_iff.mpr hmem, eq_comm] at hlookup
  obtain ⟨shop, hshop, hposition⟩ := Option.bind_eq_some_iff.mp hlookup
  exact ShopRows.mem_types.mpr ⟨id, shop, point, hshop, GeoShop.position_eq_some.mp hposition⟩

/-- `suffix.matches("\\d+")`, of the text of a type. -/
def matchesDigits (suffix : Text) : Bool := !suffix.isEmpty && suffix.all Char.isDigit

/-- `scanGeoKeys` without the `activeKeys`. -/
def GeoIndex.staleKeys (index : GeoIndex Double) (activeKeys : Finset ShopTypeId) :
    ShopTypeId → Bool :=
  fun typeId => !(index typeId).entries.isEmpty && matchesDigits typeId.toText &&
    !decide (typeId ∈ activeKeys)

/-- `delete(staleKeys)`. -/
def GeoIndex.delete (index : GeoIndex Double) (staleKeys : ShopTypeId → Bool) : GeoIndex Double :=
  fun typeId => if staleKeys typeId then ∅ else index typeId

theorem GeoIndex.lookup_delete (index : GeoIndex Double) (staleKeys : ShopTypeId → Bool)
    (typeId : ShopTypeId) (id : ShopId) : (index.delete staleKeys typeId).lookup id =
      if staleKeys typeId = true then none else (index typeId).lookup id := by
  unfold delete
  split <;> simp

/-- Where a rebuild stands: the rows are to be read; types are to be renamed, some have been; the
keys are to be deleted. -/
inductive GeoRebuild (Double : Type) where
  | list
  | rename (rows : ShopRows Double) (remaining : List ShopTypeId) (activeKeys : Finset ShopTypeId)
  | delete (staleKeys : ShopTypeId → Bool)

/-- The next step of a rebuild, or its end. A `HashMap` gives its keys in some order; `order` is
that of the map that `list` builds. -/
def GeoIndex.rebuild (index : GeoIndex Double) (rows : ShopRows Double) (order : List ShopTypeId) :
    GeoRebuild Double → Option (GeoIndex Double × Option (GeoRebuild Double))
  | .list =>
    if order.Nodup ∧ order.toFinset = rows.types then some (index, some (.rename rows order ∅))
    else none
  | .rename snapshot (typeId :: remaining) activeKeys =>
    some (Function.update index typeId (snapshot.located typeId),
      some (.rename snapshot remaining (insert typeId activeKeys)))
  | .rename _ [] activeKeys => some (index, some (.delete (index.staleKeys activeKeys)))
  | .delete staleKeys => some (index.delete staleKeys, none)

end Hmdp.Model
