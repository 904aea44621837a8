import Hmdp.Model.ShopQuery
import Mathlib.Algebra.Group.Nat.Defs
import Mathlib.Data.List.Dedup

/-!
# Pages of the shops nearby

What `queryShopsByDistance` answers for a page against the shops nearby in the order of distance and
id. The page is cut with `int` indices, which wrap for high page numbers, and a distance is looked
up under the text of the id, which is the name of the member if that is written the same way.

* `pageOf_eq_iff`: when the indices of a page are right.
* `rankedShops_eq_some_iff`: the shops are found with their distances if the names are so written.
* **`nearby_page_iff`**: the answer is the page, exactly if the indices and names are right; the
  pages put together are the list.
* `high_page_fails`: a page whose first index wraps.
-/

namespace Hmdp.ShopQuery

open Hmdp.Lib Hmdp.Model

/-! ## The indices of a page -/

/-- `from` of the page, as the code computes it. -/
def fromIndex (current : Int32) : ℤ := ((current - 1) * defaultPageSize).toInt

/-- The elements at the positions `[5 (current - 1), 5 current)`. -/
def page {α : Type} (shops : List α) (current : Int32) : List α :=
  (shops.drop (5 * (current.toInt - 1).toNat)).take 5

/-- An `int` value is the real one but for a multiple of `2 ^ 32`. -/
theorem exists_bmod (x : ℤ) : ∃ k : ℤ, x.bmod (2 ^ 32) = x - 2 ^ 32 * k :=
  ⟨x.bdiv (2 ^ 32), by
    have hsplit : x.bmod (2 ^ 32) + 2 ^ 32 * x.bdiv (2 ^ 32) = x := Int.bmod_add_bdiv x (2 ^ 32)
    omega⟩

/-- What `pageOf` computes with: the two indices are `int` values, each up to `2 ^ 32`. -/
theorem pageOf_indices {α : Type} (shops : List α) {current : Int32}
    (hcurrent : 1 ≤ current.toInt) :
    ∃ i j k l : ℤ, fromIndex current = i ∧
      pageOf shops current = (if shops.length ≤ i then some [] else
        subList shops i (min j shops.length)) ∧
      i = 5 * (current.toInt - 1) - 2 ^ 32 * k ∧ j = i + 5 - 2 ^ 32 * l ∧
      -2 ^ 31 ≤ i ∧ i < 2 ^ 31 ∧ -2 ^ 31 ≤ j ∧ j < 2 ^ 31 := by
  have hpage : (current - 1).toInt = current.toInt - 1 := by
    have := current.toInt_lt
    rw [Int32.toInt_sub, Int32.toInt_one, Int.bmod_eq_of_le (by omega) (by omega)]
  obtain ⟨k, hk⟩ := exists_bmod (5 * (current.toInt - 1))
  obtain ⟨l, hl⟩ := exists_bmod (fromIndex current + 5)
  refine ⟨fromIndex current, ((current - 1) * defaultPageSize + defaultPageSize).toInt, k, l, rfl,
    rfl, ?_, ?_, Int32.le_toInt _, Int32.toInt_lt _, Int32.le_toInt _, Int32.toInt_lt _⟩
  · rw [fromIndex, Int32.toInt_mul, hpage, Int.mul_comm]
    exact hk
  · rw [Int32.toInt_add]
    exact hl

theorem subList_five {α : Type} {xs : List α} {i : ℤ} (hi : 0 ≤ i) (hlt : i < xs.length) :
    subList xs i (min (i + 5) xs.length) = some ((xs.drop i.toNat).take 5) := by
  rw [subList, if_pos (by omega), Option.some.injEq, List.take_eq_take_iff, List.length_drop]
  omega

/-- **The page that is cut** is the right one if its last index is an `int`, or the shops end before
its first. -/
theorem pageOf_eq_iff {α : Type} {shops : List α} {current : Int32}
    (hcurrent : 1 ≤ current.toInt) (hsize : shops.length < 2 ^ 31) :
    pageOf shops current = some (page shops current) ↔
      5 * current.toInt < 2 ^ 31 ∨ shops.length ≤ fromIndex current := by
  obtain ⟨i, j, k, l, hi, hpage, hfrom, hto, hlow, hhigh, hlow', hhigh'⟩ :=
    pageOf_indices shops hcurrent
  rw [hpage, hi]
  clear hpage hi
  unfold page
  generalize current.toInt = c at *
  by_cases hend : (shops.length : ℤ) ≤ i
  · -- the list ends before the page, computed or real
    rw [if_pos hend]
    refine iff_of_true (congrArg some ?_) (Or.inr hend)
    rw [List.drop_eq_nil_of_le (by omega), List.take_nil]
  · rw [if_neg hend, or_iff_left hend]
    by_cases hright : 0 ≤ i ∧ i + 5 < 2 ^ 31
    · have hj : j = i + 5 := by omega
      rw [hj, subList_five hright.1 (by omega), Option.some.injEq]
      by_cases hk : k = 0
      · -- no wrap: the index is the real one
        have hstart : i.toNat = 5 * (c - 1).toNat := by omega
        rw [hstart]
        exact iff_of_true rfl (by omega)
      · -- the real page is behind the end of the list
        have hbehind : shops.length ≤ 5 * (c - 1).toNat := by omega
        refine iff_of_false (fun heq => ?_) fun hlt => hk (by omega)
        rw [List.drop_eq_nil_of_le hbehind, List.take_nil, List.take_eq_nil_iff,
          List.drop_eq_nil_iff, Int.le_toNat hright.1] at heq
        exact heq.elim (by decide) hend
    · -- `subList` throws
      rw [subList, if_neg (by omega)]
      refine iff_of_false (fun hnone => by cases hnone) fun hlt => hright ?_
      have hle : k ≤ 0 := by omega
      have hge : 0 ≤ k := by omega
      omega

/-- The page numbers that are accepted. -/
theorem one_le_of_valid {Double : Type} {normalSort : Option Text → Text}
    {outside : Double → Double → Bool} {typeId : Option Int32} {current : Int32}
    {x y : Option Double} {sortBy : Option Text}
    (h : validateShopQuery normalSort outside typeId (some current) x y sortBy = none) :
    1 ≤ current.toInt := by
  unfold validateShopQuery at h
  split at h
  · cases h
  split at h
  · cases h
  rename_i hpage
  by_contra hle
  refine hpage fun page hpage => ?_
  obtain rfl := Option.mem_some.mp hpage
  exact Int32.le_iff_toInt_le.mpr (by simpa using Int.lt_add_one_iff.mp (not_le.mp hle))

/-! ## Rows in the order of their ids -/

section Rows

variable {Double : Type} {ids : List ShopId} {shops : List (ShopRow Double)}

/-- The row of an id. -/
def rowOf (shops : List (ShopRow Double)) (id : ShopId) : Option (ShopRow Double) :=
  shops.find? fun shop => decide (shop.id = id)

theorem rowOf_eq_some (hunique : (shops.map ShopRow.id).Nodup) {id : ShopId}
    {shop : ShopRow Double} : rowOf shops id = some shop ↔ shop ∈ shops ∧ shop.id = id := by
  constructor
  · intro h
    exact ⟨List.mem_of_find?_eq_some h, by simpa using List.find?_some h⟩
  · rintro ⟨hmem, rfl⟩
    have hfound : (rowOf shops shop.id).isSome := List.find?_isSome.mpr ⟨shop, hmem, by simp⟩
    obtain ⟨other, hother⟩ := Option.isSome_iff_exists.mp hfound
    have hid : other.id = shop.id := by simpa using List.find?_some hother
    rw [hother, List.inj_on_of_nodup_map hunique (List.mem_of_find?_eq_some hother) hmem hid]

/-- The rank of an id is its position. -/
theorem rank_eq_some (hids : ids.Nodup) {id : ShopId} {k : ℕ} :
    rankMap ids id = some k ↔ ids[k]? = some id := by
  rw [rankMap, putAll_eq_some (by rwa [List.zipIdx_map_fst])]
  exact List.mem_zipIdx_iff_getElem?

/-- The rows of some ids, sorted by rank, are those of one id after the other. -/
theorem sortOn_rank (hids : ids.Nodup) (hmem : ∀ shop ∈ shops, shop.id ∈ ids)
    (hunique : (shops.map ShopRow.id).Nodup) :
    sortOn (fun shop => (rankMap ids shop.id).getD 0) shops =
      ids.filterMap (rowOf shops) := by
  have hrank : ∀ {k : ℕ} (hk : k < ids.length),
      (rankMap ids ids[k]).getD 0 = k := by
    intro k hk
    rw [(rank_eq_some hids).mpr (List.getElem?_eq_getElem hk)]
    rfl
  refine sortOn_unique (fun a ha b hb hab => ?_) ?_ ?_
  · obtain ⟨i, hi, ha'⟩ := List.getElem_of_mem (hmem a ha)
    obtain ⟨j, hj, hb'⟩ := List.getElem_of_mem (hmem b hb)
    refine List.inj_on_of_nodup_map hunique ha hb ?_
    rw [← ha', ← hb', hrank hi, hrank hj] at hab
    subst hab
    exact ha'.symm.trans hb'
  · refine (List.perm_ext_iff_of_nodup ?_ hunique.of_map).mpr fun shop => ?_
    · refine hids.filterMap fun a b shop ha hb => ?_
      exact ((rowOf_eq_some hunique).mp ha).2.symm.trans ((rowOf_eq_some hunique).mp hb).2
    · simp only [List.mem_filterMap, rowOf_eq_some hunique]
      exact ⟨fun ⟨_, _, hshop, _⟩ => hshop, fun hshop => ⟨_, hmem shop hshop, hshop, rfl⟩⟩
  · refine List.Pairwise.filterMap (rowOf shops) (fun a b hab x hx y hy => ?_)
      (List.pairwise_iff_getElem.mpr fun i j hi hj hij => ?_ :
        ids.Pairwise fun a b => (rankMap ids a).getD 0 ≤
          (rankMap ids b).getD 0)
    · rw [((rowOf_eq_some hunique).mp hx).2, ((rowOf_eq_some hunique).mp hy).2]
      exact hab
    · rw [hrank hi, hrank hj]
      exact hij.le

/-- The results with the ids they name. -/
def located (geoResults : List (GeoResult Double)) : List (GeoResult Double × ShopId) :=
  geoResults.filterMap GeoResult.parse

theorem parse_of_mem_located {geoResults : List (GeoResult Double)}
    {result : GeoResult Double × ShopId} (h : result ∈ located geoResults) :
    Long.valueOf result.1.name = some result.2 := by
  obtain ⟨r, -, hparse⟩ := List.mem_filterMap.mp h
  obtain ⟨id, hid, rfl⟩ := Option.map_eq_some_iff.mp hparse
  exact hid

theorem located_nodup {geoResults : List (GeoResult Double)}
    (hdistinct : (geoResults.map fun r => Long.valueOf r.name).Nodup) :
    ((located geoResults).map Prod.snd).Nodup := by
  have hids : (located geoResults).map Prod.snd =
      (geoResults.map fun r => Long.valueOf r.name).filterMap id := by
    rw [located, List.map_filterMap, List.filterMap_map]
    refine List.filterMap_congr fun r _ => ?_
    simp [GeoResult.parse]
  rw [hids]
  exact hdistinct.filterMap fun a b c ha hb => ha.trans hb.symm

end Rows

variable {Double : Type} [LinearOrder Double] [Mul Double] [OfNat Double 1000]

/-! ## What is nearby -/

/-- The rows of the results that are in the table and in the area. -/
def matching (isBlank : Text → Bool) (table : ShopTable Double) (area : Option Text)
    (results : List (GeoResult Double × ShopId)) : List (ShopRow Double) :=
  table.list ((sortOn distanceKey results).map Prod.snd) (area.filter (!isBlank ·))

/-- The shops nearby, the closest first and then the lowest id, with their distances in metres. -/
def nearby (isBlank : Text → Bool) (table : ShopTable Double) (area : Option Text)
    (geoResults : List (GeoResult Double)) : List (ShopRow Double) :=
  (sortOn distanceKey (located geoResults)).filterMap fun result =>
    (rowOf (matching isBlank table area (located geoResults)) result.2).map fun shop =>
      { shop with distance := some (result.1.distance * 1000) }

/-- The member of a result that is in the table and the area is named by the text of its id. -/
def NamedById (isBlank : Text → Bool) (table : ShopTable Double) (area : Option Text)
    (geoResults : List (GeoResult Double)) : Prop :=
  ∀ result ∈ located geoResults,
    (∃ shop ∈ matching isBlank table area (located geoResults), shop.id = result.2) →
      result.1.name = result.2.toText

section Nearby

variable {isBlank : Text → Bool} {table : ShopTable Double} {area : Option Text}
  {geoResults : List (GeoResult Double)}

omit [Mul Double] [OfNat Double 1000] in
/-- The distance that is looked up under the text of a result's id. -/
theorem distanceMap_eq (hdistinct : (geoResults.map fun r => Long.valueOf r.name).Nodup)
    {result : GeoResult Double × ShopId} (hmem : result ∈ located geoResults) :
    distanceMap (sortOn distanceKey (located geoResults)) result.2.toText =
      if result.1.name = result.2.toText then some result.1.distance else none := by
  have hids : ((sortOn distanceKey (located geoResults)).map Prod.snd).Nodup :=
    ((sortOn_perm distanceKey _).map Prod.snd).nodup_iff.mpr (located_nodup hdistinct)
  -- a name determines the id
  have hparse : ((sortOn distanceKey (located geoResults)).map fun result =>
      result.1.name).map Long.valueOf =
        ((sortOn distanceKey (located geoResults)).map Prod.snd).map some := by
    rw [List.map_map, List.map_map]
    exact List.map_congr_left fun result hresult =>
      parse_of_mem_located (mem_sortOn.mp hresult)
  have hnames : ((sortOn distanceKey (located geoResults)).map fun result =>
      result.1.name).Nodup := by
    refine List.Nodup.of_map Long.valueOf ?_
    rw [hparse]
    exact hids.map (Option.some_injective _)
  refine Option.ext fun d => ?_
  rw [distanceMap, putAll_eq_some (by rw [List.map_map]; exact hnames), List.mem_map]
  constructor
  · rintro ⟨other, hother, heq⟩
    obtain ⟨hname, hd⟩ := Prod.ext_iff.mp heq
    have hid : other.2 = result.2 := by
      have hparse := parse_of_mem_located (mem_sortOn.mp hother)
      rw [show other.1.name = result.2.toText from hname, Long.valueOf_toText] at hparse
      exact (Option.some.inj hparse).symm
    obtain rfl := List.inj_on_of_nodup_map hids hother (mem_sortOn.mpr hmem) hid
    rw [if_pos hname]
    exact congrArg some hd
  · intro h
    split at h
    · rename_i hname
      exact ⟨result, mem_sortOn.mpr hmem, Prod.ext hname (Option.some.inj h)⟩
    · cases h

omit [Mul Double] [OfNat Double 1000] in
/-- The shops of the results, before their distances are set. -/
theorem mem_rows {shop : ShopRow Double} :
    shop ∈ ((sortOn distanceKey (located geoResults)).map Prod.snd).filterMap
        (rowOf (matching isBlank table area (located geoResults))) ↔
      ∃ result ∈ located geoResults,
        rowOf (matching isBlank table area (located geoResults)) result.2 = some shop := by
  simp only [List.mem_filterMap, List.mem_map, mem_sortOn, exists_exists_and_eq_and]

/-- **The shops in their order**: they are found with their distances if each is named by the text
of its id, and else the query throws. -/
theorem rankedShops_eq_some_iff (hdistinct : (geoResults.map fun r => Long.valueOf r.name).Nodup)
    {shops : List (ShopRow Double)} :
    rankedShops isBlank table area (sortOn distanceKey (located geoResults)) = some shops ↔
      NamedById isBlank table area geoResults ∧
        shops = nearby isBlank table area geoResults := by
  have hids : ((sortOn distanceKey (located geoResults)).map Prod.snd).Nodup :=
    ((sortOn_perm distanceKey _).map Prod.snd).nodup_iff.mpr (located_nodup hdistinct)
  have hrow : ∀ {id shop},
      rowOf (matching isBlank table area (located geoResults)) id = some shop ↔
        shop ∈ matching isBlank table area (located geoResults) ∧ shop.id = id :=
    rowOf_eq_some (table.unique _ _)
  have hset : ∀ result ∈ located geoResults, ∀ shop,
      rowOf (matching isBlank table area (located geoResults)) result.2 = some shop →
      shop.setDistance (distanceMap (sortOn distanceKey (located geoResults))) =
        if result.1.name = result.2.toText then
          some { shop with distance := some (result.1.distance * 1000) }
        else none := by
    intro result hmem shop hshop
    rw [ShopRow.setDistance, (hrow.mp hshop).2, distanceMap_eq hdistinct hmem]
    split
    · rfl
    · rfl
  unfold rankedShops
  dsimp only
  rw [sortOn_rank hids (table.mem _ _) (table.unique _ _), mapM_eq_some_iff]
  change (∀ shop ∈ ((sortOn distanceKey (located geoResults)).map Prod.snd).filterMap
    (rowOf (matching isBlank table area (located geoResults))), _) ∧ _ ↔ _
  have hnamed : (∀ shop ∈ ((sortOn distanceKey (located geoResults)).map Prod.snd).filterMap
      (rowOf (matching isBlank table area (located geoResults))),
        (shop.setDistance (distanceMap (sortOn distanceKey (located geoResults)))).isSome) ↔
      NamedById isBlank table area geoResults := by
    constructor
    · rintro hall result hmem ⟨shop, hshop, hid⟩
      have hrowOf := hrow.mpr ⟨hshop, hid⟩
      have hsome := hall shop (mem_rows.mpr ⟨result, hmem, hrowOf⟩)
      rw [hset result hmem shop hrowOf] at hsome
      by_contra hne
      rw [if_neg hne] at hsome
      cases hsome
    · intro hall shop hshop
      obtain ⟨result, hmem, hrowOf⟩ := mem_rows.mp hshop
      rw [hset result hmem shop hrowOf, if_pos (hall result hmem ⟨shop, hrow.mp hrowOf⟩)]
      rfl
  rw [hnamed]
  refine and_congr_right fun hall => ?_
  suffices hshops : (((sortOn distanceKey (located geoResults)).map Prod.snd).filterMap
      (rowOf (matching isBlank table area (located geoResults)))).filterMap
        (fun shop => shop.setDistance (distanceMap (sortOn distanceKey (located geoResults)))) =
      nearby isBlank table area geoResults by
    rw [← hshops]
    rfl
  rw [List.filterMap_filterMap, List.filterMap_map]
  refine List.filterMap_congr fun result hmem => ?_
  have hmem := mem_sortOn.mp hmem
  dsimp only [Function.comp_apply]
  cases hrowOf : rowOf (matching isBlank table area (located geoResults)) result.2 with
  | none => rfl
  | some shop =>
    rw [Option.bind_some, hset result hmem shop hrowOf,
      if_pos (hall result hmem ⟨shop, hrow.mp hrowOf⟩)]
    rfl

theorem length_nearby_le : (nearby isBlank table area geoResults).length ≤ geoResults.length := by
  refine (List.length_filterMap_le _ _).trans ?_
  rw [length_sortOn]
  exact List.length_filterMap_le _ _

/-- A page of results that are numeric. -/
theorem pageDistanceResults_eq_some_iff (hne : geoResults ≠ [])
    (hnumeric : ∀ r ∈ geoResults, (Long.valueOf r.name).isSome)
    (hdistinct : (geoResults.map fun r => Long.valueOf r.name).Nodup) {current : Int32}
    {shops : List (ShopRow Double)} :
    pageDistanceResults isBlank table geoResults current area = some shops ↔
      NamedById isBlank table area geoResults ∧
        pageOf (nearby isBlank table area geoResults) current = some shops := by
  have hparse : geoResults.mapM GeoResult.parse = some (located geoResults) := by
    refine mapM_eq_some_iff.mpr ⟨fun r hr => ?_, rfl⟩
    rw [GeoResult.parse, Option.isSome_map]
    exact hnumeric r hr
  have hnil : ¬ geoResults.isEmpty = true := fun h => hne (List.isEmpty_iff.mp h)
  rw [pageDistanceResults, if_neg hnil, hparse, Option.bind_some, Option.bind_eq_some_iff]
  simp only [rankedShops_eq_some_iff hdistinct]
  constructor
  · rintro ⟨_, ⟨hnamed, rfl⟩, hpage⟩
    exact ⟨hnamed, hpage⟩
  · rintro ⟨hnamed, hpage⟩
    exact ⟨_, ⟨hnamed, rfl⟩, hpage⟩

end Nearby

/-! ## The query -/

section Query

variable {isBlank : Text → Bool} {table : ShopTable Double} {area : Option Text}
  {geoResults : List (GeoResult Double)}

/-- The answer for a page. -/
theorem query_eq_iff (shopCount : ℕ) {current : Int32} (hcurrent : 1 ≤ current.toInt)
    (hnumeric : ∀ r ∈ geoResults, (Long.valueOf r.name).isSome)
    (hdistinct : (geoResults.map fun r => Long.valueOf r.name).Nodup)
    (hsize : geoResults.length < 2 ^ 31) :
    queryShopsByDistance isBlank table (some true) shopCount (some geoResults) current area =
        .ok (page (nearby isBlank table area geoResults) current) ↔
      geoResults = [] ∨ NamedById isBlank table area geoResults ∧
        (5 * current.toInt < 2 ^ 31 ∨
          (nearby isBlank table area geoResults).length ≤ fromIndex current) := by
  rw [← pageOf_eq_iff hcurrent (length_nearby_le.trans_lt hsize)]
  by_cases hnil : geoResults = []
  · subst hnil
    refine iff_of_true ?_ (Or.inl rfl)
    have hnone : nearby isBlank table area [] = [] := rfl
    rw [hnone, page, List.drop_nil]
    rfl
  · have hquery : queryShopsByDistance isBlank table (some true) shopCount (some geoResults)
        current area =
          ((pageDistanceResults isBlank table geoResults current area).map .ok).getD
            (.fail "附近商户服务暂不可用，请稍后重试".toList) := by
      obtain ⟨r, rs, rfl⟩ := List.exists_cons_of_ne_nil hnil
      cases hpage : pageDistanceResults isBlank table (r :: rs) current area <;>
        simp [queryShopsByDistance, hpage]
    rw [hquery, or_iff_right hnil, ← pageDistanceResults_eq_some_iff hnil hnumeric hdistinct]
    cases pageDistanceResults isBlank table geoResults current area with
    | none => exact iff_of_false (fun h => by cases h) fun h => by cases h
    | some shops => rw [Option.map_some, Option.getD_some, ShopResult.ok.injEq, Option.some.injEq]

/-- Page `k + 1` of a list, for page numbers that fit. -/
theorem page_ofNat {α : Type} (shops : List α) {k : ℕ} (hk : k + 1 < 2 ^ 31) :
    (Int32.ofNat (k + 1)).toInt = (k : ℤ) + 1 ∧
      page shops (Int32.ofNat (k + 1)) = (shops.drop (5 * k)).take 5 := by
  have htoInt : (Int32.ofNat (k + 1)).toInt = (k : ℤ) + 1 := by
    rw [Int32.toInt_ofNat_of_lt hk]
    rfl
  refine ⟨htoInt, ?_⟩
  rw [page, htoInt, Int.add_sub_cancel]
  rfl

end Query

/-- **Pages of the shops nearby.** For a page number that `validateShopQuery` accepts, the answer
is the shops nearby at the positions of the page, if and only if there are no results at all, or the
members are named by the text of their ids and the page ends below `2 ^ 31` or starts, as computed,
behind the last shop. And then the pages that end below `2 ^ 31` are all answered, and are, put
together, the shops nearby from the first on. -/
theorem nearby_page_iff (isBlank : Text → Bool) (normalSort : Option Text → Text)
    (outside : Double → Double → Bool) (typeId : Option Int32) (x y : Option Double)
    (sortBy : Option Text) (table : ShopTable Double) (shopCount : ℕ)
    (geoResults : List (GeoResult Double)) (area : Option Text) (current : Int32)
    (hvalid : validateShopQuery normalSort outside typeId (some current) x y sortBy = none)
    (hnumeric : ∀ r ∈ geoResults, (Long.valueOf r.name).isSome)
    (hdistinct : (geoResults.map fun r => Long.valueOf r.name).Nodup)
    (hsize : geoResults.length < 2 ^ 31) :
    (queryShopsByDistance isBlank table (some true) shopCount (some geoResults) current area =
        .ok (page (nearby isBlank table area geoResults) current) ↔
      geoResults = [] ∨ NamedById isBlank table area geoResults ∧
        (5 * current.toInt < 2 ^ 31 ∨
          (nearby isBlank table area geoResults).length ≤ fromIndex current)) ∧
      (NamedById isBlank table area geoResults → ∀ count, 5 * count < 2 ^ 31 →
        (∀ k < count, queryShopsByDistance isBlank table (some true) shopCount (some geoResults)
            (Int32.ofNat (k + 1)) area =
          .ok (page (nearby isBlank table area geoResults) (Int32.ofNat (k + 1)))) ∧
        (List.range count).flatMap (fun k =>
            page (nearby isBlank table area geoResults) (Int32.ofNat (k + 1))) =
          (nearby isBlank table area geoResults).take (5 * count)) := by
  refine ⟨query_eq_iff shopCount (one_le_of_valid hvalid) hnumeric hdistinct hsize,
    fun hnamed count hcount => ⟨fun k hk => ?_, ?_⟩⟩
  · have hpage := (page_ofNat (nearby isBlank table area geoResults) (k := k) (by omega)).1
    refine (query_eq_iff shopCount (by omega) hnumeric hdistinct hsize).mpr ?_
    exact Or.inr ⟨hnamed, Or.inl (by omega)⟩
  · rw [← flatMap_pages]
    refine List.flatMap_congr fun k hk => ?_
    have hlt := List.mem_range.mp hk
    exact (page_ofNat _ (by omega)).2

/-- Every shop is in the table and in the area. -/
def allShops : ShopTable ℤ where
  list ids _ := ids.dedup.map fun id => ⟨id, none⟩
  mem ids _ shop h := by
    obtain ⟨id, hid, rfl⟩ := List.mem_map.mp h
    exact List.mem_dedup.mp hid
  unique ids _ := by
    rw [List.map_map]
    exact (List.map_id' ids.dedup).symm ▸ List.nodup_dedup ids

/-- Two shops at one distance and a closer one. -/
def threeNearby : List (GeoResult ℤ) := [⟨['1', '0'], 3⟩, ⟨['9'], 3⟩, ⟨['7'], 2⟩]

/-- The parameter with its default. -/
def sortText (sortBy : Option Text) : Text := sortBy.getD "distance".toList

/-- GEO takes no such point. -/
def noCoordinate (x y : ℤ) : Bool := decide (x < -180 ∨ x > 180 ∨ y < -90 ∨ y > 90)

theorem nearby_page_iff_threeNearby :
    queryShopsByDistance List.isEmpty allShops (some true) 3 (some threeNearby) 1 none =
      .ok (page (nearby List.isEmpty allShops none threeNearby) 1) :=
  (nearby_page_iff List.isEmpty sortText noCoordinate (some 1) (some 120) (some 30) none allShops 3
    threeNearby none 1 (by decide) (by decide +kernel) (by decide +kernel) (by decide)).1.mpr
    (Or.inr ⟨by unfold NamedById; decide +kernel, Or.inl (by decide)⟩)

example : nearby List.isEmpty allShops none threeNearby =
    [⟨7, some 2000⟩, ⟨9, some 3000⟩, ⟨10, some 3000⟩] := by decide +kernel

/-- **A page far behind the last shop** is accepted, and its first index is negative in `int`: the
query fails, where the page is empty. -/
theorem high_page_fails :
    validateShopQuery sortText noCoordinate (some 1) (some 429496731) (some 120) (some 30) none =
        none ∧
      page (nearby List.isEmpty allShops none threeNearby) 429496731 = [] ∧
      queryShopsByDistance List.isEmpty allShops (some true) 3 (some threeNearby) 429496731 none =
        .fail "附近商户服务暂不可用，请稍后重试".toList := by
  refine ⟨by decide, ?_, by decide +kernel⟩
  rw [page, List.drop_eq_nil_of_le, List.take_nil]
  decide +kernel

end Hmdp.ShopQuery
