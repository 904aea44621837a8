import Hmdp.Lib.Ranking
import Hmdp.Model.Codec
import Hmdp.Model.ShopCache
import Mathlib.Data.Prod.Lex

/-!
# The shops nearby

`ShopServiceImpl.validateShopQuery`, `queryShopsByDistance` and `pageDistanceResults`. Pages are
computed in `int`. `ok` is `Result.ok` with its data, `fail` is `Result.fail` with its message, and
`none` stands for a `RuntimeException`.

* `Double` is any type with the order of `Double.compare` and a product.
* `StrUtil.isBlank`, the normal form of `sortBy` (`blankToDefault`, then `toLowerCase`) and the
  comparisons of the coordinates are parameters.
* What the database has and selects by the area is `ShopTable`; its rows come in any order.
-/

namespace Hmdp.Model

open Hmdp.Lib

/-- A result of the search: the member and its distance in kilometres. -/
structure GeoResult (Double : Type) where
  name : Text
  distance : Double

/-- A `Shop`, as far as the query looks at it; `distance` is not a column. -/
structure ShopRow (Double : Type) where
  id : ShopId
  distance : Option Double
  deriving DecidableEq

/-- The answers to `query().in("id", ids).eq("area", area).list()`. -/
structure ShopTable (Double : Type) where
  list : List ShopId → Option Text → List (ShopRow Double)
  /-- `id IN (…)` -/
  mem : ∀ ids area, ∀ shop ∈ list ids area, shop.id ∈ ids
  /-- the primary key -/
  unique : ∀ ids area, ((list ids area).map ShopRow.id).Nodup

/-- The `Result` of the query. -/
inductive ShopResult (Double : Type) where
  | ok (data : List (ShopRow Double))
  | fail (errorMsg : Text)
  deriving DecidableEq

/-- `SystemConstants.DEFAULT_PAGE_SIZE`. -/
def defaultPageSize : Int32 := 5

/-- `validateShopQuery`: the message of the failure. -/
def validateShopQuery {Double : Type} (normalSort : Option Text → Text)
    (outside : Double → Double → Bool) (typeId current : Option Int32) (x y : Option Double)
    (sortBy : Option Text) : Option Text :=
  if ∀ id ∈ typeId, id ≤ 0 then some "店铺类型不正确".toList
  else if ∀ page ∈ current, page ≤ 0 then some "页码必须大于0".toList
  else if normalSort sortBy ∉ ["distance".toList, "comments".toList, "score".toList] then
    some "不支持的排序方式".toList
  else if x.isNone ≠ y.isNone then some "经纬度必须同时提供".toList
  else
    match x, y with
    | some x, some y => if outside x y then some "经纬度不正确".toList else none
    | _, _ => none

/-- `Long.parseLong` of the name. -/
def GeoResult.parse {Double : Type} (result : GeoResult Double) :
    Option (GeoResult Double × ShopId) :=
  (Long.valueOf result.name).map fun id => (result, id)

/-- `distanceMap`: the distances by name. -/
def distanceMap {Double : Type} (orderedResults : List (GeoResult Double × ShopId)) :
    Text → Option Double :=
  putAll (orderedResults.map fun result => (result.1.name, result.1.distance)) fun _ => none

/-- `rankMap`: the positions of the ids. -/
def rankMap (ids : List ShopId) : ShopId → Option ℕ := putAll ids.zipIdx fun _ => none

section

variable {Double : Type} [LinearOrder Double] [Mul Double] [OfNat Double 1000]

/-- `comparingDouble(distance).thenComparingLong(id)`. -/
def distanceKey (result : GeoResult Double × ShopId) : Double ×ₗ ℤ :=
  toLex (result.1.distance, result.2.toInt)

/-- A shop with its distance in metres; a missing distance is the `NullPointerException`. -/
def ShopRow.setDistance (shop : ShopRow Double) (distances : Text → Option Double) :
    Option (ShopRow Double) :=
  (distances shop.id.toText).map fun distance => { shop with distance := some (distance * 1000) }

/-- The shops the database returns, in the order of their results. Each has a rank, since its id is
one of `ids`. -/
def rankedShops (isBlank : Text → Bool) (table : ShopTable Double) (area : Option Text)
    (orderedResults : List (GeoResult Double × ShopId)) : Option (List (ShopRow Double)) :=
  let ids := orderedResults.map Prod.snd
  let shops := sortOn (fun shop => (rankMap ids shop.id).getD 0)
    (table.list ids (area.filter (!isBlank ·)))
  shops.mapM fun shop => shop.setDistance (distanceMap orderedResults)

/-- `shops.subList(fromIndex, toIndex)`; `none` is the `IndexOutOfBoundsException`, or the
`IllegalArgumentException` when the indices are the wrong way round. -/
def subList {α : Type} (xs : List α) (fromIndex toIndex : ℤ) : Option (List α) :=
  if 0 ≤ fromIndex ∧ fromIndex ≤ toIndex ∧ toIndex ≤ xs.length then
    some ((xs.drop fromIndex.toNat).take (toIndex - fromIndex).toNat)
  else none

/-- The page of the shops. -/
def pageOf {α : Type} (shops : List α) (current : Int32) : Option (List α) :=
  let fromIndex := (current - 1) * defaultPageSize
  if (shops.length : ℤ) ≤ fromIndex.toInt then some []
  else subList shops fromIndex.toInt (min (fromIndex + defaultPageSize).toInt shops.length)

/-- `pageDistanceResults`; without results `IN ()` is no SQL. -/
def pageDistanceResults (isBlank : Text → Bool) (table : ShopTable Double)
    (geoResults : List (GeoResult Double)) (current : Int32) (area : Option Text) :
    Option (List (ShopRow Double)) :=
  if geoResults.isEmpty then none
  else
    (geoResults.mapM GeoResult.parse).bind fun results =>
      (rankedShops isBlank table area (sortOn distanceKey results)).bind fun shops =>
        pageOf shops current

/-- `queryShopsByDistance`: `hasGeoIndex` and `results` are what Redis answers, `shopCount` is the
count of the type's rows. -/
def queryShopsByDistance (isBlank : Text → Bool) (table : ShopTable Double)
    (hasGeoIndex : Option Bool) (shopCount : ℕ) (results : Option (List (GeoResult Double)))
    (current : Int32) (area : Option Text) : ShopResult Double :=
  if hasGeoIndex ≠ some true then
    if 0 < shopCount then .fail "附近商户索引暂不可用，请稍后重试".toList else .ok []
  else
    match results with
    | none | some [] => .ok []
    | some geoResults =>
      match pageDistanceResults isBlank table geoResults current area with
      | none => .fail "附近商户服务暂不可用，请稍后重试".toList
      | some page => .ok page

end

end Hmdp.Model
