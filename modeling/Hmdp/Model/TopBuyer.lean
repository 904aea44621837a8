import Hmdp.Lib.Ranking
import Hmdp.Lib.SortedSet
import Hmdp.Lib.Tally
import Hmdp.Model.Codec
import Hmdp.Model.Login
import Hmdp.Model.ShopCache
import Mathlib.Data.Char
import Mathlib.Data.Finset.Basic

/-!
# The top buyers of a shop

`SeckillTopBuyerServiceImpl`: a sorted set per shop and day counts the orders of each user
(`recordSuccessfulOrder`, `rollbackCancelledOrder`), and `queryTopBuyers` adds the days up and
ranks the users. The scripts `seckill_top_buyer_record.lua` and `seckill_top_buyer_rollback.lua`
are functions on the keys they touch.

* Scores count orders: they are integers that a `double` holds.
* A day is the number of a `LocalDate`; its eight digits are one name per day.
* Keys do not expire, so `ttlMillis` is left out.
-/

namespace Hmdp.Model

open Hmdp.Lib

/-- A date, in days. -/
abbrev Day := ℤ

/-- The keys of the top buyers; both name the shop in their hash tag. -/
structure TopBuyers where
  /-- `seckill:shop:top-buyers:daily:{<shop>}:<day>`. -/
  daily : ShopId → Day → ZSet Text
  /-- `seckill:shop:top-buyers:recorded:{<shop>}:<order>`. -/
  recorded : Finset (ShopId × OrderId)

/-- Nothing has been recorded. -/
def TopBuyers.empty : TopBuyers := ⟨fun _ _ => ZSet.empty, ∅⟩

/-- The set of a shop and day, replaced. -/
def TopBuyers.setDaily (s : TopBuyers) (shopId : ShopId) (day : Day) (z : ZSet Text) : TopBuyers :=
  { s with daily := Function.update s.daily shopId (Function.update (s.daily shopId) day z) }

/-! ## The scripts -/

/-- `seckill_top_buyer_record.lua`, with what it returns. -/
def recordLua (shopId : ShopId) (orderId : OrderId) (day : Day) (userId : UserId) (s : TopBuyers) :
    ℤ × TopBuyers :=
  if (shopId, orderId) ∈ s.recorded then (0, s)
  else
    let daily := (s.daily shopId day).zincrby 1 userId.toText
    (1, { s.setDaily shopId day daily with recorded := insert (shopId, orderId) s.recorded })

/-- `seckill_top_buyer_rollback.lua`, with what it returns. -/
def rollbackLua (shopId : ShopId) (day : Day) (userId : UserId) (s : TopBuyers) : ℤ × TopBuyers :=
  match (s.daily shopId day).score userId.toText with
  | none => (0, s)
  | some score =>
    let daily := (s.daily shopId day).zincrby (-1) userId.toText
    if score - 1 ≤ 0 then (1, s.setDaily shopId day (daily.zrem [userId.toText]).2)
    else (1, s.setDaily shopId day daily)

/-! ## The callbacks of the consumer and of the cancellation -/

/-- The fields of a `VoucherOrder` that the callbacks read; each may be null. -/
structure MarketingOrder where
  id : Option OrderId
  userId : Option UserId
  voucherId : Option VoucherId
  createTime : Option Time
  deriving DecidableEq

/-- The order of `createOrders`, which has no `createTime` yet. -/
def OrderDraft.marketing (order : OrderDraft) : MarketingOrder :=
  ⟨some order.id, some order.userId, some order.voucherId, none⟩

/-- A row, as `selectActiveOrder` gives it. -/
def VoucherOrder.marketing (order : VoucherOrder) : MarketingOrder :=
  ⟨some order.id, some order.userId, some order.voucherId, some order.createTime⟩

/-- Where the shop of a voucher is looked up. -/
structure VoucherShops where
  /-- The field `shopId` of `seckill:meta:<voucher>`. -/
  cached : VoucherId → Option Text
  /-- The row of `tb_voucher` with its `shop_id`, which may be NULL. -/
  voucher : VoucherId → Option (Option ShopId)

/-- `resolveShopId`. -/
def resolveShopId (shops : VoucherShops) (voucherId : VoucherId) : Option ShopId :=
  match (shops.cached voucherId).bind Long.valueOf with
  | some shopId => some shopId
  | none => (shops.voucher voucherId).bind id

/-- The `LocalDate` of a time, which counts the seconds of the local clock. -/
def toLocalDate (time : Time) : Day := time / 86400

/-- The day of `resolveOrderTime`, with `LocalDateTime.now()`. -/
def resolveOrderDay (now : Time) (order : MarketingOrder) : Day :=
  toLocalDate (order.createTime.getD now)

/-- `recordSuccessfulOrder`; `isValidOrder` is that no id is null. -/
def recordSuccessfulOrder (enabled : Bool) (shops : VoucherShops) (now : Time)
    (order : MarketingOrder) (s : TopBuyers) : TopBuyers :=
  match enabled, order.id, order.userId, order.voucherId with
  | true, some id, some userId, some voucherId =>
    match resolveShopId shops voucherId with
    | none => s
    | some shopId => (recordLua shopId id (resolveOrderDay now order) userId s).2
  | _, _, _, _ => s

/-- `rollbackCancelledOrder`. -/
def rollbackCancelledOrder (enabled : Bool) (shops : VoucherShops) (now : Time)
    (order : MarketingOrder) (s : TopBuyers) : TopBuyers :=
  match enabled, order.id, order.userId, order.voucherId with
  | true, some _, some userId, some voucherId =>
    match resolveShopId shops voucherId with
    | none => s
    | some shopId => (rollbackLua shopId (resolveOrderDay now order) userId s).2
  | _, _, _, _ => s

/-! ## The query -/

/-- A line of the list. -/
structure TopBuyerDTO where
  userId : UserId
  nickName : Option Text
  icon : Option Text
  level : Int32
  score : ℤ
  deriving DecidableEq

/-- `tb_user` and `tb_user_info`. -/
structure UserTables where
  user : UserId → Option User
  userInfo : UserId → Option UserInfo

/-- The tuples that name a user; `NumberFormatException` skips the others. -/
def usersOf (tuples : List (ℤ × Text)) : List (UserId × ℤ) :=
  tuples.filterMap fun tuple => (Long.valueOf tuple.2).map fun userId => (userId, tuple.1)

/-- `Math.max(limit * 2, limit)`, in `int`. -/
def perDayLimit (limit : Int32) : Int32 := max (limit * 2) limit

/-- `aggregateScores`; `now dayOffset` is what `LocalDate.now()` gives in that round of the loop. -/
def aggregateScores (now : ℕ → Day) (shopId : ShopId) (days limit : Int32) (s : TopBuyers) :
    List (UserId × ℤ) :=
  tally ((List.range days.toInt.toNat).flatMap fun dayOffset =>
    usersOf ((s.daily shopId (now dayOffset - dayOffset)).revRange
      (perDayLimit limit).toInt.toNat))

/-- `comparingByValue(reverseOrder()).thenComparing(comparingByKey())`. -/
def rankingKey (entry : UserId × ℤ) : ℤᵒᵈ ×ₗ ℤ := toLex (OrderDual.toDual entry.2, entry.1.toInt)

/-- One round of the loop over the ranking. The conditional has type `int`, so a NULL `level` is
unboxed and throws. -/
def topBuyer (tables : UserTables) (entry : UserId × ℤ) : Option TopBuyerDTO :=
  let user := tables.user entry.1
  let level := match tables.userInfo entry.1 with
    | none => some 0
    | some userInfo => userInfo.level
  level.map fun level =>
    { userId := entry.1
      nickName := user.bind User.nickName
      icon := user.bind User.icon
      level := level
      score := entry.2 }

/-- `queryTopBuyers`; `none` for the `NullPointerException`. -/
def queryTopBuyers (tables : UserTables) (now : ℕ → Day) (shopId : Option ShopId)
    (days limit : Int32) (s : TopBuyers) : Option (List TopBuyerDTO) :=
  match shopId with
  | none => some []
  | some shopId =>
    if days ≤ 0 ∨ limit ≤ 0 then some []
    else
      let ranking := sortOn rankingKey (aggregateScores now shopId days limit s)
      (ranking.take limit.toInt.toNat).mapM (topBuyer tables)

end Hmdp.Model
