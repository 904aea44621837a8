import Hmdp.Model.Mysql
import Hmdp.Model.Redis

/-!
# `querySeckillOrderStatus`

The query of an order's status reads `tb_voucher_order`, then the outbox, then the accepted hash,
and answers at the first of them that has the order. Each read is one step over the stores as they
are at that moment (`StatusQuery.advance`).
-/

namespace Hmdp.Model

/-- `SeckillOrderStatus`, as far as the query answers with it. -/
inductive SeckillOrderStatus where
  | processing
  | success
  | cancelled
  | manualReview
  deriving DecidableEq

/-- `Result.fail` with its message, or `Result.ok` with a `SeckillOrderStatusDTO`. -/
inductive StatusAnswer where
  | fail (message : String)
  | ok (orderId : OrderId) (status : SeckillOrderStatus) (message : String)
  deriving DecidableEq

/-- The answer to a query of somebody else's order. -/
def StatusAnswer.notYours : StatusAnswer := .fail "订单处理结果不存在"

/-- The answer when none of the three places has the order. -/
def StatusAnswer.nowhere : StatusAnswer := .fail "订单处理结果不存在或尚未完成可靠受理"

/-- The answer says that the order result does not exist. -/
def StatusAnswer.missing (a : StatusAnswer) : Prop := a = notYours ∨ a = nowhere

/-- The next read of a query, or its answer. -/
inductive QueryPhase where
  | order
  | outbox
  | accepted
  | answered (answer : StatusAnswer)
  deriving DecidableEq

/-- A `querySeckillOrderStatus` under way. -/
structure StatusQuery where
  orderId : OrderId
  userId : UserId
  phase : QueryPhase
  deriving DecidableEq

/-- The answer once the order row is found. -/
def orderAnswer (userId : UserId) (order : VoucherOrder) : StatusAnswer :=
  if userId ≠ order.userId then .notYours
  else if order.status = .cancelled then .ok order.id .cancelled "订单已取消"
  else .ok order.id .success "订单创建成功"

/-- The answer once the outbox row is found. -/
def outboxAnswer (userId : UserId) (outbox : OutboxRow) : StatusAnswer :=
  if userId ≠ outbox.userId then .notYours
  else if outbox.status = .manualReview then
    .ok outbox.orderId .manualReview "订单处理异常，已进入人工核对"
  else .ok outbox.orderId .processing "订单正在排队处理中"

/-- The answer to what the accepted hash has. -/
def acceptedAnswer (orderId : OrderId) (userId : UserId) : Option Text → StatusAnswer
  | none => .nowhere
  | some accepted =>
    match accepted.splitOn '|' with
    | [user, _] =>
      if userId.toText ≠ user then .notYours
      else .ok orderId .processing "订单正在排队处理中"
    | _ => .notYours

/-- The next read of the query. -/
def StatusQuery.advance (q : StatusQuery) (redis : Redis) (db : Db) : StatusQuery :=
  match q.phase with
  | .order =>
    match selectById q.orderId db with
    | some order => { q with phase := .answered (orderAnswer q.userId order) }
    | none => { q with phase := .outbox }
  | .outbox =>
    match findByOrderId q.orderId db with
    | some outbox => { q with phase := .answered (outboxAnswer q.userId outbox) }
    | none => { q with phase := .accepted }
  | .accepted =>
    { q with phase := .answered (acceptedAnswer q.orderId q.userId (redis.accepted q.orderId)) }
  | .answered _ => q

/-- The value of the accepted hash has the user first. -/
theorem splitOn_acceptedValue (r : Reservation) :
    (acceptedValue r).splitOn '|' = [r.userId.toText, r.voucherId.toText] := by
  have hsep : ∀ l ∈ [r.userId.toText, r.voucherId.toText], '|' ∉ l := by
    intro l hl
    rcases List.mem_cons.mp hl with rfl | hl
    · exact Long.separator_not_mem_toText r.userId
    · rw [List.mem_singleton.mp hl]
      exact Long.separator_not_mem_toText r.voucherId
  rw [← List.splitOn_intercalate '|' hsep (by simp)]
  simp [acceptedValue, List.intercalate, List.intersperse]

theorem orderAnswer_owner (order : VoucherOrder) :
    ¬(orderAnswer order.userId order).missing := by
  unfold orderAnswer StatusAnswer.missing StatusAnswer.notYours StatusAnswer.nowhere
  rw [if_neg (by simp)]
  split <;> simp

theorem outboxAnswer_owner (outbox : OutboxRow) :
    ¬(outboxAnswer outbox.userId outbox).missing := by
  unfold outboxAnswer StatusAnswer.missing StatusAnswer.notYours StatusAnswer.nowhere
  rw [if_neg (by simp)]
  split <;> simp

theorem acceptedAnswer_owner (r : Reservation) :
    ¬(acceptedAnswer r.orderId r.userId (some (acceptedValue r))).missing := by
  unfold acceptedAnswer StatusAnswer.missing StatusAnswer.notYours StatusAnswer.nowhere
  simp only [splitOn_acceptedValue]
  simp

end Hmdp.Model
