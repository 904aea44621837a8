import Hmdp.Lib.Machine
import Hmdp.Lib.Table
import Hmdp.Lib.SortedSet
import Hmdp.Lib.Decimal
import Hmdp.Model.Types
import Hmdp.Model.Codec
import Hmdp.Model.Mysql
import Hmdp.Model.Redis
import Hmdp.Model.Consumer
import Hmdp.Consumer.Persist
import Hmdp.Consumer.OnePerUser
import Hmdp.Consumer.Idempotence
import Hmdp.Model.Cancel
import Hmdp.Cancel.Rollback
import Hmdp.Model.IdSegment
import Hmdp.IdSegment.Unique
import Hmdp.Model.Handoff
import Hmdp.Model.Recovery
import Hmdp.Lib.Reservation
import Hmdp.Pipeline.Coherent
import Hmdp.Pipeline.Handover
import Hmdp.Pipeline.Effect
import Hmdp.Pipeline.Conservation
import Hmdp.Pipeline.Custody
import Hmdp.Pipeline.Purchase
import Hmdp.Cancel.Flight
import Hmdp.Cancel.OnePurchase
import Hmdp.Lib.LinkedSet
import Hmdp.Pipeline.Fence
import Hmdp.Model.Reconciliation
import Hmdp.Reconcile.Step
import Hmdp.Reconcile.Held
import Hmdp.Reconcile.Stock
import Hmdp.Reconcile.Buyers
import Hmdp.Outbox.Row
import Hmdp.Pipeline.Completed
import Hmdp.Pipeline.ManualReview
import Hmdp.Model.OrderStatus
import Hmdp.Pipeline.Visible
import Hmdp.Reconcile.Tokens
import Hmdp.Model.OutboxRelay
import Hmdp.Outbox.Lease
import Hmdp.Handoff.Batch
import Hmdp.Handoff.OneByOne
import Hmdp.Lib.TokenBucket
import Hmdp.Model.TokenBucket
import Hmdp.RateLimit.Bound
import Hmdp.Lib.RwLock
import Hmdp.Model.ShopCache
import Hmdp.Shop.Step
import Hmdp.Shop.Coherent
import Hmdp.Model.VoucherCache
import Hmdp.Voucher.Step
import Hmdp.Voucher.Metadata
import Hmdp.Voucher.LocalCache
import Hmdp.Bloom.Voucher
import Hmdp.Bloom.Shop
import Hmdp.AccessToken.SingleUse
import Hmdp.Model.InvalidationOutbox
import Hmdp.Invalidation.Retries
import Hmdp.Lib.Expiring
import Hmdp.Model.Login
import Hmdp.Login.Step
import Hmdp.Login.Revoked
import Hmdp.Login.OneToken
import Hmdp.Reconcile.Timed
import Hmdp.Reconcile.Publish
import Hmdp.Reconcile.Outstanding
import Hmdp.Lib.InFlight
import Hmdp.Model.StockAdjustment
import Hmdp.Stock.Step
import Hmdp.Stock.InStep
import Hmdp.Creation.Step
import Hmdp.Creation.AllOrNothing
import Hmdp.Consumer.Effect
import Hmdp.Handoff.Upsert
import Hmdp.Model.GroupCommit
import Hmdp.GroupCommit.Answered
import Hmdp.Model.Dispatch
import Hmdp.Outbox.Verdict
import Hmdp.IdSegment.RedisIds
import Hmdp.Shop.SingleFlight
import Hmdp.Lib.Paging
import Hmdp.Model.Feed
import Hmdp.Feed.Scroll
import Hmdp.Model.Social
import Hmdp.Social.Agree
import Hmdp.Model.Notification
import Hmdp.Notification.Step
import Hmdp.Notification.Inbox
import Hmdp.Notification.Unread
import Hmdp.Handoff.Member
import Hmdp.CacheClient.Mutex
import Hmdp.Lib.Path
import Hmdp.Model.Upload
import Hmdp.Upload.Contained
import Hmdp.Lib.Ranking
import Hmdp.Lib.Tally
import Hmdp.Model.TopBuyer
import Hmdp.TopBuyer.Query
import Hmdp.TopBuyer.Score
import Hmdp.Model.ShopQuery
import Hmdp.Shop.Nearby
import Hmdp.Model.Subscription
import Hmdp.Subscription.Queue
import Hmdp.Subscription.Status
import Hmdp.Model.Reminder
import Hmdp.Reminder.Kept
import Hmdp.Model.GeoIndex
import Hmdp.Geo.Index
import Hmdp.Lib.Reaches
import Hmdp.Lib.Refinement
import Hmdp.Pipeline.Progress
import Hmdp.Pipeline.Realised
import Hmdp.Lib.History
import Hmdp.Model.Account
import Hmdp.Model.Interceptor
import Hmdp.Web.Authenticated
import Hmdp.Web.Leaked
import Hmdp.Lib.Bits
import Hmdp.Lib.Supply
import Hmdp.Model.SignIn
import Hmdp.Pipeline.Generated
import Hmdp.SignIn.Count
import Hmdp.Delivery.Custody
import Hmdp.Broadcast.Accounted
import Hmdp.Broadcast.CaughtUp
import Hmdp.Reconcile.Repair
import Hmdp.Reconcile.Sale
import Hmdp.Notification.Latest

