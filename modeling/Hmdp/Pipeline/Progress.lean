import Hmdp.Handoff.OneByOne
import Hmdp.Lib.Reaches
import Hmdp.Model.OutboxRelay
import Hmdp.Pipeline.Completed
import Hmdp.Pipeline.Sale

/-!
# Every accepted order can be brought to rest

Whatever has crashed, failed or been delivered out of order before, the background alone can bring
every accepted order to where it stays: into `tb_voucher_order`, into quarantine when MySQL rejects
its row, or it is already in manual review. `Background` says what the background does:

* a relay restarts, fetches its configured number of members of a handoff set, and runs its tasks;
* the relay of the outbox claims what `findDispatchable` returns, under its owner and lease, and
  sends rows it holds the lease of;
* the consumer is handed the message sent last.

No order is placed, none is cancelled and nobody intervenes by hand. Each round makes less of what
is left: a round over a handoff set empties it of what was fetched (`drain_round`), and a claim with
its sends and deliveries leaves fewer rows to claim (`relay_round`). A transaction of one fresh
order never fails, since the balance of the stocks covers it (`deliver`).

* **`accepted_order_can_rest`**.
-/

namespace Hmdp.Pipeline

open Hmdp.Lib Hmdp.Model Hmdp.Outbox

variable {rejects : Reservation → Bool} {s t : State}

/-- What the background does: `limit` is the batch size of the handoff relay, `owner` the name of
the outbox relay, and no clock is behind `earliest`. -/
def Background (limit : ℕ) (config : RelayConfig) (owner : Text) (earliest : Time) (s : State) :
    Action → Prop
  | .crash _ | .relayTask _ => True
  | .fetch _ _ n now => n = limit ∧ earliest ≤ now
  | .claimRelayBatch ids o leaseUntil now => o = owner ∧ earliest ≤ now ∧
      ids = (findDispatchable config.batchSize now s.db).map (fun e => e.id) ∧
      leaseUntil = now + config.relayLeaseSeconds
  | .send row _ => row.relayOwner = some owner
  | .createOrders _ messages => messages = s.kafka.take 1
  | _ => False

variable {limit : ℕ} {config : RelayConfig} {owner : Text} {earliest : Time}

/-! ## What holds before and after -/

/-- The invariants of the pipeline that progress rests on. -/
structure Sane (rejects : Reservation → Bool) (s : State) : Prop where
  coherent : Coherent rejects s
  onSale : ∀ r ∈ s.granted, ∃ n, s.redis.stock r.voucherId = some n
  balanced : ∀ v n, s.redis.stock v = some n → Balanced v s

/-- No step removes or adds the stock key of a voucher. -/
theorem stock_isSome_step {a : Action} (hs : Coherent rejects s)
    (hstep : step rejects s a = some t) (v : VoucherId) :
    (t.redis.stock v).isSome = (s.redis.stock v).isSome := by
  cases step_effect hs hstep with
  | quiet stores granted => rw [stores.stock]
  | reserved c n _ _ _ stock _ _ _ redis _ _ =>
    rw [redis]
    by_cases hv : v = c.voucherId
    · subst hv
      simp [Redis.reserve, stock]
    · simp [Redis.reserve, hv]
  | persisted tx messages os _ _ _ redis _ => rw [redis]
  | cancelled _ order n _ _ _ _ stock redis _ =>
    rw [redis]
    by_cases hv : v = order.voucherId
    · subst hv
      simp [stock]
    · simp [hv]

theorem sane_step {a : Action} (h : Sane rejects s) (hstep : step rejects s a = some t) :
    Sane rejects t := by
  have hkey := fun v => stock_isSome_step h.coherent hstep v
  refine ⟨coherent_step h.coherent hstep, fun r hr => ?_, fun v n hn => ?_⟩
  · rw [← Option.isSome_iff_exists, hkey, Option.isSome_iff_exists]
    cases step_effect h.coherent hstep with
    | quiet _ granted => exact h.onSale r (granted ▸ hr)
    | reserved c n _ _ _ stock _ _ _ _ _ granted =>
      rw [granted] at hr
      rcases List.mem_cons.mp hr with rfl | hr
      · exact ⟨n, stock⟩
      · exact h.onSale r hr
    | persisted _ _ _ _ _ _ _ granted => exact h.onSale r (granted ▸ hr)
    | cancelled _ _ _ _ _ _ _ _ _ granted => exact h.onSale r (granted ▸ hr)
  · obtain ⟨m, hm⟩ := Option.isSome_iff_exists.mp
      ((hkey v).symm.trans (Option.isSome_iff_exists.mpr ⟨n, hn⟩))
    exact balanced_step h.coherent (h.balanced v m hm) hstep

theorem preserves_sane (P : State → Action → Prop) :
    Preserves (step rejects) P (Sane rejects) :=
  fun _ _ _ _ h hstep => sane_step h hstep

theorem Start.sane (h : Start s)
    (hstock : ∀ v n, s.redis.stock v = some n → s.db.stock v = some n ∧ 0 ≤ n) :
    Sane rejects s where
  coherent := h.coherent
  onSale r hr := absurd hr (by simp [h.granted])
  balanced v n hv := by
    obtain ⟨hdb, hn⟩ := hstock v n hv
    exact balanced_iff.mpr ⟨n, n, hv, hdb, hn, hn, by simp [h.outstandingIds]⟩

/-- The background accepts no order. -/
theorem background_granted {a : Action} (ha : Background limit config owner earliest s a)
    (hs : Coherent rejects s) (hstep : step rejects s a = some t) : t.granted = s.granted := by
  cases step_effect hs hstep with
  | quiet _ granted => exact granted
  | reserved c n action _ _ _ _ _ _ _ _ _ =>
    subst action
    exact ha.elim
  | persisted _ _ _ _ _ _ _ granted => exact granted
  | cancelled _ _ _ _ _ _ _ _ _ granted => exact granted

/-- The order is in manual review. -/
def InReview (db : Db) (r : Reservation) : Prop :=
  ∃ e ∈ db.outbox.rows, e.reservation = r ∧ e.status = .manualReview

/-- The rows a transaction of the consumer leaves: the old ones, or completed. -/
theorem mem_createOrders {tx : Transaction} {messages : List SeckillOrderMessage}
    {os : List OrderDraft} {db db' : Db} (h : createOrders tx messages db = .ok (os, db'))
    {e : OutboxRow} (he : e ∈ db'.outbox.rows) :
    e ∈ db.outbox.rows ∨ e.status = .completed := by
  obtain ⟨c, d, -, -, hp, ⟨-, rfl⟩ | rfl⟩ := createOrders_ok h
  · exact Or.inl (hp.outbox ▸ he)
  · obtain ⟨sel, heq, -⟩ := completeOutbox_eq tx c d
    rw [heq] at he
    obtain ⟨e₀, he₀, rfl⟩ := mem_updateOutbox.mp he
    split
    · exact Or.inr rfl
    · exact Or.inl (hp.outbox ▸ he₀)

/-- **The background sends nothing to manual review.** -/
theorem background_review {a : Action} (ha : Background limit config owner earliest s a)
    (hs : Coherent rejects s) (hstep : step rejects s a = some t) {r : Reservation}
    (hr : InReview t.db r) : InReview s.db r := by
  obtain ⟨e, he, rfl, hstatus⟩ := hr
  cases a with
  | crash i =>
    cases hstep
    exact ⟨e, he, rfl, hstatus⟩
  | fetch i v n now =>
    simp only [step] at hstep
    split at hstep <;> cases hstep
    exact ⟨e, he, rfl, hstatus⟩
  | relayTask i =>
    simp only [step] at hstep
    split at hstep
    · exact absurd hstep (by simp)
    rename_i task rest hi
    have htask := hs.relays i task (by simp [hi])
    split at hstep
    · cases hstep
      exact ⟨e, he, rfl, hstatus⟩
    · rename_i more redis db hrun
      cases hstep
      unfold runTask at hrun
      cases task with
      | quarantine v m reason =>
        cases hrun
        exact ⟨e, he, rfl, hstatus⟩
      | persist v events members =>
        simp only at hrun
        split at hrun
        · cases hrun
          exact ⟨e, he, rfl, hstatus⟩
        · split at hrun
          · rename_i hok
            cases hrun
            rcases mem_insertCommitted hok he with he | ⟨x, hx, -, -, hst⟩
            · exact ⟨e, he, rfl, hstatus⟩
            · rw [hst, htask.status x hx] at hstatus
              exact absurd hstatus (by simp)
          · cases hrun
            exact ⟨e, he, rfl, hstatus⟩
      | complete v events members =>
        obtain ⟨x, -, hx⟩ := Option.map_eq_some_iff.mp hrun
        cases hx
        exact ⟨e, he, rfl, hstatus⟩
  | claimRelayBatch ids o leaseUntil now =>
    cases hstep
    obtain ⟨e₀, he₀, rfl⟩ := mem_updateOutbox.mp he
    refine ⟨e₀, he₀, ?_, ?_⟩
    · split <;> rfl
    · split at hstatus <;> exact hstatus
  | send row withOutboxId =>
    simp only [step] at hstep
    split at hstep <;> cases hstep
    exact ⟨e, he, rfl, hstatus⟩
  | createOrders tx messages =>
    simp only [step] at hstep
    split at hstep
    · split at hstep
      · cases hstep
        exact ⟨e, he, rfl, hstatus⟩
      · rename_i hok
        cases hstep
        rcases mem_createOrders hok he with he | hc
        · exact ⟨e, he, rfl, hstatus⟩
        · rw [hc] at hstatus
          exact absurd hstatus (by simp)
    · exact absurd hstep (by simp)
  | _ => exact ha.elim

/-! ## The handoff sets -/

/-- The relay `i` has these tasks left. -/
def withTasks (s : State) (i : ℕ) (tasks : List RelayTask) : State :=
  { s with relays := Function.update s.relays i tasks }

/-- A relay runs its next task: it keeps to its round, and less is left. -/
theorem drain_task {now : Time} {v : VoucherId} {fetched : List Text} {stores : Redis × Db}
    {i : ℕ} {left : List Text} (hne : s.relays i ≠ [])
    (h : Handoff.Inv rejects now v fetched stores ⟨s.relays i, s.redis, s.db, left⟩) :
    ∃ t left', step rejects s (.relayTask i) = some t ∧
      Handoff.Inv rejects now v fetched stores ⟨t.relays i, t.redis, t.db, left'⟩ ∧
      ((t.relays i).map Handoff.weight).sum < ((s.relays i).map Handoff.weight).sum := by
  obtain ⟨task, rest, htasks⟩ := List.exists_cons_of_ne_nil hne
  obtain ⟨⟨more, redis, db⟩, hrun⟩ := Handoff.exists_runTask rejects
    (h.ok task (by simp [htasks])) s.redis s.db
  have hround : Handoff.step rejects ⟨s.relays i, s.redis, s.db, left⟩ 0 =
      some ⟨more ++ rest, redis, db, left ++ Handoff.takes task⟩ := by
    unfold Handoff.step
    simp only [htasks]
    rw [show Handoff.loseIds 0 s.db = s.db from rfl, hrun]
    rfl
  refine ⟨{ withTasks s i (more ++ rest) with redis := redis, db := db },
    left ++ Handoff.takes task, ?_, ?_, ?_⟩
  · simp only [step, htasks, hrun]
    rfl
  · simpa [withTasks] using Handoff.inv_step h hround
  · have hlt := Handoff.weight_step h hround
    simp only [withTasks, Function.update_self]
    simp only at hlt
    omega

/-- **A relay finishes its round**: nothing of what it has fetched is left in the handoff set. -/
theorem drain_tasks {now : Time} {v : VoucherId} {fetched : List Text} {stores : Redis × Db}
    {i : ℕ} {left : List Text}
    (h : Handoff.Inv rejects now v fetched stores ⟨s.relays i, s.redis, s.db, left⟩) :
    ∃ t, Reaches (step rejects) (Background limit config owner earliest) s t ∧
      t.redis.handoff =
        Function.update stores.1.handoff v ((stores.1.handoff v).zrem fetched).2 := by
  obtain ⟨t, ht, ⟨left', hinv⟩, hdone⟩ := reaches_of_rank
    (step rejects) (Background limit config owner earliest)
    (fun s => ∃ left, Handoff.Inv rejects now v fetched stores
      ⟨s.relays i, s.redis, s.db, left⟩)
    (fun s => s.relays i = []) (fun s => ((s.relays i).map Handoff.weight).sum)
    (fun s hs hne => by
      obtain ⟨left, hinv⟩ := hs
      obtain ⟨t, left', hstep, hinv', hlt⟩ := drain_task hne hinv
      exact ⟨t, .single (a := .relayTask i) trivial hstep, ⟨left', hinv'⟩, hlt⟩) ⟨left, h⟩
  refine ⟨t, ht, ?_⟩
  have hmembers := hinv.members
  rw [hdone, List.flatMap_nil, List.append_nil] at hmembers
  rw [hinv.handoff, ZSet.zrem_congr _ fun x => hmembers.mem_iff]

/-- **A round over a handoff set.** -/
theorem drain_round (v : VoucherId) (i : ℕ) (s : State) :
    ∃ t, Reaches (step rejects) (Background limit config owner earliest) s t ∧
      t.redis.handoff = Function.update s.redis.handoff v
        ((s.redis.handoff v).zrem ((s.redis.handoff v).range limit)).2 := by
  have hfetch : step rejects (withTasks s i []) (.fetch i v limit earliest) =
      some (withTasks s i (fetchTasks earliest v ((s.redis.handoff v).range limit))) := by
    simp only [step, withTasks, Function.update_self, Function.update_idem]
  have hinv := @Handoff.inv_begin rejects earliest v ((s.redis.handoff v).range limit)
    (s.redis, s.db) ((List.take_sublist _ _).nodup (s.redis.handoff v).members_nodup)
  obtain ⟨t, ht, hhandoff⟩ := @drain_tasks rejects
    (withTasks s i (fetchTasks earliest v ((s.redis.handoff v).range limit))) limit config owner
    earliest earliest v _ (s.redis, s.db) i [] (by simpa [Handoff.begin, withTasks] using hinv)
  refine ⟨t, ?_, hhandoff⟩
  have hrestart : Reaches (step rejects) (Background limit config owner earliest) s
      (withTasks s i []) := .single (a := .crash i) trivial rfl
  exact hrestart.trans
    ((Reaches.single (a := .fetch i v limit earliest) ⟨rfl, le_refl _⟩ hfetch).trans ht)

/-- The accepted orders that are still in a handoff set. -/
def inHandoffSets (s : State) : Finset Reservation :=
  s.granted.toFinset.filter fun r => r.member ∈ (s.redis.handoff r.voucherId).members

/-- **The handoff sets can be emptied.** -/
theorem handoff_can_drain (hlimit : 0 < limit) (hs : Coherent rejects s) :
    ∃ t, Reaches (step rejects) (Background limit config owner earliest) s t ∧
      ∀ v, (t.redis.handoff v).members = [] := by
  obtain ⟨t, ht, -, hdone⟩ := reaches_of_rank
    (step rejects) (Background limit config owner earliest)
    (Coherent rejects) (fun s => ∀ v, (s.redis.handoff v).members = [])
    (fun s => (inHandoffSets s).card)
    (fun s hs hsome => by
      obtain ⟨v, hv⟩ := not_forall.mp hsome
      obtain ⟨m, rest, hm⟩ := List.exists_cons_of_ne_nil hv
      obtain ⟨t, ht, hhandoff⟩ := @drain_round rejects limit config owner earliest v 0 s
      have hcoherent : Coherent rejects t :=
        ht.keeps (fun _ _ _ _ h hstep => coherent_step h hstep) hs
      have hgranted : t.granted = s.granted :=
        (ht.keeps (I := fun u => Coherent rejects u ∧ u.granted = s.granted)
          (fun _ _ _ ha h hstep => ⟨coherent_step h.1 hstep,
            (background_granted ha h.1 hstep).trans h.2⟩) ⟨hs, rfl⟩).2
      refine ⟨t, ht, hcoherent, Finset.card_lt_card ⟨fun r hr => ?_, fun hsub => ?_⟩⟩
      · simp only [inHandoffSets, Finset.mem_filter, List.mem_toFinset, hgranted, hhandoff] at hr ⊢
        refine ⟨hr.1, ?_⟩
        by_cases hv : r.voucherId = v
        · rw [hv, Function.update_self, ZSet.mem_zrem] at hr
          exact hv ▸ hr.2.1
        · rw [Function.update_of_ne hv] at hr
          exact hr.2
      · -- the first member is fetched, so it is gone
        have hin : m ∈ (s.redis.handoff v).members := by simp [hm]
        have hfetched : m ∈ (s.redis.handoff v).range limit := by
          rw [ZSet.range, hm, ← Nat.succ_pred_eq_of_pos hlimit]
          exact List.mem_cons_self
        obtain ⟨r, hr, rfl, rfl⟩ := hs.handoff v m hin
        have hgone := hsub (Finset.mem_filter.mpr ⟨List.mem_toFinset.mpr hr, hin⟩)
        have hleft := (Finset.mem_filter.mp hgone).2
        rw [hhandoff, Function.update_self, ZSet.mem_zrem] at hleft
        exact hleft.2 hfetched) hs
  exact ⟨t, ht, hdone⟩

/-! ## The outbox and the consumer -/

/-- The distinct orders of one message. -/
theorem uniqueOrders_toMessage (e : OutboxRow) (withOutboxId : Bool) :
    uniqueOrders [e.toMessage withOutboxId] =
      [⟨e.orderId, e.voucherId, e.userId, decide (some e.autoIssued = some true)⟩] := rfl

/-- **A transaction of one fresh order** never fails. -/
theorem accepted_toMessage (hs : Sane rejects s) {e : OutboxRow} (he : e ∈ s.db.outbox.rows)
    (hn : s.db.hasOrder e.orderId = false) (tx : Transaction) (withOutboxId : Bool) :
    Accepted tx s.db [e.toMessage withOutboxId] := by
  have hgroup : ∀ v, ∀ o ∈ groupOf (uniqueOrders [e.toMessage withOutboxId]) v,
      o.id = e.orderId ∧ e.voucherId = v := by
    intro v o ho
    obtain ⟨ho, hv⟩ := mem_groupOf.mp ho
    rw [uniqueOrders_toMessage, List.mem_singleton] at ho
    subst ho
    exact ⟨rfl, hv⟩
  refine ⟨⟨?_, ?_⟩, fun v => ⟨?_, ?_⟩⟩
  · intro m hm
    rw [List.mem_singleton.mp hm]
    rfl
  · intro a ha b hb _
    simp only [drafts, List.filterMap_cons, SeckillOrderMessage.draft, OutboxRow.toMessage,
      List.filterMap_nil, List.mem_singleton] at ha hb
    rw [ha, hb]
    exact ⟨rfl, rfl⟩
  · rintro ⟨o, ho, hold⟩
    rw [(hgroup v o ho).1, hn] at hold
    exact absurd hold (by simp)
  · intro hne
    obtain ⟨o, ho⟩ := List.exists_mem_of_ne_nil _ hne
    obtain ⟨-, rfl⟩ := hgroup v o (List.mem_filter.mp ho).1
    -- the order is outstanding, so the balance has a unit for it
    obtain ⟨n, hstock⟩ := hs.onSale e.reservation (hs.coherent.outbox e he).1
    obtain ⟨r, S, hc⟩ := balanced_iff.mp (hs.balanced e.voucherId n hstock)
    have hmem : e.orderId ∈ outstandingIds e.voucherId s :=
      hs.coherent.mem_outstandingIds.mpr
        ⟨e.reservation, (hs.coherent.outbox e he).1, rfl, rfl, hn⟩
    have hpos := Finset.card_pos.mpr ⟨_, hmem⟩
    refine ⟨S, hc.mysql, ?_⟩
    have hone : (freshOrders s.db (groupOf (uniqueOrders [e.toMessage withOutboxId])
        e.voucherId)).length ≤ 1 := by
      refine (List.length_filter_le _ _).trans ((List.length_filter_le _ _).trans ?_)
      rw [uniqueOrders_toMessage]
      exact Nat.le_refl 1
    have := hc.redis_nonneg
    have := hc.balance
    omega

/-- What a delivery leaves of the outbox rows: they are as they were, or their orders exist. -/
structure Delivers (s t : State) : Prop where
  grows : Grows s.db t.db
  redis : t.redis = s.redis
  kept : ∀ e ∈ s.db.outbox.rows, e ∈ t.db.outbox.rows ∨ t.db.hasOrder e.orderId = true
  old : ∀ e ∈ t.db.outbox.rows, e ∈ s.db.outbox.rows ∨ e.status = .completed

theorem Delivers.refl (s : State) : Delivers s s :=
  ⟨Grows.refl s.db, rfl, fun _ he => Or.inl he, fun _ he => Or.inl he⟩

theorem Delivers.trans {u : State} (h : Delivers s t) (h' : Delivers t u) : Delivers s u where
  grows := h.grows.trans h'.grows
  redis := h'.redis.trans h.redis
  kept e he := by
    rcases h.kept e he with hkept | horder
    · exact h'.kept e hkept
    · exact Or.inr (h'.grows.hasOrder horder)
  old e he := (h'.old e he).elim (fun hold => h.old e hold) Or.inr

/-- **The relay sends a row it holds, and the consumer persists its order.** -/
theorem deliver (hs : Sane rejects s) {e : OutboxRow} (he : e ∈ s.db.outbox.rows)
    (howner : e.relayOwner = some owner) (hn : s.db.hasOrder e.orderId = false)
    (tx : Transaction) :
    ∃ t, Reaches (step rejects) (Background limit config owner earliest) s t ∧ Sane rejects t ∧
      Delivers s t ∧ t.db.hasOrder e.orderId = true := by
  obtain ⟨⟨os, db⟩, hok⟩ := createOrders_ok_iff.mpr (accepted_toMessage hs he hn tx true)
  have hsend : step rejects s (.send e true) =
      some { s with kafka := e.toMessage true :: s.kafka } := if_pos he
  have hcreate : step rejects { s with kafka := e.toMessage true :: s.kafka }
      (.createOrders tx [e.toMessage true]) =
        some { s with kafka := e.toMessage true :: s.kafka, db := db } := by
    simp [step, hok]
  have hreach : Reaches (step rejects) (Background limit config owner earliest) s
      { s with kafka := e.toMessage true :: s.kafka, db := db } :=
    (Reaches.single (a := .send e true) howner hsend).trans
      (.single (a := .createOrders tx [e.toMessage true]) (show _ = List.take 1 _ from rfl) hcreate)
  have hsane : Sane rejects { s with kafka := e.toMessage true :: s.kafka, db := db } :=
    sane_step (sane_step hs hsend) hcreate
  refine ⟨_, hreach, hsane, ⟨Grows.createOrders hok, rfl, fun f hf => ?_, fun f hf =>
    mem_createOrders hok hf⟩, ?_⟩
  · obtain ⟨f', hf', hchange⟩ := @changes_createOrders (fun _ => False) _ _ tx _ os hok f hf
    rcases mem_createOrders hok hf' with hold | hc
    · rw [row_unique s.db hf hold hchange.identity.1.symm]
      exact Or.inl hf'
    · have horder := hsane.coherent.completed f' hf' hc
      rw [show f'.orderId = f.orderId from
        congrArg Reservation.orderId hchange.identity.2.2] at horder
      exact Or.inr horder
  · obtain ⟨row, hrow, hid, -⟩ := createOrders_row hok
      (o := ⟨e.orderId, e.voucherId, e.userId, decide (some e.autoIssued = some true)⟩) (by
        rw [createOrders_returns hok, uniqueOrders_toMessage]
        exact List.mem_singleton_self _)
    exact Db.hasOrder_iff.mpr ⟨row, hrow, hid⟩

/-- **All the rows it holds**, one after the other. -/
theorem deliver_all (tx : Transaction) {es : List OutboxRow} (hs : Sane rejects s)
    (howner : ∀ e ∈ es, e.relayOwner = some owner)
    (hes : ∀ e ∈ es, e ∈ s.db.outbox.rows ∨ s.db.hasOrder e.orderId = true) :
    ∃ t, Reaches (step rejects) (Background limit config owner earliest) s t ∧ Sane rejects t ∧
      Delivers s t ∧ ∀ e ∈ es, t.db.hasOrder e.orderId = true := by
  induction es generalizing s with
  | nil => exact ⟨s, .refl s, hs, .refl s, by simp⟩
  | cons e es ih =>
    obtain ⟨u, hu, hsu, hdu, horder⟩ :
        ∃ u, Reaches (step rejects) (Background limit config owner earliest) s u ∧
          Sane rejects u ∧ Delivers s u ∧ u.db.hasOrder e.orderId = true := by
      by_cases hn : s.db.hasOrder e.orderId = true
      · exact ⟨s, .refl s, hs, .refl s, hn⟩
      · exact deliver hs ((hes e List.mem_cons_self).resolve_right hn)
          (howner e List.mem_cons_self) (by simpa using hn) tx
    obtain ⟨t, ht, hst, hdt, horders⟩ := ih hsu
      (fun f hf => howner f (List.mem_cons_of_mem e hf)) (fun f hf =>
        (hes f (List.mem_cons_of_mem e hf)).elim (fun hold => hdu.kept f hold)
          fun hold => Or.inr (hdu.grows.hasOrder hold))
    refine ⟨t, hu.trans ht, hst, hdu.trans hdt, fun f hf => ?_⟩
    rcases List.mem_cons.mp hf with rfl | hf
    · exact hdt.grows.hasOrder horder
    · exact horders f hf

/-- The rows that can be claimed. -/
def claimable (now : Time) (s : State) : Finset ℕ :=
  ((s.db.outbox.rows.filter fun e => e.dispatchable now).map fun e => e.id).toFinset

theorem mem_claimable {now : Time} {i : ℕ} : i ∈ claimable now s ↔
    ∃ e ∈ s.db.outbox.rows, e.dispatchable now = true ∧ e.id = i := by
  simp only [claimable, List.mem_toFinset, List.mem_map, List.mem_filter, and_assoc]

/-- Every row whose order is still missing can be claimed, or is in manual review. -/
def Due (now : Time) (s : State) : Prop :=
  ∀ e ∈ s.db.outbox.rows, e.backlog = true → s.db.hasOrder e.orderId = false →
    e.dispatchable now = true

/-- Rows are due after a while. -/
theorem exists_due (earliest : Time) (s : State) : ∃ now, earliest ≤ now ∧ Due now s := by
  have hall : ∀ es : List OutboxRow, ∃ now, earliest ≤ now ∧
      ∀ e ∈ es, e.backlog = true → e.dispatchable now = true := by
    intro es
    induction es with
    | nil => exact ⟨earliest, le_refl _, by simp⟩
    | cons e es ih =>
      obtain ⟨now, hle, hes⟩ := ih
      have hlease : ∃ later, e.backlog = true → e.dispatchable later = true := by
        refine ⟨max e.nextRetryTime (e.relayLeaseUntil.getD 0 + 1), fun hb => ?_⟩
        unfold OutboxRow.dispatchable
        cases hl : e.relayLeaseUntil with
        | none => simp [hb]
        | some t =>
          simp only [hb, Option.getD_some, Bool.true_and, Bool.and_eq_true, decide_eq_true_eq]
          exact ⟨le_max_left _ _, Int.lt_of_lt_of_le (Int.lt_succ t) (le_max_right _ _)⟩
      obtain ⟨later, hlater⟩ := hlease
      refine ⟨max now later, hle.trans (le_max_left _ _), fun f hf hb => ?_⟩
      rcases List.mem_cons.mp hf with rfl | hf
      · exact dispatchable_mono (le_max_right _ _) (hlater hb)
      · exact dispatchable_mono (le_max_left _ _) (hes f hf hb)
  obtain ⟨now, hle, hrows⟩ := hall s.db.outbox.rows
  exact ⟨now, hle, fun e he hb _ => hrows e he hb⟩

/-- **A round of the outbox relay** and the consumer behind it: rows that were claimed have their
orders, and the others are as they were. -/
theorem relay_round {now : Time} (hlease : 0 ≤ config.relayLeaseSeconds) (hle : earliest ≤ now)
    (tx : Transaction) (hs : Sane rejects s) :
    ∃ t, Reaches (step rejects) (Background limit config owner earliest) s t ∧ Sane rejects t ∧
      t.redis = s.redis ∧ Grows s.db t.db ∧
      ∀ e ∈ t.db.outbox.rows, e.status ≠ .completed →
        (e ∈ s.db.outbox.rows ∧ (e.dispatchable now = true →
          e.id ∉ (findDispatchable config.batchSize now s.db).map fun e => e.id)) ∨
        (e.dispatchable now = false ∧ t.db.hasOrder e.orderId = true) := by
  generalize hids : (findDispatchable config.batchSize now s.db).map (fun e => e.id) = ids
  have hclaim : step rejects s (.claimRelayBatch ids owner (now + config.relayLeaseSeconds) now) =
      some { s with
        db := (claimRelayBatch ids owner (now + config.relayLeaseSeconds) now s.db).2 } := rfl
  have hsu := sane_step hs hclaim
  obtain ⟨t, ht, hst, hdt, horders⟩ := @deliver_all rejects
    { s with db := (claimRelayBatch ids owner (now + config.relayLeaseSeconds) now s.db).2 }
    limit config owner earliest tx
    (findClaimedBatch ids owner
      (claimRelayBatch ids owner (now + config.relayLeaseSeconds) now s.db).2) hsu
    (fun e he => (mem_findClaimedBatch.mp he).2.1)
    (fun e he => Or.inl (mem_findClaimedBatch.mp he).1)
  refine ⟨t, ?_, hst, hdt.redis, (Grows.updateOutbox _ _ s.db).trans hdt.grows,
    fun e he hopen => ?_⟩
  · exact (Reaches.single (a := .claimRelayBatch ids owner (now + config.relayLeaseSeconds) now)
      ⟨rfl, hle, hids.symm, rfl⟩ hclaim).trans ht
  have hu := (hdt.old e he).resolve_right hopen
  obtain ⟨r, hr, hrow⟩ := mem_updateOutbox.mp hu
  split at hrow
  · rename_i hsel
    simp only [Bool.and_eq_true, decide_eq_true_eq] at hsel
    subst hrow
    refine Or.inr ⟨?_, horders _ (mem_findClaimedBatch.mpr ⟨hu, rfl, hsel.1⟩)⟩
    -- the lease it was claimed under still runs
    have hlong : ¬now + config.relayLeaseSeconds < now :=
      Int.not_lt.mpr (Int.le_add_of_nonneg_right hlease)
    simp [OutboxRow.dispatchable, hlong]
  · rename_i hsel
    subst hrow
    exact Or.inl ⟨hr, fun hd hid => hsel (by simp [hd, hid])⟩

/-- **The outbox can be worked off.** -/
theorem outbox_can_drain {now : Time} (hbatch : 0 < config.batchSize)
    (hlease : 0 ≤ config.relayLeaseSeconds) (hle : earliest ≤ now) (tx : Transaction)
    (hs : Sane rejects s) (hdue : Due now s) :
    ∃ t, Reaches (step rejects) (Background limit config owner earliest) s t ∧
      t.redis = s.redis ∧
      ∀ e ∈ t.db.outbox.rows, e.backlog = true → t.db.hasOrder e.orderId = true := by
  obtain ⟨t, ht, ⟨-, -, hredis⟩, hdone⟩ := reaches_of_rank
    (step rejects) (Background limit config owner earliest)
    (fun u => Sane rejects u ∧ Due now u ∧ u.redis = s.redis)
    (fun u => ∀ e ∈ u.db.outbox.rows, e.backlog = true → u.db.hasOrder e.orderId = true)
    (fun u => (claimable now u).card)
    (fun u hu hmore => by
      obtain ⟨hsane, hdue, hredis⟩ := hu
      obtain ⟨t, ht, hst, hredis', hgrows, hrows⟩ :=
        @relay_round rejects u limit config owner earliest now hlease hle tx hsane
      have hopen : ∀ {e : OutboxRow}, e.backlog = true → e.status ≠ .completed :=
        fun hb hc => absurd (backlog_iff.mp hb) (by simp [hc])
      refine ⟨t, ht, ⟨hst, fun e he hb hn => ?_, hredis'.trans hredis⟩,
        Finset.card_lt_card ⟨fun i hi => ?_, fun hsub => ?_⟩⟩
      · rcases hrows e he (hopen hb) with ⟨hold, -⟩ | ⟨-, horder⟩
        · refine hdue e hold hb ?_
          by_contra hc
          rw [hgrows.hasOrder (by simpa using hc)] at hn
          exact absurd hn (by simp)
        · rw [hn] at horder
          exact absurd horder (by simp)
      · obtain ⟨e, he, hd, rfl⟩ := mem_claimable.mp hi
        rcases hrows e he (hopen (backlog_of_dispatchable hd)) with ⟨hold, -⟩ | ⟨hnot, -⟩
        · exact mem_claimable.mpr ⟨e, hold, hd, rfl⟩
        · rw [hd] at hnot
          exact absurd hnot (by simp)
      · -- the first candidate is claimed, and cannot be claimed again
        obtain ⟨e, hmissing⟩ := not_forall.mp hmore
        obtain ⟨he, hb, hn⟩ : e ∈ u.db.outbox.rows ∧ e.backlog = true ∧
            u.db.hasOrder e.orderId = false := by
          simpa using hmissing
        have hfound : (u.db.outbox.rows.filter fun e => e.dispatchable now).insertionSort
            (fun a b => a.id ≤ b.id) ≠ [] := by
          refine List.ne_nil_of_mem ((List.mem_insertionSort _).mpr
            (List.mem_filter.mpr ⟨he, hdue e he hb hn⟩))
        obtain ⟨c, rest, hc⟩ := List.exists_cons_of_ne_nil hfound
        have hin : c ∈ findDispatchable config.batchSize now u.db := by
          rw [findDispatchable, hc, ← Nat.succ_pred_eq_of_pos hbatch]
          exact List.mem_cons_self
        obtain ⟨hcrow, hcd⟩ := mem_findDispatchable hin
        obtain ⟨f, hf, hfd, hid⟩ := mem_claimable.mp
          (hsub (mem_claimable.mpr ⟨c, hcrow, hcd, rfl⟩))
        rcases hrows f hf (hopen (backlog_of_dispatchable hfd)) with ⟨-, hnot⟩ | ⟨hnot, -⟩
        · exact hnot hfd (List.mem_map.mpr ⟨c, hin, hid.symm⟩)
        · rw [hfd] at hnot
          exact absurd hnot (by simp)) ⟨hs, hdue, rfl⟩
  exact ⟨t, ht, hredis, hdone⟩

/-! ## The whole way -/

/-- Where an order stays: rejected and quarantined, in `tb_voucher_order`, or in manual review. -/
inductive AtRest (rejects : Reservation → Bool) (s : State) (r : Reservation) : Prop
  | quarantined (inQuarantine : InQuarantine s.redis r) (rejected : rejects r = true)
  | ordered (row : ∃ o ∈ s.db.orders.rows,
      o.id = r.orderId ∧ o.userId = r.userId ∧ o.voucherId = r.voucherId)
  | reviewed (review : InReview s.db r)

/-- From a sane state the background can bring every accepted order to rest. -/
theorem sane_can_rest (limit : ℕ) (config : RelayConfig) (owner : Text) (earliest : Time)
    (tx : Transaction) (hlimit : 0 < limit) (hbatch : 0 < config.batchSize)
    (hlease : 0 ≤ config.relayLeaseSeconds) (hs : Sane rejects s) :
    ∃ u, Reaches (step rejects) (Background limit config owner earliest) s u ∧
      u.granted = s.granted ∧ ∀ r ∈ u.granted, AtRest rejects u r ∧
        (InReview u.db r → InReview s.db r) := by
  obtain ⟨w, hw, hempty⟩ := @handoff_can_drain rejects s limit config owner earliest hlimit
    hs.coherent
  have hsw := hw.keeps (preserves_sane _) hs
  obtain ⟨now, hle, hdue⟩ := exists_due earliest w
  obtain ⟨u, hu, hredis, hdone⟩ := @outbox_can_drain rejects w limit config owner earliest now
    hbatch hlease hle tx hsw hdue
  have hsu := hu.keeps (preserves_sane _) hsw
  obtain ⟨-, hgranted, hreview⟩ := (hw.trans hu).keeps
    (I := fun u => Coherent rejects u ∧ u.granted = s.granted ∧
      ∀ r, InReview u.db r → InReview s.db r)
    (fun _ _ _ ha h hstep => ⟨coherent_step h.1 hstep,
      (background_granted ha h.1 hstep).trans h.2.1,
      fun r hr => h.2.2 r (background_review ha h.1 hstep hr)⟩)
    ⟨hs.coherent, rfl, fun _ hr => hr⟩
  refine ⟨u, hw.trans hu, hgranted, fun r hr => ⟨?_, hreview r⟩⟩
  rcases hsu.coherent.custody r hr with hhandoff | hquarantine | houtbox
  · rw [InHandoff, hredis, hempty] at hhandoff
    exact absurd hhandoff (by simp)
  · exact .quarantined hquarantine (hsu.coherent.rejects_of_inQuarantine hquarantine).2
  · obtain ⟨e, he, rfl⟩ := houtbox
    have hordered : u.db.hasOrder e.orderId = true → AtRest rejects u e.reservation := by
      intro horder
      obtain ⟨o, ho, hid⟩ := Db.hasOrder_iff.mp horder
      obtain ⟨huser, hvoucher⟩ := hsu.coherent.order_of_row he ho hid
      exact .ordered ⟨o, ho, hid, huser, hvoucher⟩
    cases hstatus : e.status with
    | pending => exact hordered (hdone e he (backlog_iff.mpr (Or.inl hstatus)))
    | sent => exact hordered (hdone e he (backlog_iff.mpr (Or.inr hstatus)))
    | completed => exact hordered (hsu.coherent.completed e he hstatus)
    | manualReview => exact .reviewed ⟨e, he, rfl, hstatus⟩

/-- **Every accepted order can be brought to rest.** From every state that a run from a start
reaches, where MySQL started with the stocks of Redis, the background alone can reach a state with
the same accepted orders where each of them is at rest; and only those are in manual review that
were there before. -/
theorem accepted_order_can_rest (rejects : Reservation → Bool) {limit : ℕ} {config : RelayConfig}
    (owner : Text) (earliest : Time) (tx : Transaction) (hlimit : 0 < limit)
    (hbatch : 0 < config.batchSize) (hlease : 0 ≤ config.relayLeaseSeconds) {s t : State}
    {as : List Action} (hstart : Start s)
    (hstock : ∀ v n, s.redis.stock v = some n → s.db.stock v = some n ∧ 0 ≤ n)
    (hrun : run (step rejects) s as = some t) :
    ∃ u, Reaches (step rejects) (Background limit config owner earliest) t u ∧
      u.granted = t.granted ∧ ∀ r ∈ u.granted, AtRest rejects u r ∧
        (InReview u.db r → InReview t.db r) :=
  sane_can_rest limit config owner earliest tx hlimit hbatch hlease
    (run_invariant' (fun _ _ _ h hstep => sane_step h hstep) (hstart.sane hstock) hrun)

/-- Two orders, of which MySQL refuses the second; the relay has committed nothing yet when it
stops. -/
def stoppedRelay : List Action :=
  [buy 1 5, buy 2 6, .fetch 0 7 10 0, .relayTask 0, .crash 0]

theorem accepted_order_can_rest_stopped_relay :
    ∃ t, run (step fun r => r.orderId = 2) (onSale 2) stoppedRelay = some t ∧
      ∃ u, Reaches (step fun r => r.orderId = 2)
          (Background 10 ⟨100, 30, 60, ⟨1, 300⟩⟩ [] 5) t u ∧
        u.granted = t.granted ∧ ∀ r ∈ u.granted, AtRest (fun r => r.orderId = 2) u r ∧
          (InReview u.db r → InReview t.db r) := by
  obtain ⟨t, ht⟩ := Option.isSome_iff_exists.mp
    (show (run (step fun r => r.orderId = 2) (onSale 2) stoppedRelay).isSome = true by
      decide +kernel)
  exact ⟨t, ht, accepted_order_can_rest (fun r => r.orderId = 2) [] 5 atZero (by omega) (by simp)
    (by simp) (start_onSale 2) (stock_onSale (by omega)) ht⟩

end Hmdp.Pipeline
