import Hmdp.Pipeline.Coherent

/-!
# Every step hands an order over whole

The actions that move accepted orders between the stores, each of which keeps `Coherent`: the
reservation, the completion and the quarantine of handoff members, the outbox insert, the
consumer's transaction and the cancellation. A relay's task is one of the middle three; the
isolation of a refused batch ends at the single rows MySQL rejects, because nothing else can
refuse the rows of accepted orders.

* **`coherent_step`**, **`coherent_run`**: so every run keeps it.
-/

namespace Hmdp.Pipeline

open Hmdp.Lib Hmdp.Model

variable {rejects : Reservation → Bool} {s t : State}

/-! ## The reservation -/

theorem Coherent.reserve (h : Coherent rejects s) {c : SeckillCall} (n : ℤ)
    (hfresh : c.orderId ∉ s.issued) :
    Coherent rejects { s with
      redis := s.redis.reserve c n
      issued := insert c.orderId s.issued
      granted := c.reservation :: s.granted } := by
  have hne : ∀ r ∈ s.granted, r.orderId ≠ c.orderId := by
    intro r hr he
    exact hfresh (he ▸ h.issued r hr)
  have hkeep : ∀ r, InHandoff s.redis r → InHandoff (s.redis.reserve c n) r :=
    fun r hr => Redis.mem_reserve_handoff.mpr (Or.inr hr)
  have hnew : ∀ r ∈ s.granted, InHandoff (s.redis.reserve c n) r → InHandoff s.redis r := by
    intro r hr hin
    rcases Redis.mem_reserve_handoff.mp hin with ⟨hv, hm⟩ | hin
    · have heq : r = c.reservation := buildMember_injective hv hm
      exact absurd (congrArg Reservation.orderId heq) (hne r hr)
    · exact hin
  exact
  { ids := List.nodup_cons.mpr ⟨fun hmem => by
      obtain ⟨r, hr, he⟩ := List.mem_map.mp hmem
      exact hne r hr he, h.ids⟩
    issued := by
      intro r hr
      rcases List.mem_cons.mp hr with rfl | hr
      · exact Finset.mem_insert_self _ _
      · exact Finset.mem_insert_of_mem (h.issued r hr)
    handoff := by
      intro v m hm
      rcases Redis.mem_reserve_handoff.mp hm with ⟨rfl, rfl⟩ | hm
      · exact ⟨c.reservation, List.mem_cons_self, rfl, rfl⟩
      · obtain ⟨r, hr, hrm⟩ := h.handoff v m hm
        exact ⟨r, List.mem_cons_of_mem _ hr, hrm⟩
    quarantine := by
      intro q hq
      obtain ⟨r, hr, hrq⟩ := h.quarantine q hq
      exact ⟨r, List.mem_cons_of_mem _ hr, hrq⟩
    custody := by
      intro r hr
      rcases List.mem_cons.mp hr with rfl | hr
      · exact Or.inl (Redis.mem_reserve_handoff.mpr (Or.inl ⟨rfl, rfl⟩))
      · exact (h.custody r hr).imp_left (hkeep r)
    accepted := by
      intro o
      by_cases ho : o = c.orderId
      · subst ho
        refine ⟨fun _ => ⟨c.reservation, List.mem_cons_self, rfl, Or.inl ?_⟩, fun _ => ?_⟩
        · exact Redis.mem_reserve_handoff.mpr (Or.inl ⟨rfl, rfl⟩)
        · simp [Redis.reserve]
      · have hsome : (s.redis.reserve c n).accepted o = s.redis.accepted o :=
          Function.update_of_ne ho _ _
        show ((s.redis.reserve c n).accepted o).isSome ↔ _
        rw [hsome, h.accepted o]
        constructor
        · rintro ⟨r, hr, he, hin⟩
          exact ⟨r, List.mem_cons_of_mem _ hr, he, hin.imp_left (hkeep r)⟩
        · rintro ⟨r, hr, he, hin⟩
          rcases List.mem_cons.mp hr with rfl | hr
          · exact absurd he.symm ho
          · exact ⟨r, hr, he, hin.imp_left (hnew r hr)⟩
    outbox := by
      intro e he
      obtain ⟨hg, hrest⟩ := h.outbox e he
      exact ⟨List.mem_cons_of_mem _ hg, hrest⟩
    completed := h.completed
    orders := h.orders
    relays := by
      intro i task ht
      have hok := h.relays i task ht
      cases task with
      | quarantine v m reason =>
        obtain ⟨r, hr, hrm⟩ := hok
        exact ⟨r, List.mem_cons_of_mem _ hr, hrm⟩
      | persist v events members =>
        exact { hok with granted := fun e he => List.mem_cons_of_mem _ (hok.granted e he) }
      | complete v events members =>
        exact ⟨{ hok.1 with granted := fun e he => List.mem_cons_of_mem _ (hok.1.granted e he) },
          hok.2⟩
    acks := h.acks
    kafka := h.kafka
    recoveries := h.recoveries
    cancels := h.cancels }

theorem Coherent.seckill (h : Coherent rejects s) {c : SeckillCall}
    (hstep : step rejects s (.seckill c) = some t) : Coherent rejects t := by
  simp only [step] at hstep
  split at hstep
  · exact absurd hstep (by simp)
  rename_i hfresh
  rcases seckillLua_cases c s.redis with ⟨hcode, hsame⟩ | ⟨hcode, n, -, -, -, -, hres⟩
  · rw [if_neg hcode, hsame, Option.some.injEq] at hstep
    subst hstep
    exact { h with issued := fun r hr => Finset.mem_insert_of_mem (h.issued r hr) }
  · rw [if_pos hcode, hres, Option.some.injEq] at hstep
    subst hstep
    exact h.reserve n hfresh

/-! ## The two ways out of the handoff set -/

/-- The completion removes members that have their outbox row. -/
theorem Coherent.complete (h : Coherent rejects s) {v : VoucherId} {rs : List Reservation}
    (hv : ∀ r ∈ rs, r.voucherId = v) (ho : ∀ r ∈ rs, InOutbox s.db r) :
    Coherent rejects { s with
      redis := (handoffComplete v (rs.map fun r => (r.member, r.orderId)) s.redis).2 } := by
  obtain ⟨hmem, heq⟩ := handoffComplete_snd v (rs.map fun r => (r.member, r.orderId)) s.redis
  have hfst : (rs.map fun r => (r.member, r.orderId)).map Prod.fst = rs.map Reservation.member := by
    rw [List.map_map]; rfl
  have hsnd : (rs.map fun r => (r.member, r.orderId)).map Prod.snd =
      rs.map Reservation.orderId := by
    rw [List.map_map]; rfl
  rw [hfst] at hmem
  rw [hsnd] at heq
  generalize (handoffComplete v (rs.map fun r => (r.member, r.orderId)) s.redis).2 = redis at *
  have hquarantine : redis.quarantine = s.redis.quarantine := by rw [heq]
  have haccepted : redis.accepted =
      fun o => if o ∈ rs.map Reservation.orderId then none else s.redis.accepted o := by rw [heq]
  -- a member is removed iff its order is one of those completed
  have hin : ∀ r, InHandoff redis r ↔ InHandoff s.redis r ∧ r ∉ rs := by
    intro r
    refine (hmem r.voucherId r.member).trans (and_congr_right fun _ => ⟨fun hn hr => ?_,
      fun hn hrv hm => ?_⟩)
    · exact hn (hv r hr) (List.mem_map_of_mem hr)
    · obtain ⟨r', hr', he⟩ := List.mem_map.mp hm
      have : r' = r := buildMember_injective ((hv r' hr').trans hrv.symm) he
      exact hn (this ▸ hr')
  have hquar : ∀ r, InQuarantine redis r ↔ InQuarantine s.redis r := by
    intro r
    simp only [InQuarantine, hquarantine]
  exact
  { h with
    handoff := fun w m hm => h.handoff w m ((hmem w m).mp hm).1
    quarantine := by
      show ∀ q ∈ redis.quarantine, _
      rw [hquarantine]
      exact h.quarantine
    custody := by
      intro r hr
      by_cases hrs : r ∈ rs
      · exact Or.inr (Or.inr (ho r hrs))
      · exact (h.custody r hr).imp (fun hh => (hin r).mpr ⟨hh, hrs⟩)
          fun hq => hq.imp_left (hquar r).mpr
    accepted := by
      intro o
      show (redis.accepted o).isSome ↔ ∃ r ∈ s.granted, r.orderId = o ∧
        (InHandoff redis r ∨ InQuarantine redis r)
      rw [haccepted]
      by_cases hors : o ∈ rs.map Reservation.orderId
      · -- the completed order is neither in the handoff set any more nor in quarantine
        simp only [hors, if_true, Option.isSome_none, Bool.false_eq_true, false_iff, not_exists,
          not_and]
        rintro r hr rfl hc
        obtain ⟨r', hr', hid⟩ := List.mem_map.mp hors
        have : r' = r := h.unique (h.granted_of_inOutbox (ho r' hr')) hr hid
        subst this
        rcases hc with hc | hc
        · exact ((hin r').mp hc).2 hr'
        · exact h.not_inQuarantine (ho r' hr') ((hquar r').mp hc)
      · simp only [hors, if_false]
        rw [h.accepted o]
        refine exists_congr fun r => and_congr_right fun _ => and_congr_right fun hid => ?_
        have hrs : r ∉ rs := fun hr => hors (hid ▸ List.mem_map_of_mem hr)
        rw [hin r, hquar r, and_iff_left hrs] }

/-- The quarantine script moves the member of a rejected order. -/
theorem Coherent.moveToQuarantine (h : Coherent rejects s) {r : Reservation}
    (hr : r ∈ s.granted) (hrej : rejects r = true) (reason : QuarantineReason) :
    Coherent rejects { s with
      redis := (handoffQuarantine r.voucherId r.member reason s.redis).2 } := by
  rcases handoffQuarantine_cases r.voucherId r.member reason s.redis with ⟨-, heq⟩ | ⟨hmem, heq⟩
  · rw [heq]
    exact h
  rw [heq]
  generalize hredis : ({ s.redis with
    handoff := Function.update s.redis.handoff r.voucherId
      ((s.redis.handoff r.voucherId).zrem [r.member]).2
    quarantine := insert ⟨r.voucherId, r.member, reason⟩ s.redis.quarantine } : Redis) = redis
  have hmembers : ∀ v m, m ∈ (redis.handoff v).members ↔
      m ∈ (s.redis.handoff v).members ∧ (v = r.voucherId → m ≠ r.member) := by
    intro v m
    rw [← hredis]
    by_cases hv : v = r.voucherId
    · subst hv
      simp
    · simp [hv]
  have hin : ∀ r', InHandoff redis r' ↔ InHandoff s.redis r' ∧ r' ≠ r := by
    intro r'
    refine (hmembers r'.voucherId r'.member).trans (and_congr_right fun _ => ⟨fun hn he => ?_,
      fun hn hv he => hn (buildMember_injective hv he)⟩)
    subst he
    exact hn rfl rfl
  have hquar : ∀ r', InQuarantine redis r' ↔ InQuarantine s.redis r' ∨ r' = r := by
    intro r'
    have hq : redis.quarantine = insert ⟨r.voucherId, r.member, reason⟩ s.redis.quarantine := by
      rw [← hredis]
    simp only [InQuarantine, hq, Finset.mem_insert]
    constructor
    · rintro ⟨reason', he | hq⟩
      · simp only [QuarantineEntry.mk.injEq] at he
        exact Or.inr (buildMember_injective he.1 he.2.1)
      · exact Or.inl ⟨reason', hq⟩
    · rintro (⟨reason', hq⟩ | rfl)
      · exact ⟨reason', Or.inr hq⟩
      · exact ⟨reason, Or.inl rfl⟩
  have hboth : ∀ r', InHandoff redis r' ∨ InQuarantine redis r' ↔
      InHandoff s.redis r' ∨ InQuarantine s.redis r' := by
    intro r'
    rw [hin r', hquar r']
    by_cases he : r' = r
    · subst he
      exact iff_of_true (Or.inr (Or.inr rfl)) (Or.inl hmem)
    · simp [he]
  exact
  { h with
    handoff := fun v m hm => h.handoff v m ((hmembers v m).mp hm).1
    quarantine := by
      show ∀ q ∈ redis.quarantine, _
      rw [← hredis]
      intro q hq
      rcases Finset.mem_insert.mp hq with rfl | hq
      · exact ⟨r, hr, rfl, rfl, hrej⟩
      · exact h.quarantine q hq
    custody := by
      intro r' hr'
      have := h.custody r' hr'
      rw [← or_assoc] at this ⊢
      exact this.imp_left (hboth r').mpr
    accepted := by
      intro o
      show (redis.accepted o).isSome ↔ ∃ r' ∈ s.granted, r'.orderId = o ∧
        (InHandoff redis r' ∨ InQuarantine redis r')
      rw [← hredis] at *
      simp only [hboth]
      exact h.accepted o }

/-! ## Transactions -/

/-- `insertCommitted` adds the rows of accepted orders MySQL does not reject. -/
theorem Coherent.insert (h : Coherent rejects s) {events accepted : List SeckillOrderOutboxEvent}
    {db : Db} (hgranted : ∀ e ∈ events, e.reservation ∈ s.granted)
    (heventId : ∀ e ∈ events, e.eventId = e.orderId.toText)
    (hstatus : ∀ e ∈ events, e.status = .pending)
    (hok : insertCommitted rejects events s.db = .ok (accepted, db)) :
    Coherent rejects { s with db := db } := by
  obtain ⟨hrej, hdb, -⟩ := insertCommitted_ok hok
  have horders : db.orders = s.db.orders := by rw [hdb]; rfl
  have hgrow : Grows s.db db := Grows.insertCommitted hok
  refine h.of_db hgrow ?_ ?_ ?_
  · intro e he
    rcases mem_insertCommitted hok he with he | ⟨x, hx, hres, hev, -⟩
    · exact h.outbox e he
    · rw [hres, hev, heventId x hx,
        show e.orderId = x.orderId from congrArg Reservation.orderId hres]
      exact ⟨hgranted x hx, rfl, hrej x hx⟩
  · intro e he hcompleted
    rcases mem_insertCommitted hok he with he | ⟨x, hx, -, -, hst⟩
    · exact hgrow.hasOrder (h.completed e he hcompleted)
    · rw [hst, hstatus x hx] at hcompleted
      exact absurd hcompleted (by simp)
  · intro o ho
    rw [horders] at ho
    obtain ⟨r, hr, hids⟩ := h.orders o ho
    exact ⟨r, hgrow.inOutbox hr, hids⟩

/-- The order of a message on the topic is an accepted one, with its outbox row. -/
theorem Coherent.draft_granted (h : Coherent rejects s) {messages : List SeckillOrderMessage}
    (hm : ∀ m ∈ messages, m ∈ s.kafka) {o : OrderDraft} (ho : o ∈ drafts messages) :
    ∃ r, InOutbox s.db r ∧ r.orderId = o.id ∧ r.userId = o.userId ∧ r.voucherId = o.voucherId := by
  obtain ⟨m, hmem, hd⟩ := mem_drafts.mp ho
  obtain ⟨r, -, hr, hid, hv, hu⟩ := h.messageOk_granted (hm m hmem)
  unfold SeckillOrderMessage.draft at hd
  rw [hid, hv, hu] at hd
  cases hd
  exact ⟨r, hr, rfl, rfl, rfl⟩

/-- The consumer's transaction adds the rows of orders in the outbox, and completes outbox rows
whose order it has found or added. -/
theorem Coherent.persist (h : Coherent rejects s) {tx : Transaction}
    {messages : List SeckillOrderMessage} {os : List OrderDraft} {db : Db}
    (hm : ∀ m ∈ messages, m ∈ s.kafka) (hok : createOrders tx messages s.db = .ok (os, db)) :
    Coherent rejects { s with db := db } := by
  obtain ⟨c, d, hc, hu, hp, hdb⟩ := createOrders_ok hok
  have hgrow : Grows s.db d := Grows.persisted hp
  have hd : Coherent rejects { s with db := d } := by
    refine h.of_db hgrow ?_ ?_ ?_
    · rw [hp.outbox]
      exact h.outbox
    · rw [hp.outbox]
      exact fun e he hcompleted => hgrow.hasOrder (h.completed e he hcompleted)
    · intro o ho
      rcases hp.mem_rows.mp ho with ho | ⟨x, hx, rfl⟩
      · obtain ⟨r, hr, hids⟩ := h.orders o ho
        exact ⟨r, hgrow.inOutbox hr, hids⟩
      · have hx := mem_drafts_of_mem_uniqueOrders (mem_freshOrders.mp hx).1
        obtain ⟨r, hr, hids⟩ := h.draft_granted hm hx
        exact ⟨r, hgrow.inOutbox hr, hids⟩
  rcases hdb with ⟨-, rfl⟩ | rfl
  · exact hd
  obtain ⟨sel, heq, hsel⟩ := completeOutbox_eq tx c d
  rw [heq]
  refine hd.of_updateOutbox _ _ fun e he hse _ => ?_
  show d.hasOrder e.orderId = true
  rcases hsel e (by simpa using (Bool.and_eq_true _ _ ▸ hse : _ ∧ _).1) with hid | hid
  · -- the message that carries the id of this outbox row is a message of its order
    obtain ⟨p, hpm, hpe⟩ := List.mem_map.mp hid
    rcases collect_outboxIds hc p hpm with hnil | ⟨m, hmem, hmo, hmi⟩
    · exact absurd hnil (by simp)
    obtain ⟨e', he', ho', hv', hu', hi'⟩ := hd.kafka m (hm m hmem)
    have hide : e'.id = e.id := by
      rcases hi' with hi' | hi'
      · rw [hmi] at hi'
        exact absurd hi' (by simp)
      · rw [hmi, Option.some.injEq] at hi'
        rw [← hi', hpe]
    have heq : e' = e := d.outbox.eq_of_clash he' he (outboxKeys_clash.mpr (Or.inl hide))
    subst heq
    have hdraft : (⟨e'.orderId, e'.voucherId, e'.userId, decide (m.autoIssued = some true)⟩ :
        OrderDraft) ∈ drafts messages :=
      mem_drafts.mpr ⟨m, hmem, by simp [SeckillOrderMessage.draft, ho', hv', hu']⟩
    obtain ⟨q, hq, hqid⟩ := exists_uniqueOrder hdraft
    have := hp.hasOrder hq
    rwa [hqid] at this
  · rw [hu] at hid
    obtain ⟨q, hq, hqid⟩ := List.mem_map.mp hid
    rw [← hqid]
    exact hp.hasOrder hq

theorem Grows.cancelInTransaction {order : VoucherOrder} {db db' : Db}
    (h : cancelInTransaction order db = some db') : Grows db db' := by
  obtain ⟨-, hrows, -, hout, -⟩ := cancelInTransaction_some h
  refine ⟨fun e he => ⟨e, by rwa [hout], rfl, rfl⟩, fun o ho => ?_⟩
  exact ⟨cancelRow order.id order.userId o, by
    rw [hrows]
    exact List.mem_map_of_mem ho, cancelRow_ids _ _ o⟩

/-- A cancellation changes the status of a row. -/
theorem Coherent.cancelInTransaction (h : Coherent rejects s) {order : VoucherOrder} {db : Db}
    (hc : cancelInTransaction order s.db = some db) : Coherent rejects { s with db := db } := by
  obtain ⟨-, hrows, -, hout, -⟩ := cancelInTransaction_some hc
  have hgrow : Grows s.db db := Grows.cancelInTransaction hc
  refine h.of_db hgrow ?_ ?_ ?_
  · rw [hout]
    exact h.outbox
  · rw [hout]
    exact fun e he hcompleted => hgrow.hasOrder (h.completed e he hcompleted)
  · intro o ho
    rw [hrows] at ho
    obtain ⟨o₀, ho₀, rfl⟩ := List.mem_map.mp ho
    obtain ⟨r, hr, hid, hu, hv⟩ := h.orders o₀ ho₀
    obtain ⟨hid', hu', hv'⟩ := cancelRow_ids order.id order.userId o₀
    exact ⟨r, hgrow.inOutbox hr, hid.trans hid'.symm, hu.trans hu'.symm, hv.trans hv'.symm⟩

/-- The cancellation scripts leave the reservations. -/
theorem Coherent.cancelLua (h : Coherent rejects s) (v : VoucherId) (u : UserId) :
    Coherent rejects { s with redis := (cancelLua v u s.redis).2 } := by
  rcases cancelLua_cases v u s.redis with ⟨-, heq⟩ | ⟨n, -, -, heq⟩
  · rw [heq]
    exact h
  · rw [heq]
    exact h.of_redis rfl rfl rfl

theorem Coherent.cancelCommitted (h : Coherent rejects s) {order : VoucherOrder} {redis : Redis}
    {db : Db} (hc : cancelCommitted order s.redis s.db = some (redis, db)) :
    Coherent rejects { s with redis := redis, db := db } := by
  obtain ⟨db', hdb, hrest⟩ := Option.bind_eq_some_iff.mp hc
  simp only at hrest
  split at hrest
  · exact absurd hrest (by simp)
  simp only [Option.some.injEq, Prod.mk.injEq] at hrest
  obtain ⟨rfl, rfl⟩ := hrest
  exact (h.cancelInTransaction hdb).cancelLua order.voucherId order.userId

/-! ## Relay tasks -/

theorem BatchOk.take {granted : List Reservation} {v : VoucherId}
    {events : List SeckillOrderOutboxEvent} {members : List Text}
    (h : BatchOk granted v events members) (n : ℕ) :
    BatchOk granted v (events.take n) (members.take n) where
  members := by rw [h.members, List.map_take]
  granted e he := h.granted e (List.mem_of_mem_take he)
  voucherId e he := h.voucherId e (List.mem_of_mem_take he)
  eventId e he := h.eventId e (List.mem_of_mem_take he)
  status e he := h.status e (List.mem_of_mem_take he)

theorem BatchOk.drop {granted : List Reservation} {v : VoucherId}
    {events : List SeckillOrderOutboxEvent} {members : List Text}
    (h : BatchOk granted v events members) (n : ℕ) :
    BatchOk granted v (events.drop n) (members.drop n) where
  members := by rw [h.members, List.map_drop]
  granted e he := h.granted e (List.mem_of_mem_drop he)
  voucherId e he := h.voucherId e (List.mem_of_mem_drop he)
  eventId e he := h.eventId e (List.mem_of_mem_drop he)
  status e he := h.status e (List.mem_of_mem_drop he)

/-- Members of accepted orders parse to their orders. -/
theorem batchOk_parse {granted : List Reservation} {v : VoucherId} (now : Time)
    {members : List Text} (h : ∀ m ∈ members, ∃ r ∈ granted, r.voucherId = v ∧ r.member = m) :
    BatchOk granted v (members.filterMap (parse now v))
      (members.filter fun m => (parseMember v m).isSome) := by
  have hparse : ∀ e ∈ members.filterMap (parse now v),
      ∃ r ∈ granted, r.voucherId = v ∧ e = SeckillOrderOutboxEvent.pending now r := by
    intro e he
    obtain ⟨m, hm, hme⟩ := List.mem_filterMap.mp he
    obtain ⟨r, hr, rfl, rfl⟩ := h m hm
    rw [parse, parseMember_member] at hme
    exact ⟨r, hr, rfl, (Option.some.inj hme).symm⟩
  refine ⟨?_, ?_, ?_, ?_, ?_⟩
  · clear hparse
    induction members with
    | nil => rfl
    | cons m members ih =>
      obtain ⟨r, -, rfl, rfl⟩ := h m List.mem_cons_self
      rw [List.filter_cons_of_pos (by simp),
        List.filterMap_cons_some (by rw [parse, parseMember_member]; rfl), List.map_cons,
        ih fun x hx => h x (List.mem_cons_of_mem _ hx), pending_reservation]
  all_goals
    intro e he
    obtain ⟨r, hr, hv, rfl⟩ := hparse e he
  · exact hr
  · exact hv
  · rfl
  · rfl

/-- What a relay fetches holds no malformed member. -/
theorem Coherent.fetchTasks (h : Coherent rejects s) (now : Time) (v : VoucherId) (limit : ℕ) :
    ∀ task ∈ fetchTasks now v ((s.redis.handoff v).range limit),
      TaskOk rejects s.granted s.db task := by
  have hmembers : ∀ m ∈ (s.redis.handoff v).range limit,
      ∃ r ∈ s.granted, r.voucherId = v ∧ r.member = m :=
    fun m hm => h.handoff v m (ZSet.mem_of_mem_range hm)
  intro task ht
  rcases List.mem_append.mp ht with ht | ht
  · obtain ⟨m, hm, -⟩ := List.mem_map.mp ht
    obtain ⟨hm, hnone⟩ := List.mem_filter.mp hm
    obtain ⟨r, -, rfl, rfl⟩ := hmembers m hm
    rw [parseMember_member] at hnone
    exact absurd hnone (by simp)
  · rw [List.mem_singleton.mp ht]
    exact batchOk_parse now hmembers

/-- **Isolation**: a refused batch leaves halves, and a refused single row is a rejected one. -/
theorem Coherent.isolate (h : Coherent rejects s) {v : VoucherId}
    {events : List SeckillOrderOutboxEvent} {members : List Text} {e : OutboxError}
    (hok : BatchOk s.granted v events members)
    (herr : insertCommitted rejects events s.db = .error e) :
    ∀ task ∈ isolate v events members, TaskOk rejects s.granted s.db task := by
  intro task ht
  unfold Model.isolate at ht
  split at ht
  · rename_i hone
    obtain ⟨x, rfl⟩ := List.length_eq_one_iff.mp hone
    have hmem : members = [x.reservation.member] := hok.members
    subst hmem
    obtain ⟨m, hm, rfl⟩ := List.mem_map.mp ht
    rw [List.mem_singleton.mp (List.mem_of_mem_take hm)]
    have hx : x ∈ [x] := List.mem_cons_self
    refine ⟨x.reservation, hok.granted x hx, hok.voucherId x hx, rfl, ?_⟩
    -- nothing but the rejection refuses the row of an accepted order
    by_contra hrej
    have hsame : ∀ y ∈ [x], ∀ row ∈ s.db.outbox.rows, row.orderId = y.orderId →
        row.reservation = y.reservation := by
      intro y hy row hrow hid
      exact h.unique (h.outbox row hrow).1 (hok.granted y hy) hid
    obtain ⟨res, hres⟩ := @insertCommitted_isOk rejects [x] s.db
      (fun y hy => by rw [List.mem_singleton.mp hy]; simpa using hrej)
      (fun row hrow => (h.outbox row hrow).2.1) hok.eventId hsame
      (fun y hy z hz _ => by rw [List.mem_singleton.mp hy, List.mem_singleton.mp hz])
    rw [hres] at herr
    exact absurd herr (by simp)
  · simp only [List.mem_cons, List.not_mem_nil, or_false] at ht
    rcases ht with rfl | rfl
    · exact hok.take _
    · exact hok.drop _

/-- `completeBatch` runs the completion on the orders of the batch. -/
theorem completeBatch_cases {granted : List Reservation} {v : VoucherId}
    {events : List SeckillOrderOutboxEvent} {members : List Text} {redis redis' : Redis} {n : ℤ}
    (hok : BatchOk granted v events members)
    (h : completeBatch v events members redis = some (n, redis')) :
    redis' = redis ∨ redis' = (handoffComplete v
      ((events.map SeckillOrderOutboxEvent.reservation).map fun r => (r.member, r.orderId))
        redis).2 := by
  unfold completeBatch at h
  split at h
  · exact Or.inl (congrArg Prod.snd (Option.some.inj h)).symm
  split at h
  · exact absurd h (by simp)
  refine Or.inr ?_
  have hargs : completeArguments events members =
      (events.map SeckillOrderOutboxEvent.reservation).map fun r => (r.member, r.orderId) := by
    rw [completeArguments, hok.members, List.zip_map', List.map_map]
    rfl
  rw [← hargs]
  exact (congrArg Prod.snd (Option.some.inj h)).symm

theorem Coherent.runTask (h : Coherent rejects s) {i : ℕ} {task : RelayTask}
    {rest more : List RelayTask} {redis : Redis} {db : Db} (hi : s.relays i = task :: rest)
    (hrun : runTask rejects task s.redis s.db = some (more, redis, db)) :
    Coherent rejects { s with
      redis := redis, db := db, relays := Function.update s.relays i (more ++ rest) } := by
  have htask : TaskOk rejects s.granted s.db task := h.relays i task (by simp [hi])
  have hrest : ∀ {u : State}, Coherent rejects u → u.relays = s.relays →
      ∀ x ∈ rest, TaskOk rejects u.granted u.db x := by
    intro u hu heq x hx
    exact hu.relays i x (by rw [heq, hi]; exact List.mem_cons_of_mem _ hx)
  unfold Model.runTask at hrun
  cases task with
  | quarantine v m reason =>
    simp only [Option.some.injEq, Prod.mk.injEq] at hrun
    obtain ⟨rfl, rfl, rfl⟩ := hrun
    obtain ⟨r, hr, rfl, rfl, hrej⟩ := htask
    exact (h.moveToQuarantine hr hrej reason).of_relays i
      (hrest (h.moveToQuarantine hr hrej reason) rfl)
  | persist v events members =>
    simp only at hrun
    split at hrun
    · simp only [Option.some.injEq, Prod.mk.injEq] at hrun
      obtain ⟨rfl, rfl, rfl⟩ := hrun
      exact h.of_relays i (hrest h rfl)
    · split at hrun
      · rename_i accepted db' hok
        simp only [Option.some.injEq, Prod.mk.injEq] at hrun
        obtain ⟨rfl, rfl, rfl⟩ := hrun
        have h' := h.insert htask.granted htask.eventId htask.status hok
        refine h'.of_relays i fun x hx => ?_
        rcases List.mem_append.mp hx with hx | hx
        · rw [List.mem_singleton.mp hx]
          refine ⟨htask, fun e he => ?_⟩
          obtain ⟨row, hrow, hres, -⟩ := (insertCommitted_ok hok).2.2 e he
          exact ⟨row, hrow, hres⟩
        · exact hrest h' rfl x hx
      · rename_i err hok
        simp only [Option.some.injEq, Prod.mk.injEq] at hrun
        obtain ⟨rfl, rfl, rfl⟩ := hrun
        refine h.of_relays i fun x hx => ?_
        rcases List.mem_append.mp hx with hx | hx
        · exact h.isolate htask hok x hx
        · exact hrest h rfl x hx
  | complete v events members =>
    obtain ⟨⟨n, redis'⟩, hb, hres⟩ := Option.map_eq_some_iff.mp hrun
    simp only [Prod.mk.injEq] at hres
    obtain ⟨rfl, rfl, rfl⟩ := hres
    have h' : Coherent rejects { s with redis := redis' } := by
      rcases completeBatch_cases htask.1 hb with rfl | rfl
      · exact h
      · refine h.complete (fun r hr => ?_) fun r hr => ?_
        · obtain ⟨e, he, rfl⟩ := List.mem_map.mp hr
          exact htask.1.voucherId e he
        · obtain ⟨e, he, rfl⟩ := List.mem_map.mp hr
          exact htask.2 e he
    exact h'.of_relays i (hrest h' rfl)

/-! ## The recovery calls -/

/-- The update of `retry` completes a row only when the lookup has found its order. -/
theorem Coherent.retryUpdate (h : Coherent rejects s) {i : ℕ} {event : OutboxRow}
    {deadLetter orderExists : Bool}
    (hi : s.recoveries i = some (.looked event deadLetter orderExists)) (backoff : RetryBackoff)
    (reason : Text) (localNow now : Time) :
    Coherent rejects { s with
      db := (retryUpdate backoff event orderExists reason localNow now s.db).2 } := by
  have hfound := h.recoveries i _ hi
  cases orderExists with
  | true =>
    refine h.of_updateOutbox _ _ fun e he hsel _ => ?_
    simp only [Bool.and_eq_true, decide_eq_true_eq] at hsel
    rw [hsel.1]
    exact hfound rfl
  | false => exact h.of_updateOutbox_ne _ _ fun e _ => by simp

theorem recoveryOk_thrown {db : Db} {recovery next : Recovery}
    (h : recovery.thrown = some next) : RecoveryOk db next := by
  cases recovery with
  | read event deadLetter =>
    cases deadLetter <;> cases h
    trivial
  | looked event deadLetter orderExists =>
    cases deadLetter <;> cases h
    trivial
  | failed event => cases h

/-! ## Every step, every run -/

theorem Coherent.relayTask (h : Coherent rejects s) {i : ℕ}
    (hstep : step rejects s (.relayTask i) = some t) : Coherent rejects t := by
  simp only [step] at hstep
  split at hstep
  · exact absurd hstep (by simp)
  rename_i task rest hi
  split at hstep
  · cases hstep
    exact h.of_relays i (by simp)
  · rename_i more redis db hrun
    cases hstep
    exact h.runTask hi hrun

theorem Coherent.accept (h : Coherent rejects s) {batch : List Reservation} {now : Time}
    (hstep : step rejects s (.accept batch now) = some t) : Coherent rejects t := by
  simp only [step] at hstep
  split at hstep
  · rename_i hbatch
    split at hstep
    · cases hstep
      exact h
    · rename_i accepted db hok
      cases hstep
      have h' : Coherent rejects { s with db := db } := by
        refine h.insert ?_ ?_ ?_ hok
        all_goals
          intro e he
          obtain ⟨r, hr, rfl⟩ := List.mem_map.mp he
        · exact hbatch r hr
        · rfl
        · rfl
      exact { h' with
        acks := fun r hr => by
          rcases List.mem_append.mp hr with hr | hr
          · obtain ⟨e, he, rfl⟩ := List.mem_map.mp hr
            exact insertCommitted_accepted hok e he
          · exact h'.acks r hr }
  · exact absurd hstep (by simp)

theorem Coherent.completeHandoff (h : Coherent rejects s) {r : Reservation}
    (hstep : step rejects s (.completeHandoff r) = some t) : Coherent rejects t := by
  simp only [step] at hstep
  split at hstep
  · rename_i hr
    cases hstep
    exact @Coherent.complete _ _ h r.voucherId [r]
      (fun r' hr' => by rw [List.mem_singleton.mp hr'])
      (fun r' hr' => by rw [List.mem_singleton.mp hr']; exact h.acks r hr)
  · exact absurd hstep (by simp)

theorem Coherent.createOrders (h : Coherent rejects s) {tx : Transaction}
    {messages : List SeckillOrderMessage}
    (hstep : step rejects s (.createOrders tx messages) = some t) : Coherent rejects t := by
  simp only [step] at hstep
  split at hstep
  · rename_i hm
    split at hstep
    · cases hstep
      exact h
    · rename_i os db hok
      cases hstep
      exact h.persist hm hok
  · exact absurd hstep (by simp)

theorem Coherent.selectOrder (h : Coherent rejects s) {i : ℕ} {pick : NewestFirst} {u : UserId}
    {v : VoucherId} (hstep : step rejects s (.selectOrder i pick u v) = some t) :
    Coherent rejects t := by
  simp only [step] at hstep
  split at hstep
  · exact absurd hstep (by simp)
  · cases hstep
    refine h.of_cancels i fun order ho => ⟨order, ?_, rfl, rfl, rfl⟩
    exact (mem_liveOrders.mp (pick.mem ho)).1

theorem Coherent.cancel (h : Coherent rejects s) {i : ℕ}
    (hstep : step rejects s (.cancel i) = some t) : Coherent rejects t := by
  simp only [step] at hstep
  split at hstep
  · exact absurd hstep (by simp)
  split at hstep
  · cases hstep
    exact h.of_cancels i (by simp)
  · rename_i redis db hc
    cases hstep
    exact (h.cancelCommitted hc).of_cancels i (by simp)

/-- **Every step keeps the stores coherent.** -/
theorem coherent_step {a : Action} (h : Coherent rejects s) (hstep : step rejects s a = some t) :
    Coherent rejects t := by
  cases a with
  | seckill call => exact h.seckill hstep
  | configure activity accessToken =>
    cases hstep
    exact h.of_redis rfl rfl rfl
  | fetch i v limit now =>
    simp only [step] at hstep
    split at hstep
    · exact absurd hstep (by simp)
    · cases hstep
      exact h.of_relays i (h.fetchTasks now v limit)
  | relayTask i => exact h.relayTask hstep
  | crash i =>
    cases hstep
    exact h.of_relays i (by simp)
  | accept batch now => exact h.accept hstep
  | completeHandoff r => exact h.completeHandoff hstep
  | claimRelayBatch ids owner leaseUntil now =>
    cases hstep
    refine h.of_updateOutbox _ _ fun e he hsel hstatus => h.completed e he hstatus
  | markSentBatch ids owner nextCheckTime now =>
    cases hstep
    exact h.of_updateOutbox_ne _ _ fun e _ => by simp
  | scheduleRetryBatch ids owner nextRetryTime lastError now =>
    cases hstep
    refine h.of_updateOutbox _ _ fun e he hsel hstatus => h.completed e he hstatus
  | send row withOutboxId =>
    simp only [step] at hstep
    split at hstep
    · rename_i hrow
      cases hstep
      refine { h with kafka := fun m hm => ?_ }
      rcases List.mem_cons.mp hm with rfl | hm
      · refine ⟨row, hrow, rfl, rfl, rfl, ?_⟩
        cases withOutboxId
        · exact Or.inl rfl
        · exact Or.inr rfl
      · exact h.kafka m hm
    · exact absurd hstep (by simp)
  | createOrders tx messages => exact h.createOrders hstep
  | readDeadLetter i message =>
    simp only [step] at hstep
    split at hstep
    · split at hstep
      · cases hstep
        exact h
      · cases hstep
        exact h.of_recoveries i fun recovery hr => by cases hr; trivial
    · exact absurd hstep (by simp)
  | readManualReview i event =>
    simp only [step] at hstep
    split at hstep
    · cases hstep
      exact h.of_recoveries i fun recovery hr => by cases hr; trivial
    · exact absurd hstep (by simp)
  | retryLookup i =>
    simp only [step] at hstep
    split at hstep
    · rename_i event deadLetter hi
      cases hstep
      refine h.of_recoveries i fun recovery hr => ?_
      cases hr
      exact fun hfound => by rwa [selectById_isSome] at hfound
    · exact absurd hstep (by simp)
  | retryUpdate i backoff reason localNow now =>
    simp only [step] at hstep
    split at hstep
    · rename_i event deadLetter orderExists hi
      cases hstep
      refine (h.retryUpdate hi backoff reason localNow now).of_recoveries i fun recovery hr => ?_
      split at hr
      · exact absurd hr (by simp)
      · exact recoveryOk_thrown hr
    · exact absurd hstep (by simp)
  | retryThrow i =>
    simp only [step] at hstep
    split at hstep
    · cases hstep
      exact h.of_recoveries i fun recovery hr => recoveryOk_thrown hr
    · exact absurd hstep (by simp)
  | markManualReview i reason now =>
    simp only [step] at hstep
    split at hstep
    · rename_i event hi
      cases hstep
      have h' : Coherent rejects { s with
          db := (Model.markManualReview event.orderId reason now s.db).2 } :=
        h.of_updateOutbox_ne _ _ fun e _ => by simp
      exact h'.of_recoveries i (by simp)
    · exact absurd hstep (by simp)
  | selectOrder i pick u v => exact h.selectOrder hstep
  | cancel i => exact h.cancel hstep

/-- **Every run keeps the stores coherent.** -/
theorem coherent_run {as : List Action} (h : Coherent rejects s)
    (hr : run (step rejects) s as = some t) : Coherent rejects t :=
  run_invariant' (fun _ _ _ hs ht => coherent_step hs ht) h hr

end Hmdp.Pipeline
