import Hmdp.Cancel.Flight

/-!
# One live purchase, once no cancellation is in flight?

Between the script and the end of the transaction the user is not in the purchased set, though the
order is still live for everybody else. A call holds the order it has run the script for
(`Held`). What the user has apart from it is `unheld`: at most one claim, and with one the user is
in the purchased set or some call of the user still owes its compensation (`OneUnheld`). Every
step keeps this but four, which `Allowed` names: the rollback of a call whose user has bought
again, a purchase while a compensation is owed, a compensation that finds no stock, and the loss
of the script's reply.

* **`one_purchase_at_rest`**: in a run without these, a user with no call in flight has at most one
  live order or reservation.
* **`bought_twice`**: in general not. The user buys again after the script, the transaction rolls
  back, and even the compensation succeeds.
-/

namespace Hmdp.Cancel.Flight

open Hmdp.Lib Hmdp.Model Hmdp.Pipeline

variable {rejects : Reservation → Bool} {s t : State} {u : UserId} {v : VoucherId}

/-! ## Calls of a user -/

/-- Some call in flight meets `p`. -/
def InFlight (p : Call → Prop) (s : State) : Prop := ∃ i c, s.calls i = some c ∧ p c

/-- The call is one of the user for the voucher. -/
def Call.IsOf (u : UserId) (v : VoucherId) (c : Call) : Prop :=
  c.order.userId = u ∧ c.order.voucherId = v

/-- No call of the user for the voucher is in flight. -/
def AtRest (u : UserId) (v : VoucherId) (s : State) : Prop := ¬InFlight (Call.IsOf u v) s

/-- A rolled back call of the user still owes its compensation. -/
def Owed (u : UserId) (v : VoucherId) (s : State) : Prop :=
  InFlight (fun c => c.IsOf u v ∧ c.stage = .awaiting) s

/-- A call of the user has run the script for the order, in an open transaction. -/
def Held (u : UserId) (v : VoucherId) (o : OrderId) (s : State) : Prop :=
  InFlight (fun c => c.IsOf u v ∧ c.stage = .scripted ∧ c.order.id = o) s

/-! ## The steps that keep the law -/

/-- The step is none of the four that break it. -/
def Allowed (s : State) : Action → Prop
  | .pipeline (.seckill call) =>
    (seckillLua call s.pipeline.redis).1 = 0 → ¬Owed call.userId call.voucherId s
  | .script i replyLost => ∀ c, s.calls i = some c →
    replyLost = true → s.pipeline.redis.stock c.order.voucherId = none
  | .rollback i => ∀ c, s.calls i = some c → c.stage = .scripted →
    purchases c.order.userId c.order.voucherId s.pipeline ≤ 1
  | .compensate i => ∀ c, s.calls i = some c →
    ∃ n, s.pipeline.redis.stock c.order.voucherId = some n ∧ 0 < n
  | _ => True

/-! ## What a user has apart from the held order -/

open scoped Classical in
/-- The claims no call holds. -/
noncomputable def unheld (u : UserId) (v : VoucherId) (s : State) : Finset OrderId :=
  (claims u v s.pipeline).filter fun o => ¬Held u v o s

/-- At most one, and with one the user is marked, or owed the mark. -/
def OneUnheld (u : UserId) (v : VoucherId) (s : State) : Prop :=
  Exclusive (unheld u v s) (u ∈ s.pipeline.redis.purchased v ∨ Owed u v s)

theorem mem_unheld {o : OrderId} :
    o ∈ unheld u v s ↔ o ∈ claims u v s.pipeline ∧ ¬Held u v o s := by
  simp [unheld]

/-- A call that moves on: the others, and where it goes. -/
theorem inFlight_goTo {p : Call → Prop} {i : ℕ} {next : Option Call} :
    InFlight p (s.goTo i next) ↔
      (∃ c, next = some c ∧ p c) ∨ ∃ j c, j ≠ i ∧ s.calls j = some c ∧ p c := by
  constructor
  · rintro ⟨j, c, hc, hp⟩
    by_cases hj : j = i
    · subst hj
      rw [show (s.goTo j next).calls j = next from Function.update_self _ _ _] at hc
      exact Or.inl ⟨c, hc, hp⟩
    · rw [show (s.goTo i next).calls j = s.calls j from Function.update_of_ne hj _ _] at hc
      exact Or.inr ⟨j, c, hj, hc, hp⟩
  · rintro (⟨c, hc, hp⟩ | ⟨j, c, hj, hc, hp⟩)
    · exact ⟨i, c, (Function.update_self _ _ _).trans hc, hp⟩
    · exact ⟨j, c, (Function.update_of_ne hj _ _).trans hc, hp⟩

/-- A call that did not meet `p` and does not now. -/
theorem inFlight_goTo_of_not {p : Call → Prop} {i : ℕ} {next : Option Call}
    (hold : ∀ c, s.calls i = some c → ¬p c) (hnew : ∀ c, next = some c → ¬p c) :
    InFlight p (s.goTo i next) ↔ InFlight p s := by
  rw [inFlight_goTo]
  constructor
  · rintro (⟨c, hc, hp⟩ | ⟨j, c, -, hc, hp⟩)
    · exact absurd hp (hnew c hc)
    · exact ⟨j, c, hc, hp⟩
  · rintro ⟨j, c, hc, hp⟩
    refine Or.inr ⟨j, c, ?_, hc, hp⟩
    rintro rfl
    exact hold c hc hp

/-- **A step away from the user**: the claims, the held orders and the debts of `(u, v)` are what
they were, and the mark is kept. -/
theorem OneUnheld.frame (h : OneUnheld u v s) (hc : claims u v t.pipeline = claims u v s.pipeline)
    (hh : ∀ o, Held u v o t ↔ Held u v o s)
    (hm : u ∈ s.pipeline.redis.purchased v ∨ Owed u v s →
      u ∈ t.pipeline.redis.purchased v ∨ Owed u v t) : OneUnheld u v t := by
  refine h.mono (fun o ho => ?_) hm
  rw [mem_unheld, hc, hh] at ho
  exact mem_unheld.mpr ho

/-- A call that goes from a stage neither scripted nor awaiting to another such. -/
theorem OneUnheld.goTo (h : OneUnheld u v s) {i : ℕ} {next : Option Call}
    (hold : ∀ c, s.calls i = some c → c.stage ≠ .scripted ∧ c.stage ≠ .awaiting)
    (hnew : ∀ c, next = some c → c.stage ≠ .scripted ∧ c.stage ≠ .awaiting) :
    OneUnheld u v (s.goTo i next) := by
  refine h.frame rfl (fun o => ?_) fun hm => ?_
  · exact inFlight_goTo_of_not (fun c hc hp => (hold c hc).1 hp.2.1)
      fun c hc hp => (hnew c hc).1 hp.2.1
  · refine hm.imp_right (inFlight_goTo_of_not (fun c hc hp => (hold c hc).2 hp.2)
      fun c hc hp => (hnew c hc).2 hp.2).mpr

/-! ## Each step -/

theorem OneUnheld.pipeline {action : Pipeline.Action} {p : Pipeline.State}
    (hs : Consistent rejects s) (h : OneUnheld u v s) (hallowed : Allowed s (.pipeline action))
    (he : enabled s action = true) (hstep : Pipeline.step rejects s.pipeline action = some p) :
    OneUnheld u v { s with pipeline := p } := by
  have hp := coherent_step hs.coherent hstep
  cases step_effect hs.coherent hstep with
  | quiet stores granted =>
    refine h.frame (claims_congr hs.coherent hp granted stores.orders) (fun o => Iff.rfl)
      fun hm => ?_
    rwa [stores.purchased]
  | reserved call n action accepted fresh _ _ notPurchased _ redis db granted =>
    subst action
    have hclaims := @claims_reserve rejects s.pipeline p u v call hs.coherent hp fresh db granted
    by_cases huv : call.userId = u ∧ call.voucherId = v
    · rw [if_pos huv] at hclaims
      obtain ⟨rfl, rfl⟩ := huv
      have htake : Exclusive (insert call.orderId (unheld call.userId call.voucherId s))
          (call.userId ∈ p.redis.purchased call.voucherId ∨
            Owed call.userId call.voucherId s) := by
        refine Exclusive.take h (fun hm => ?_) (Or.inl (by simp [redis, Redis.reserve]))
        exact hm.elim notPurchased (hallowed accepted)
      refine htake.mono (fun o ho => ?_) id
      obtain ⟨ho, hheld⟩ := mem_unheld.mp ho
      rw [show claims call.userId call.voucherId ({ s with pipeline := p } : State).pipeline =
        insert call.orderId (claims call.userId call.voucherId s.pipeline) from hclaims] at ho
      rcases Finset.mem_insert.mp ho with rfl | ho
      · exact Finset.mem_insert_self _ _
      · exact Finset.mem_insert_of_mem (mem_unheld.mpr ⟨ho, hheld⟩)
    · rw [if_neg huv] at hclaims
      refine h.frame hclaims (fun o => Iff.rfl) fun hm => hm.imp_left fun hu => ?_
      show u ∈ p.redis.purchased v
      rw [redis]
      by_cases hv : v = call.voucherId
      · subst hv
        simp [Redis.reserve, hu]
      · simpa [Redis.reserve, hv] using hu
  | persisted tx messages os _ _ created redis granted =>
    refine h.frame (claims_persist hs.coherent hp created granted) (fun o => Iff.rfl) fun hm => ?_
    rwa [redis]
  | cancelled j order n action _ _ _ _ _ _ =>
    subst action
    exact absurd he (by simp [enabled])

/-- The script of a call: its order is held from now on, and its user's mark is gone. -/
theorem OneUnheld.script {i : ℕ} {order : VoucherOrder} {redis : Redis}
    (hs : Consistent rejects s) (h : OneUnheld u v s)
    (ht : Coherent rejects { s.pipeline with redis := redis })
    (hi : s.calls i = some ⟨order, .opened⟩)
    (hredis : redis.purchased = Function.update s.pipeline.redis.purchased order.voucherId
      ((s.pipeline.redis.purchased order.voucherId).erase order.userId)) :
    OneUnheld u v ((s.withRedis redis).goTo i (some ⟨order, .scripted⟩)) := by
  have hclaims : claims u v ((s.withRedis redis).goTo i (some ⟨order, .scripted⟩)).pipeline =
      claims u v s.pipeline := claims_congr hs.coherent ht rfl rfl
  by_cases huv : order.userId = u ∧ order.voucherId = v
  · obtain ⟨rfl, rfl⟩ := huv
    have hmem := hs.mem_claims hi rfl
    have hfree : order.id ∈ unheld order.userId order.voucherId s := by
      refine mem_unheld.mpr ⟨hmem, ?_⟩
      rintro ⟨j, c, hj, ⟨-, hv⟩, hstage, -⟩
      have hji := hs.open_unique hi hj rfl (by rw [hstage]; rfl) hv
      subst hji
      rw [hi] at hj
      cases hj
      exact absurd hstage (by simp)
    refine Exclusive.mono (@Exclusive.drop _ _ _ _ False _ h hfree) (fun o ho => ?_) False.elim
    obtain ⟨ho, hheld⟩ := mem_unheld.mp ho
    rw [hclaims] at ho
    refine Finset.mem_erase.mpr ⟨?_, mem_unheld.mpr ⟨ho, ?_⟩⟩
    · rintro rfl
      exact hheld (inFlight_goTo.mpr (Or.inl ⟨_, rfl, ⟨rfl, rfl⟩, rfl, rfl⟩))
    · rintro ⟨j, c, hj, hof, hstage, hid⟩
      refine hheld (inFlight_goTo.mpr (Or.inr ⟨j, c, ?_, hj, hof, hstage, hid⟩))
      rintro rfl
      rw [hi] at hj
      cases hj
      exact absurd hstage (by simp)
  · have hold : ∀ c, s.calls i = some c → ¬c.IsOf u v := by
      intro c hc
      rw [hi] at hc
      cases hc
      exact huv
    refine h.frame hclaims (fun o => ?_) fun hm => hm.imp (fun hu => ?_) fun ho => ?_
    · refine inFlight_goTo_of_not (fun c hc hp => hold c hc hp.1) fun c hc hp => ?_
      cases hc
      exact huv hp.1
    · show u ∈ redis.purchased v
      rw [hredis]
      by_cases hv : v = order.voucherId
      · subst hv
        rw [Function.update_self]
        exact Finset.mem_erase.mpr ⟨fun he => huv ⟨he.symm, rfl⟩, hu⟩
      · rwa [Function.update_of_ne hv]
    · refine (inFlight_goTo_of_not (fun c hc hp => hold c hc hp.1) fun c hc hp => ?_).mpr ho
      cases hc
      exact huv hp.1

/-- The commit of a call drops the claim it holds. -/
theorem OneUnheld.commit {i : ℕ} {order : VoucherOrder} {db : Db} (hs : Consistent rejects s)
    (h : OneUnheld u v s) (hi : s.calls i = some ⟨order, .scripted⟩)
    (hdb : cancelInTransaction order s.pipeline.db = some db) :
    OneUnheld u v (((s.withDb db).goTo i none).lock order none) := by
  have hp := hs.coherent.cancelInTransaction hdb
  have hclaims := (@claims_cancel rejects s.pipeline { s.pipeline with db := db } u v order
    hs.coherent hp (hs.selected i _ hi) hdb rfl).1
  refine Exclusive.mono h (fun o ho => ?_) fun hm => hm.imp_right fun ho => ?_
  · obtain ⟨ho, hheld⟩ := mem_unheld.mp ho
    rw [show claims u v (((s.withDb db).goTo i none).lock order none).pipeline =
      (claims u v s.pipeline).erase order.id from hclaims] at ho
    obtain ⟨hne, ho⟩ := Finset.mem_erase.mp ho
    refine mem_unheld.mpr ⟨ho, ?_⟩
    rintro ⟨j, c, hj, hof, hstage, hid⟩
    by_cases hji : j = i
    · subst hji
      rw [hi] at hj
      cases hj
      exact hne hid.symm
    · exact hheld (inFlight_goTo.mpr (Or.inr ⟨j, c, hji, hj, hof, hstage, hid⟩))
  · refine (inFlight_goTo_of_not (fun c hc hp => ?_) (by simp)).mpr ho
    rw [show (s.withDb db).calls i = s.calls i from rfl, hi] at hc
    cases hc
    exact absurd hp.2 (by simp)

/-- The rollback of a call whose user has nothing else: the order is a claim again, and the mark is
owed. -/
theorem OneUnheld.rollback {i : ℕ} {order : VoucherOrder} (hs : Consistent rejects s)
    (h : OneUnheld u v s) (hi : s.calls i = some ⟨order, .scripted⟩)
    (hone : purchases order.userId order.voucherId s.pipeline ≤ 1) :
    OneUnheld u v ((s.goTo i (some ⟨order, .awaiting⟩)).lock order none) := by
  by_cases huv : order.userId = u ∧ order.voucherId = v
  · obtain ⟨rfl, rfl⟩ := huv
    refine ⟨?_, fun _ => Or.inr (inFlight_goTo.mpr (Or.inl ⟨_, rfl, ⟨rfl, rfl⟩, rfl⟩))⟩
    rw [← card_claims hs.coherent] at hone
    refine (Finset.card_le_card fun o ho => ?_).trans hone
    exact (mem_unheld.mp ho).1
  · have hold : ∀ c, s.calls i = some c → ¬c.IsOf u v := by
      intro c hc
      rw [hi] at hc
      cases hc
      exact huv
    refine h.frame rfl (fun o => ?_) fun hm => hm.imp_right fun ho => ?_
    · refine inFlight_goTo_of_not (fun c hc hp => hold c hc hp.1) fun c hc hp => ?_
      cases hc
      exact huv hp.1
    · refine (inFlight_goTo_of_not (fun c hc hp => hold c hc hp.1) fun c hc hp => ?_).mpr ho
      cases hc
      exact huv hp.1

/-- The compensation that finds stock gives the mark back. -/
theorem OneUnheld.compensate {i : ℕ} {order : VoucherOrder} {redis : Redis}
    (hs : Consistent rejects s) (h : OneUnheld u v s)
    (ht : Coherent rejects { s.pipeline with redis := redis })
    (hi : s.calls i = some ⟨order, .awaiting⟩)
    (hredis : redis.purchased = Function.update s.pipeline.redis.purchased order.voucherId
      (insert order.userId (s.pipeline.redis.purchased order.voucherId))) :
    OneUnheld u v ((s.withRedis redis).goTo i none) := by
  have hclaims : claims u v ((s.withRedis redis).goTo i none).pipeline = claims u v s.pipeline :=
    claims_congr hs.coherent ht rfl rfl
  have hstage : ∀ c, s.calls i = some c → c = ⟨order, .awaiting⟩ := by
    intro c hc
    rw [hi] at hc
    exact (Option.some.inj hc).symm
  refine h.frame hclaims (fun o => ?_) fun hm => ?_
  · refine inFlight_goTo_of_not (fun c hc hp => ?_) (by simp)
    rw [hstage c hc] at hp
    exact absurd hp.2.1 (by simp)
  · show u ∈ redis.purchased v ∨ _
    rw [hredis]
    by_cases huv : order.userId = u ∧ order.voucherId = v
    · obtain ⟨rfl, rfl⟩ := huv
      exact Or.inl (by simp)
    · refine hm.imp (fun hu => ?_) fun ho => ?_
      · by_cases hv : v = order.voucherId
        · subst hv
          simp [hu]
        · rwa [Function.update_of_ne hv]
      · refine (inFlight_goTo_of_not (fun c hc hp => ?_) (by simp)).mpr ho
        rw [hstage c hc] at hp
        exact huv hp.1

/-- **Every allowed step keeps it.** -/
theorem oneUnheld_step {a : Action} (hs : Consistent rejects s) (h : OneUnheld u v s)
    (hallowed : Allowed s a) (hstep : step rejects s a = some t) : OneUnheld u v t := by
  have ht := consistent_step hs hstep
  cases a with
  | pipeline action =>
    simp only [step] at hstep
    split at hstep
    · rename_i he
      obtain ⟨p, hp, rfl⟩ := Option.map_eq_some_iff.mp hstep
      exact h.pipeline hs hallowed he hp
    · exact absurd hstep (by simp)
  | select i pick u' v' =>
    simp only [step] at hstep
    split at hstep
    · exact absurd hstep (by simp)
    · rename_i hi
      cases hstep
      refine h.goTo (by simp [hi]) fun c hc => ?_
      obtain ⟨o, -, rfl⟩ := Option.map_eq_some_iff.mp hc
      simp
  | update i =>
    simp only [step] at hstep
    split at hstep
    · rename_i order hi
      split at hstep
      · exact absurd hstep (by simp)
      split at hstep
      · cases hstep
        exact h.goTo (by simp [hi]) (by simp)
      · cases hstep
        exact h.goTo (by simp [hi]) (by simp)
    · exact absurd hstep (by simp)
  | script i replyLost =>
    simp only [step] at hstep
    split at hstep
    · rename_i order hi
      cases hstep
      rcases cancelLua_cases order.voucherId order.userId s.pipeline.redis with
        ⟨-, heq⟩ | ⟨n, hn, hpos, heq⟩
      · -- a refused script changes nothing, and its call is not to be compensated
        rw [heq]
        exact h.goTo (by simp [hi]) (by simp)
      · have hreply : replyLost ≠ true := by
          intro hlost
          rw [hallowed _ hi hlost] at hn
          exact absurd hn (by simp)
        have hnext : ¬(replyLost = true ∨
            (cancelLua order.voucherId order.userId s.pipeline.redis).1 < 0) := by
          rintro (hlost | hlt)
          · exact hreply hlost
          · omega
        rw [if_neg hnext] at ht ⊢
        exact h.script hs ht.coherent hi (by rw [heq])
    · exact absurd hstep (by simp)
  | commit i =>
    simp only [step] at hstep
    split at hstep
    · rename_i order hi
      obtain ⟨db, hdb, rfl⟩ := Option.map_eq_some_iff.mp hstep
      exact h.commit hs hi hdb
    · exact absurd hstep (by simp)
  | rollback i =>
    simp only [step] at hstep
    split at hstep
    · rename_i order hi
      cases hstep
      exact h.rollback hs hi (hallowed _ hi rfl)
    · rename_i order hi
      cases hstep
      exact h.goTo (by simp [hi]) (by simp)
    · rename_i order hi
      cases hstep
      exact h.goTo (by simp [hi]) (by simp)
    · exact absurd hstep (by simp)
  | compensate i =>
    simp only [step] at hstep
    split at hstep
    · rename_i order hi
      cases hstep
      obtain ⟨n, hn, hpos⟩ := hallowed _ hi
      rcases cancelRollbackLua_cases order.voucherId order.userId s.pipeline.redis with
        ⟨hle, -⟩ | ⟨m, -, -, heq⟩
      · have := hle n hn
        omega
      · exact h.compensate hs ht.coherent hi (by rw [heq])
    · exact absurd hstep (by simp)

/-! ## Runs -/

theorem Start.oneUnheld (h : Start s) : OneUnheld u v s := by
  refine Exclusive.mono Exclusive.empty (fun o ho => ?_) id
  rw [← h.pipeline.claims (u := u) (v := v)]
  exact (mem_unheld.mp ho).1

/-- With no call in flight nothing is held. -/
theorem OneUnheld.atRest (hs : Consistent rejects s) (h : OneUnheld u v s) (hr : AtRest u v s) :
    purchases u v s.pipeline ≤ 1 := by
  rw [← card_claims hs.coherent]
  refine (Finset.card_le_card fun o ho => mem_unheld.mpr ⟨ho, ?_⟩).trans h.one
  rintro ⟨i, c, hc, hof, -⟩
  exact hr ⟨i, c, hc, hof⟩

/-- **One live purchase at rest.** In a run from a start whose steps are all allowed, a user with no
cancellation in flight has at most one live order or outstanding reservation of the voucher. -/
theorem one_purchase_at_rest (rejects : Reservation → Bool) {s t : State} {as : List Action}
    (hstart : Start s) (hallowed : Along (step rejects) Allowed s as)
    (hrun : run (step rejects) s as = some t) (u : UserId) (v : VoucherId) (hrest : AtRest u v t) :
    purchases u v t.pipeline ≤ 1 := by
  have hkeep : Preserves (step rejects) Allowed
      fun s => Consistent rejects s ∧ OneUnheld u v s := by
    intro s a t ha hs hstep
    exact ⟨consistent_step hs.1 hstep, oneUnheld_step hs.1 hs.2 ha hstep⟩
  obtain ⟨ht, hone⟩ := run_invariant hkeep hallowed ⟨hstart.consistent, hstart.oneUnheld⟩ hrun
  exact hone.atRest ht hrest

/-- Voucher 7 on sale with `n` units, and no call in flight. -/
def calm (n : ℤ) : State := ⟨onSale n, fun _ => none, fun _ => none, fun _ => none⟩

theorem start_calm (n : ℤ) : Start (calm n) :=
  ⟨start_onSale n, fun _ => rfl, fun _ => rfl, fun _ => rfl⟩

/-- Order `o` of user 5 reaches the table, and a call of the user runs its script. -/
def cancelling (id : ℕ) (o : OrderId) : List Action :=
  (relayOne ++ ([.send (rowOf id o 5) true,
      .createOrders atZero [(rowOf id o 5).toMessage true]] :
        List Pipeline.Action)).map .pipeline ++
    [.select 0 NewestFirst.first 5 7, .update 0, .script 0 false]

/-- Only call 0 is in flight; no compensation is owed, no reply lost, and at a rollback the user has
one purchase. -/
def quietCall (s : State) : Action → Bool
  | .pipeline _ => (s.calls 0).all fun c => decide (c.stage ≠ .awaiting)
  | .script i replyLost => decide (i = 0) && !replyLost
  | .rollback i => decide (i = 0) && (s.calls 0).all fun c =>
    decide (purchases c.order.userId c.order.voucherId s.pipeline ≤ 1)
  | .compensate i => decide (i = 0) && (s.calls 0).all fun c =>
    (s.pipeline.redis.stock c.order.voucherId).any fun n => decide (0 < n)
  | .select i _ _ _ => decide (i = 0)
  | .update i => decide (i = 0)
  | .commit i => decide (i = 0)

theorem allowed_of_quietCall {a : Action} (hs : ∀ i, i ≠ 0 → s.calls i = none)
    (ha : quietCall s a = true) : Allowed s a := by
  cases a with
  | pipeline action =>
    cases action with
    | seckill call =>
      rintro - ⟨i, c, hc, -, hstage⟩
      by_cases hi : i = 0
      · simp only [quietCall, hi ▸ hc, Option.all_some, decide_eq_true_eq] at ha
        exact ha hstage
      · rw [hs i hi] at hc
        exact absurd hc (by simp)
    | _ => trivial
  | script i replyLost =>
    rintro c - rfl
    simp [quietCall] at ha
  | rollback i =>
    rintro c hc -
    simp only [quietCall, Bool.and_eq_true, decide_eq_true_eq] at ha
    simpa [ha.1 ▸ hc] using ha.2
  | compensate i =>
    rintro c hc
    simp only [quietCall, Bool.and_eq_true, decide_eq_true_eq] at ha
    simpa [ha.1 ▸ hc, Option.any_eq_true] using ha.2
  | _ => trivial

theorem quietCall_call {a : Action} (ha : quietCall s a = true) {j : ℕ} (hj : j ≠ 0) :
    a.call ≠ some j := by
  rintro h
  cases a <;> cases h <;> simp [quietCall, hj] at ha

/-- User 5 buys, cancels, buys again, and the second cancellation is rolled back and compensated. -/
def cancelledOnce : List Action :=
  .pipeline (buy 1 5) :: cancelling 1 1 ++ [.commit 0] ++
    .pipeline (buy 2 5) :: cancelling 2 2 ++ [.rollback 0, .compensate 0]

theorem one_purchase_at_rest_committed :
    ∃ t, run (step fun _ => false) (calm 2) cancelledOnce = some t ∧ AtRest 5 7 t ∧
      t.pipeline.granted.length = 2 ∧ purchases 5 7 t.pipeline ≤ 1 := by
  obtain ⟨t, ht, hp⟩ := (Option.any_eq_true _ _).mp
    (show (run (step fun _ => false) (calm 2) cancelledOnce).any (fun t =>
      decide (t.calls 0 = none ∧ t.pipeline.granted.length = 2)) = true by decide +kernel)
  obtain ⟨hcall, hgranted⟩ := of_decide_eq_true hp
  have hquiet : Preserves (step fun _ => false) (fun s a => quietCall s a = true)
      fun s => ∀ i, i ≠ 0 → s.calls i = none :=
    fun _ _ _ ha hs hstep i hi => (step_calls (quietCall_call ha hi) hstep).trans (hs i hi)
  have hidle : ∀ i, i ≠ 0 → (calm 2).calls i = none := fun _ _ => rfl
  have halong : Along (step fun _ => false) (fun s a => quietCall s a = true) (calm 2)
      cancelledOnce := by decide +kernel
  have hrest : AtRest 5 7 t := by
    rintro ⟨i, c, hc, -⟩
    have hnone : t.calls i = none := by
      by_cases hi : i = 0
      · rw [hi, hcall]
      · exact run_invariant hquiet halong hidle ht i hi
    rw [hnone] at hc
    exact absurd hc (by simp)
  exact ⟨t, ht, hrest, hgranted, one_purchase_at_rest (fun _ => false) (start_calm 2)
    (along_mono (fun _ _ => allowed_of_quietCall) hquiet hidle halong) ht 5 7 hrest⟩

/-- User 5 buys again before the transaction is rolled back. -/
def boughtTwice : List Action :=
  .pipeline (buy 1 5) :: cancelling 1 1 ++ [.pipeline (buy 2 5), .rollback 0, .compensate 0]

/-- **The law fails**: the user buys, starts to cancel, buys again after the script, and the
transaction is rolled back. With nothing in flight any more, the user has the first order, live,
and the reservation of the second. -/
theorem bought_twice :
    ¬∀ (rejects : Reservation → Bool) (s t : State) (as : List Action), Start s →
      run (step rejects) s as = some t → ∀ u v, AtRest u v t → purchases u v t.pipeline ≤ 1 := by
  intro h
  have hres : (run (step fun _ => false) (calm 2) boughtTwice).any (fun t =>
      (t.calls 0).isNone && decide (purchases 5 7 t.pipeline = 2)) = true := by decide +kernel
  obtain ⟨t, ht, hp⟩ := (Option.any_eq_true _ _).mp hres
  simp only [Bool.and_eq_true, Option.isNone_iff_eq_none, decide_eq_true_eq] at hp
  have hrest : AtRest 5 7 t := by
    rintro ⟨i, c, hc, -⟩
    by_cases hi : i = 0
    · rw [hi, hp.1] at hc
      exact absurd hc (by simp)
    · have hother : ∀ a ∈ boughtTwice, a.call ≠ some i := by
        intro a ha he
        have hall : ∀ a ∈ boughtTwice, a.call = none ∨ a.call = some 0 := by decide
        rcases hall a ha with hn | hz
        · rw [hn] at he
          exact absurd he (by simp)
        · rw [hz] at he
          exact hi (Option.some.inj he).symm
      rw [run_calls hother ht] at hc
      exact absurd hc (by simp [calm])
  have := h _ _ _ _ (start_calm 2) ht 5 7 hrest
  omega

end Hmdp.Cancel.Flight
