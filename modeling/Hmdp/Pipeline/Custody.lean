import Hmdp.Pipeline.Effect

/-!
# No accepted order is lost

An order id for which `seckill.lua` has returned 0 is in one of the four stores for good, with its
user and voucher. A member leaves the handoff set only after its outbox row is committed, or by
moving to quarantine in the same script; and the accepted hash has exactly the orders of those two
sets, although the relay and the synchronous accept both clean up after themselves and after each
other.

* **`accepted_order_kept`**: all three, for every run.
-/

namespace Hmdp.Pipeline

open Hmdp.Lib Hmdp.Model

variable {rejects : Reservation → Bool} {s t : State} {r : Reservation}

/-- The order is in one of the four stores, with its user and voucher. -/
def Kept (s : State) (r : Reservation) : Prop :=
  InHandoff s.redis r ∨ InQuarantine s.redis r ∨ InOutbox s.db r ∨
    ∃ o ∈ s.db.orders.rows, o.id = r.orderId ∧ o.userId = r.userId ∧ o.voucherId = r.voucherId

/-- A member the step removes from the handoff set has its outbox row, or the step quarantines
it. -/
def HandsOver (s t : State) : Prop :=
  ∀ v, ∀ m ∈ (s.redis.handoff v).members, m ∉ (t.redis.handoff v).members →
    (∃ r, r.voucherId = v ∧ r.member = m ∧ InOutbox s.db r) ∨
      ∃ reason, t.redis.quarantine = insert ⟨v, m, reason⟩ s.redis.quarantine

/-- The accepted hash has the orders of the handoff sets and the quarantine. -/
def AcceptedAgrees (redis : Redis) : Prop :=
  ∀ o, (redis.accepted o).isSome ↔
    ∃ v, ∃ r ∈ handoffReservations v redis ∪ quarantineReservations v redis, r.orderId = o

/-! ## The three laws -/

theorem Coherent.kept (h : Coherent rejects s) (hr : r ∈ s.granted) : Kept s r := by
  rcases h.custody r hr with hc | hc | hc
  · exact Or.inl hc
  · exact Or.inr (Or.inl hc)
  · exact Or.inr (Or.inr (Or.inl hc))

theorem Coherent.acceptedAgrees (h : Coherent rejects s) : AcceptedAgrees s.redis := by
  intro o
  rw [h.accepted o]
  simp only [Finset.mem_union, h.mem_handoffReservations, h.mem_quarantineReservations]
  constructor
  · rintro ⟨r, hr, rfl, hin⟩
    exact ⟨r.voucherId, r, hin.imp (fun hh => ⟨hr, rfl, hh⟩) fun hq => ⟨hr, rfl, hq⟩, rfl⟩
  · rintro ⟨v, r, ⟨hr, -, hin⟩ | ⟨hr, -, hin⟩, rfl⟩
    · exact ⟨r, hr, rfl, Or.inl hin⟩
    · exact ⟨r, hr, rfl, Or.inr hin⟩

theorem Coherent.handsOver {a : Action} (h : Coherent rejects s)
    (hstep : step rejects s a = some t) : HandsOver s t := by
  intro v m hm hgone
  cases step_handoff h hstep with
  | kept handoff =>
    rw [handoff] at hgone
    exact absurd hm hgone
  | reserved c n _ redis =>
    rw [redis] at hgone
    exact absurd (Redis.mem_reserve_handoff.mpr (Or.inr hm)) hgone
  | completed w rs voucher committed redis =>
    have hmem := (handoffComplete_snd w (rs.map fun r => (r.member, r.orderId)) s.redis).1 v m
    rw [← redis] at hmem
    have hremoved : v = w ∧ m ∈ (rs.map fun r => (r.member, r.orderId)).map Prod.fst := by
      by_contra hc
      exact hgone (hmem.mpr ⟨hm, fun hv hin => hc ⟨hv, hin⟩⟩)
    obtain ⟨rfl, hin⟩ := hremoved
    simp only [List.map_map, List.mem_map, Function.comp_apply] at hin
    obtain ⟨r, hr, rfl⟩ := hin
    exact Or.inl ⟨r, voucher r hr, rfl, committed r hr⟩
  | quarantined r reason rejected redis =>
    rcases handoffQuarantine_cases r.voucherId r.member reason s.redis with ⟨-, heq⟩ | ⟨-, heq⟩
    · rw [redis, heq] at hgone
      exact absurd hm hgone
    · rw [redis, heq] at hgone
      have hv : v = r.voucherId := by
        by_contra hne
        simp only [Function.update_of_ne hne] at hgone
        exact hgone hm
      subst hv
      have hmr : m = r.member := by
        by_contra hne
        simp only [Function.update_self, ZSet.mem_zrem, List.mem_singleton, not_and,
          not_not] at hgone
        exact hne (hgone hm)
      subst hmr
      exact Or.inr ⟨reason, by rw [redis, heq]⟩

/-! ## Runs -/

theorem granted_step {a : Action} (h : Coherent rejects s) (hstep : step rejects s a = some t)
    (hr : r ∈ s.granted) : r ∈ t.granted := by
  cases step_effect h hstep with
  | quiet _ granted => rwa [granted]
  | reserved c n _ _ _ _ _ _ _ _ _ granted =>
    rw [granted]
    exact List.mem_cons_of_mem _ hr
  | persisted tx messages os _ _ _ _ granted => rwa [granted]
  | cancelled _ order n _ _ _ _ _ _ granted => rwa [granted]

theorem granted_run {as : List Action} (h : Coherent rejects s)
    (hrun : run (step rejects) s as = some t) (hr : r ∈ s.granted) : r ∈ t.granted :=
  (run_invariant' (I := fun s => Coherent rejects s ∧ r ∈ s.granted)
    (fun _ _ _ hs hstep => ⟨coherent_step hs.1 hstep, granted_step hs.1 hstep hs.2⟩)
    ⟨h, hr⟩ hrun).2

/-- **No accepted order is ever lost.** In every run from a start, an order that
`seckill.lua` has accepted is kept; the next step hands over whatever it takes out of a handoff
set; and the accepted hash agrees with the handoff sets and the quarantine. -/
theorem accepted_order_kept (rejects : Reservation → Bool) {s t : State} {as : List Action}
    (hstart : Start s) (hrun : run (step rejects) s as = some t) :
    (∀ bs c cs u, as = bs ++ .seckill c :: cs → run (step rejects) s bs = some u →
        (seckillLua c u.redis).1 = 0 → Kept t c.reservation) ∧
      (∀ a u, step rejects t a = some u → HandsOver t u) ∧ AcceptedAgrees t.redis := by
  have hs : Coherent rejects s := hstart.coherent
  have ht := coherent_run hs hrun
  refine ⟨?_, fun a u hstep => ht.handsOver hstep, ht.acceptedAgrees⟩
  rintro bs c cs u rfl hbs hcode
  obtain ⟨u', hu', hrest⟩ := run_append.mp hrun
  have heq : u' = u := Option.some.inj (hu'.symm.trans hbs)
  subst heq
  obtain ⟨w, hw, hcs⟩ := run_cons.mp hrest
  have hcu := coherent_run hs hbs
  have hgranted : c.reservation ∈ w.granted := by
    simp only [step] at hw
    split at hw
    · exact absurd hw (by simp)
    · cases hw
      exact List.mem_cons_self
  exact ht.kept (granted_run (coherent_step hcu hw) hcs hgranted)

/-- Two orders: MySQL refuses the second, so the relay isolates it; the first is accepted
synchronously as well, and both clean up. -/
def relayedAndQuarantined : List Action :=
  [buy 1 5, buy 2 6, .fetch 0 7 10 0, .relayTask 0, .relayTask 0, .accept [⟨1, 7, 5, false⟩] 0,
    .relayTask 0, .relayTask 0, .completeHandoff ⟨1, 7, 5, false⟩, .relayTask 0]

theorem accepted_order_kept_relayed :
    ∃ t, run (step fun r => r.orderId = 2) (onSale 2) relayedAndQuarantined = some t ∧
      (∀ bs c cs u, relayedAndQuarantined = bs ++ .seckill c :: cs →
          run (step fun r => r.orderId = 2) (onSale 2) bs = some u →
          (seckillLua c u.redis).1 = 0 → Kept t c.reservation) ∧
        (∀ a u, step (fun r => r.orderId = 2) t a = some u → HandsOver t u) ∧
          AcceptedAgrees t.redis := by
  obtain ⟨t, ht⟩ := Option.isSome_iff_exists.mp
    (show (run (step fun r => r.orderId = 2) (onSale 2) relayedAndQuarantined).isSome = true by
      decide +kernel)
  exact ⟨t, ht, accepted_order_kept (fun r => r.orderId = 2) (start_onSale 2) ht⟩

end Hmdp.Pipeline
