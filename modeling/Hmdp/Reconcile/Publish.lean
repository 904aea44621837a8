import Hmdp.Reconcile.Timed

/-!
# What a rebuild publishes

The staging set gets its expiry time once; the batches that follow do not renew it, and a batch
written after it has expired starts a new set. What is published are the users written since then.

`Staged` says where the users of the call are: still to be written, in the staging set, or missing.
A user is missing from the moment the set expires after their batch, and stays missing, since
no user is written twice (`staged_step`).

* **`whole_or_nothing`**: the published set is complete iff the staging set has not expired after
  a batch, and no other command of the call touches stock or purchased users.
* `kept_in_time`: it has not when the batches take less than its expiry time.
* **`published_partly`**: a call of four batches that loses three of them.
-/

namespace Hmdp.Reconcile.Timed

open Hmdp.Lib Hmdp.Model

variable {c : Call} {s t : State} {U L : Finset UserId}

/-- The users the call has collected, at the end of the merge and before its first renewal. -/
def Pc.collected : Pc → Option (LinkedSet UserId)
  | .running (.merging _ purchasedUserIds [] _) => some purchasedUserIds
  | _ => none

theorem collected_eq_some {pc : Pc} {purchasedUserIds : LinkedSet UserId}
    (h : pc.collected = some purchasedUserIds) : ∃ reservedOrderIds handoffOnly,
      pc = .running (.merging reservedOrderIds purchasedUserIds [] handoffOnly) := by
  unfold Pc.collected at h
  split at h <;> cases h
  exact ⟨_, _, rfl⟩

/-- In `writeUsersInBatches`, or right after it. -/
def Pc.isWriting : Pc → Bool
  | .running (.writing _ _) | .running (.written _ _) => true
  | _ => false

/-- The staging set does not expire once users are written to it. -/
def Call.KeepsStaging (c : Call) (s : State) : Action → Prop
  | .wait milliseconds => s.pc.isWriting = true →
    due (s.clock + milliseconds) s.stagingUntil = true → s.redis.staged c.voucherId c.token = ∅
  | _ => True

instance (s : State) (a : Action) : Decidable (c.KeepsStaging s a) := by
  cases a <;> unfold Call.KeepsStaging <;> infer_instance

/-- Of the users `U`, those still to be written are not staged; of the others all but the missing
ones `L` are. -/
structure Written (U L : Finset UserId) (userIds : List UserId) (staged : Finset UserId) :
    Prop where
  nodup : userIds.Nodup
  subset : userIds.toFinset ⊆ U
  missing : L ⊆ U \ userIds.toFinset
  staged : staged = (U \ userIds.toFinset) \ L

/-- Where the users of a call are that has collected `U`, stands there and has staged these. -/
def Pc.Users (U L staged : Finset UserId) : Pc → Prop
  | .start | .running .locked | .running (.outboxRead _ _) | .running (.ordersRead _ _)
  | .running (.merging _ _ (_ :: _) _) => False
  | .running (.merging _ purchasedUserIds [] _) | .running (.renewed purchasedUserIds _) =>
    purchasedUserIds.elements.toFinset = U ∧ L = ∅
  | .running (.cleared purchasedUserIds _) =>
    purchasedUserIds.elements.toFinset = U ∧ staged = ∅ ∧ L = ∅
  | .running (.sentinelAdded userIds _) =>
    userIds.toFinset = U ∧ userIds.Nodup ∧ staged = ∅ ∧ L = ∅
  | .running (.writing userIds _) | .running (.written userIds _) => Written U L userIds staged
  | .running .failed | .running .unstaged | .returned _ | .thrown => True

/-- Where the users of the call are. -/
def Call.Staged (c : Call) (U L : Finset UserId) (s : State) : Prop :=
  s.pc.Users U L (s.redis.staged c.voucherId c.token)

/-! ## One step -/

/-- A batch moves users from those to be written to the staged ones. -/
theorem Written.batch {userIds : List UserId} {staged : Finset UserId}
    (h : Written U L userIds staged) (n : ℕ) :
    Written U L (userIds.drop n) (staged ∪ (userIds.take n).toFinset) := by
  have hsplit : ∀ u, u ∈ userIds.toFinset ↔
      u ∈ (userIds.take n).toFinset ∨ u ∈ (userIds.drop n).toFinset := by
    intro u
    rw [List.mem_toFinset, List.mem_toFinset, List.mem_toFinset, ← List.mem_append,
      List.take_append_drop]
  have hdisjoint : ∀ u ∈ (userIds.take n).toFinset, u ∉ (userIds.drop n).toFinset := by
    intro u hu hu'
    have hnodup := h.nodup
    rw [← List.take_append_drop n userIds, List.nodup_append] at hnodup
    exact hnodup.2.2 u (List.mem_toFinset.mp hu) u (List.mem_toFinset.mp hu') rfl
  refine ⟨h.nodup.sublist (List.drop_sublist n userIds), fun u hu => h.subset ?_,
    fun u hu => ?_, ?_⟩
  · exact (hsplit u).mpr (Or.inr hu)
  · obtain ⟨hU, hnot⟩ := Finset.mem_sdiff.mp (h.missing hu)
    exact Finset.mem_sdiff.mpr ⟨hU, fun hdrop => hnot ((hsplit u).mpr (Or.inr hdrop))⟩
  · ext u
    have hmissing := @h.missing u
    have hsubset := @h.subset u
    simp only [h.staged, Finset.mem_union, Finset.mem_sdiff] at hmissing ⊢
    have hu := hsplit u
    have hd := hdisjoint u
    tauto

/-- With the staging set gone, everybody written so far is missing. -/
theorem Written.gone {userIds : List UserId} {staged : Finset UserId}
    (h : Written U L userIds staged) : Written U (U \ userIds.toFinset) userIds ∅ :=
  ⟨h.nodup, h.subset, Finset.Subset.refl _, (Finset.sdiff_self _).symm⟩

/-- What time leaves of the staging set. -/
theorem staged_elapse (c : Call) (now : ℤ) (s : State) :
    (c.elapse now s).redis.staged c.voucherId c.token =
      if due now s.stagingUntil then ∅ else s.redis.staged c.voucherId c.token := by
  unfold Call.elapse Redis.staged
  by_cases h : due now s.stagingUntil
  · simp [h, Redis.setStaging]
  · simp [h]

/-- Others leave the staging set alone. -/
theorem staged_others {redis : Redis} {db : Db} {recoveryUntil orderUntil : Option ℤ}
    (hstep : c.step s (.others redis db recoveryUntil orderUntil) = some t) :
    t.pc = s.pc ∧ t.redis.staged c.voucherId c.token = s.redis.staged c.voucherId c.token := by
  simp only [Call.step] at hstep
  split at hstep
  · cases hstep
    exact ⟨rfl, by simp [Redis.staged, Redis.setStaging]⟩
  · split at hstep <;> cases hstep
    exact ⟨rfl, by simp [Redis.staged, Redis.setStaging]⟩

/-- A renewal goes on, or fails. -/
theorem Call.advance_renew (c : Call) (s : State) (phase next : Phase)
    (h : ((c.rebuild phase).advance c.batchSize s.redis s.db).2 =
      (c.rebuild phase).renewRecoveryLease s.redis next) :
    c.advance phase s = { c.advance phase s with pc := .running next } ∨
      c.advance phase s = { c.advance phase s with pc := .running .failed } := by
  have hpc : (c.advance phase s).pc =
      Pc.after ((c.rebuild phase).renewRecoveryLease s.redis next) :=
    congrArg Pc.after h
  unfold Rebuild.renewRecoveryLease at hpc
  split at hpc
  · exact Or.inl (by rw [← show _ = Pc.running next from hpc])
  · exact Or.inr (by rw [← show _ = Pc.running .failed from hpc])

/-- The next command of the `try` block. -/
theorem staged_advance {phase : Phase} (hpc : s.pc = .running phase)
    (h : c.Staged U L s) : c.Staged U L (c.advance phase s) := by
  unfold Call.Staged at h
  rw [hpc] at h
  cases phase with
  | locked => exact h.elim
  | outboxRead reservedOrderIds purchasedUserIds => exact h.elim
  | ordersRead reservedOrderIds purchasedUserIds => exact h.elim
  | merging reservedOrderIds purchasedUserIds members handoffOnly =>
    cases members with
    | nil =>
      rcases c.advance_renew s (.merging reservedOrderIds purchasedUserIds [] handoffOnly)
        (.renewed purchasedUserIds _) rfl with heq | heq
      · rw [heq]
        exact h
      · rw [heq]
        trivial
    | cons member members => exact h.elim
  | renewed purchasedUserIds expectedStock =>
    refine ⟨h.1, ?_, h.2⟩
    simp [Call.advance, Rebuild.advance, Call.rebuild, Redis.staged, Redis.setStaging]
  | cleared purchasedUserIds expectedStock =>
    refine ⟨h.1, purchasedUserIds.nodup, ?_, h.2.2⟩
    simpa [Call.advance, Rebuild.advance, Call.rebuild, Redis.staged, Redis.addSentinel,
      Redis.setStaging] using h.2.1
  | sentinelAdded userIds expectedStock =>
    obtain ⟨hsame, hnodup, hstaged, rfl⟩ := h
    refine ⟨hnodup, by rw [hsame], Finset.empty_subset _, ?_⟩
    rw [hsame, Finset.sdiff_self, Finset.empty_sdiff]
    exact hstaged
  | writing userIds expectedStock =>
    cases userIds with
    | nil =>
      rcases rebuildLua_cases c.voucherId c.token expectedStock s.redis with ⟨-, heq⟩ | ⟨-, heq⟩
      · simp [Call.Staged, Call.advance, Rebuild.advance, Call.rebuild, heq, Pc.after, Pc.Users]
      · simp [Call.Staged, Call.advance, Rebuild.advance, Call.rebuild, heq, Pc.after, Pc.Users]
    | cons u userIds =>
      have hbatch := Written.batch h c.batchSize
      rw [← Redis.staged_addStaged] at hbatch
      exact hbatch
  | written userIds expectedStock =>
    rcases c.advance_renew s (.written userIds expectedStock) (.writing userIds expectedStock) rfl
      with heq | heq
    · rw [heq]
      exact h
    · rw [heq]
      trivial
  | failed => trivial
  | unstaged => trivial

/-- A command moves users from one place to the next, and loses none. -/
theorem staged_execute (h : c.Staged U L s) :
    c.Staged U L (c.execute s) := by
  unfold Call.execute
  cases hpc : s.pc with
  | start =>
    unfold Call.Staged at h
    rw [hpc] at h
    exact h.elim
  | running phase => exact staged_advance hpc h
  | returned acquired => exact h
  | thrown => exact h

/-- An exception ends the call, or is caught. -/
theorem throw_cases {pc pc' : Pc} (h : pc.throw = some pc') :
    pc' = .thrown ∨ pc' = .running .failed := by
  unfold Pc.throw at h
  split at h <;> cases h
  · exact Or.inl rfl
  · rename_i phase
    cases phase with
    | failed => exact Or.inl rfl
    | unstaged => exact Or.inl rfl
    | _ => exact Or.inr rfl

/-- In the loop over the batches the users are as `Written` says. -/
theorem written_of_isWriting {pc : Pc} {staged : Finset UserId} (hpc : pc.isWriting = true)
    (h : pc.Users U L staged) : ∃ userIds, Written U L userIds staged ∧
      ∀ L' staged', Written U L' userIds staged' → pc.Users U L' staged' := by
  unfold Pc.isWriting at hpc
  split at hpc
  · exact ⟨_, h, fun _ _ hw => hw⟩
  · exact ⟨_, h, fun _ _ hw => hw⟩
  · exact absurd hpc (by simp)

/-- Outside of it nothing is staged yet, or nothing will be published. -/
theorem users_of_not_isWriting {pc : Pc} {staged : Finset UserId} (hpc : ¬pc.isWriting = true)
    (h : pc.Users U L staged) : pc.Users U L ∅ := by
  unfold Pc.Users at h ⊢
  split at h
  all_goals first | exact h | skip
  · exact ⟨h.1, rfl, h.2.2⟩
  · exact ⟨h.1, h.2.1, rfl, h.2.2.2⟩
  · exact absurd rfl hpc
  · exact absurd rfl hpc

/-- **Time loses users exactly when it takes the staging set with users in it.** -/
theorem staged_wait (milliseconds : ℕ) (h : c.Staged U L s) :
    ∃ L', c.Staged U L' (c.elapse (s.clock + milliseconds) s) ∧
      (L' = ∅ ↔ L = ∅ ∧ c.KeepsStaging s (.wait milliseconds)) := by
  have hgone := staged_elapse c (s.clock + milliseconds) s
  by_cases hdue : due (s.clock + milliseconds) s.stagingUntil = true
  · rw [if_pos hdue] at hgone
    unfold Call.Staged at h ⊢
    rw [hgone]
    show ∃ L', s.pc.Users U L' ∅ ∧ _
    by_cases hwriting : s.pc.isWriting = true
    · obtain ⟨userIds, hw, hw'⟩ := written_of_isWriting hwriting h
      refine ⟨U \ userIds.toFinset, hw' _ _ hw.gone, ?_⟩
      have hkeep : c.KeepsStaging s (.wait milliseconds) ↔
          s.redis.staged c.voucherId c.token = ∅ :=
        ⟨fun h => h hwriting hdue, fun h _ _ => h⟩
      rw [hkeep, hw.staged]
      constructor
      · intro hempty
        have hmissing := hw.missing
        rw [hempty] at hmissing
        rw [hempty]
        exact ⟨Finset.subset_empty.mp hmissing, Finset.empty_sdiff _⟩
      · rintro ⟨rfl, hempty⟩
        rwa [Finset.sdiff_empty] at hempty
    · refine ⟨L, users_of_not_isWriting hwriting h, ⟨fun hL => ⟨hL, ?_⟩, And.left⟩⟩
      exact fun h => absurd h hwriting
  · rw [if_neg hdue] at hgone
    refine ⟨L, ?_, ⟨fun hL => ⟨hL, fun _ h => absurd h hdue⟩, And.left⟩⟩
    unfold Call.Staged
    rw [hgone]
    exact h

/-- **A step keeps track of the users**, and none goes missing iff none was and the step keeps
the staging set. -/
theorem staged_step {a : Action} (h : c.Staged U L s) (hstep : c.step s a = some t) :
    ∃ L', c.Staged U L' t ∧ (L' = ∅ ↔ L = ∅ ∧ c.KeepsStaging s a) := by
  have hkept : (L = ∅ ↔ L = ∅ ∧ True) := by simp
  cases a with
  | wait milliseconds =>
    cases hstep
    exact staged_wait milliseconds h
  | others redis db recoveryUntil orderUntil =>
    obtain ⟨hpc, hstaged⟩ := staged_others hstep
    refine ⟨L, ?_, hkept⟩
    unfold Call.Staged
    rw [hpc, hstaged]
    exact h
  | command =>
    obtain ⟨pc, -, rfl⟩ := Option.map_eq_some_iff.mp hstep
    exact ⟨L, staged_execute h, hkept⟩
  | fail applied =>
    obtain ⟨pc, hpc, rfl⟩ := Option.map_eq_some_iff.mp hstep
    refine ⟨L, ?_, hkept⟩
    rcases throw_cases hpc with rfl | rfl <;> trivial

/-- The end of the merge hands over the users, all of them present. -/
theorem staged_of_collected {users : LinkedSet UserId} (h : s.pc.collected = some users) :
    c.Staged users.elements.toFinset ∅ s := by
  obtain ⟨reservedOrderIds, handoffOnly, hpc⟩ := collected_eq_some h
  unfold Call.Staged
  rw [hpc]
  exact ⟨rfl, rfl⟩

/-! ## The rebuild script -/

theorem rebuilds_eq_true {a : Action} (h : c.rebuilds s a = true) :
    (∃ expectedStock, s.pc = .running (.writing [] expectedStock)) ∧
      s.redis.recovery c.voucherId = some c.token ∧ (a = .command ∨ a = .fail true) := by
  unfold Call.rebuilds at h
  split at h
  · exact ⟨⟨_, by assumption⟩, of_decide_eq_true h, Or.inl rfl⟩
  · exact ⟨⟨_, by assumption⟩, of_decide_eq_true h, Or.inr rfl⟩
  · exact absurd h (by simp)

/-- At the rebuild script the staged users are all but the missing ones. -/
theorem staged_of_script {expectedStock : ℤ} (hpc : s.pc = .running (.writing [] expectedStock))
    (h : c.Staged U L s) :
    s.redis.staged c.voucherId c.token = U \ L ∧ (U \ L = U ↔ L = ∅) := by
  unfold Call.Staged at h
  rw [hpc] at h
  have hw : Written U L [] (s.redis.staged c.voucherId c.token) := h
  have hmissing : L ⊆ U := by simpa using hw.missing
  refine ⟨by simpa using hw.staged, ?_⟩
  rw [Finset.sdiff_eq_self_iff_disjoint]
  refine ⟨fun hdisjoint => ?_, fun hL => hL ▸ Finset.disjoint_empty_right _⟩
  exact (Finset.disjoint_self_iff_empty L).mp (hdisjoint.mono_left hmissing)

/-- A script that returns 1 publishes what is staged. -/
theorem redis_of_rebuilds {a : Action} (h : c.rebuilds s a = true) (hstep : c.step s a = some t) :
    ∃ expectedStock, s.pc = .running (.writing [] expectedStock) ∧
      t.redis.stock c.voucherId = some expectedStock ∧
      t.redis.purchased c.voucherId = s.redis.staged c.voucherId c.token := by
  obtain ⟨⟨expectedStock, hpc⟩, hheld, ha⟩ := rebuilds_eq_true h
  have hredis : t.redis = (rebuildLua c.voucherId c.token expectedStock s.redis).2 := by
    rcases ha with rfl | rfl
    · obtain ⟨pc, -, rfl⟩ := Option.map_eq_some_iff.mp hstep
      unfold Call.execute
      rw [hpc]
      rfl
    · obtain ⟨pc, -, rfl⟩ := Option.map_eq_some_iff.mp hstep
      simp only [if_true]
      unfold Call.execute
      rw [hpc]
      rfl
  rcases rebuildLua_cases c.voucherId c.token expectedStock s.redis with ⟨hlost, -⟩ | ⟨-, heq⟩
  · exact absurd hheld hlost
  · rw [hredis, heq]
    exact ⟨expectedStock, hpc, by simp, by simp⟩

/-- Only the rebuild script writes stock and purchased users. -/
theorem unchanged_writes {r : Rebuild} {redis redis' : Redis}
    (hlost : ∀ expectedStock, r.phase = .writing [] expectedStock →
      redis.recovery r.voucherId ≠ some r.token)
    (h : r.Writes redis redis') :
    redis'.stock = redis.stock ∧ redis'.purchased = redis.purchased := by
  cases h with
  | nothing same =>
    rw [same]
    exact ⟨rfl, rfl⟩
  | staged staging write =>
    rw [write]
    exact ⟨rfl, rfl⟩
  | rebuilt expectedStock phase held write => exact absurd held (hlost expectedStock phase)
  | unlocked held write =>
    rw [write]
    exact ⟨rfl, rfl⟩

/-- A command that publishes nothing leaves stock and purchased users alone. -/
theorem unchanged_execute
    (hpublish : ∀ n, s.pc = .running (.writing [] n) → c.holds s.redis = false) :
    (c.execute s).redis.stock = s.redis.stock ∧
      (c.execute s).redis.purchased = s.redis.purchased ∧
      (c.execute s).orderUntil = s.orderUntil := by
  unfold Call.execute
  cases hpc : s.pc with
  | start =>
    dsimp only
    split
    · exact ⟨rfl, rfl, rfl⟩
    · rcases lockRecovery_cases c.voucherId c.token s.redis with ⟨-, heq⟩ | ⟨-, heq⟩
      · rw [heq]
        exact ⟨rfl, rfl, rfl⟩
      · rw [heq]
        exact ⟨rfl, rfl, rfl⟩
  | running phase =>
    have hlost : ∀ expectedStock, phase = .writing [] expectedStock →
        s.redis.recovery c.voucherId ≠ some c.token := by
      rintro expectedStock rfl
      exact of_decide_eq_false (hpublish expectedStock hpc)
    have horder : c.orderUntil s phase = s.orderUntil := by
      unfold Call.orderUntil
      split
      · exact if_neg fun hheld => hlost _ rfl (of_decide_eq_true hheld)
      · rfl
    have hredis := unchanged_writes (r := c.rebuild phase) hlost
      ((c.rebuild phase).advance_writes c.batchSize s.redis s.db)
    exact ⟨hredis.1, hredis.2, horder⟩
  | returned acquired => exact ⟨rfl, rfl, rfl⟩
  | thrown => exact ⟨rfl, rfl, rfl⟩

theorem unchanged_step {a : Action} (ha : a.ofCall = true) (hpublish : c.rebuilds s a = false)
    (hstep : c.step s a = some t) : t.redis.stock = s.redis.stock ∧
      t.redis.purchased = s.redis.purchased ∧ t.orderUntil = s.orderUntil := by
  cases a with
  | wait milliseconds => exact absurd ha (by simp [Action.ofCall])
  | others redis db recoveryUntil orderUntil => exact absurd ha (by simp [Action.ofCall])
  | command =>
    obtain ⟨pc, -, rfl⟩ := Option.map_eq_some_iff.mp hstep
    refine unchanged_execute fun n hpc => ?_
    simpa only [Call.rebuilds, hpc] using hpublish
  | fail applied =>
    obtain ⟨pc, -, rfl⟩ := Option.map_eq_some_iff.mp hstep
    cases applied with
    | true =>
      refine unchanged_execute fun n hpc => ?_
      simpa only [Call.rebuilds, hpc] using hpublish
    | false => exact ⟨rfl, rfl, rfl⟩

/-- **The whole set or nothing.** The call has collected its users and goes on, at any pace. A
rebuild script that returns 1 publishes all of them iff the staging set was kept; every other
command of the call leaves stock and purchased users as they are. -/
theorem whole_or_nothing (c : Call) {s u t : State} {as : List Action} {a : Action}
    {purchasedUserIds : LinkedSet UserId} (hcollected : s.pc.collected = some purchasedUserIds)
    (hrun : run c.step s as = some u) (ha : a.ofCall = true) (hstep : c.step u a = some t) :
    (c.rebuilds u a = true →
      (t.redis.purchased c.voucherId = purchasedUserIds.elements.toFinset ↔
        Along c.step c.KeepsStaging s as)) ∧
      (c.rebuilds u a = false → t.redis.stock = u.redis.stock ∧
        t.redis.purchased = u.redis.purchased ∧ t.orderUntil = u.orderUntil) := by
  refine ⟨fun hpublish => ?_, fun hpublish => unchanged_step ha hpublish hstep⟩
  obtain ⟨L, hL, hiff⟩ := run_tracked (fun _ _ _ _ _ h hstep => staged_step h hstep)
    (along_true s as) (staged_of_collected hcollected) hrun
  obtain ⟨expectedStock, hscript, -, hpublished⟩ := redis_of_rebuilds hpublish hstep
  obtain ⟨hstaged, hwhole⟩ := staged_of_script hscript hL
  rw [hpublished, hstaged, hwhole, hiff]
  exact and_iff_right rfl

/-! ## In time -/

/-- In the loop the staging set exists and expires at `deadline`; after it nothing is published. -/
def Pc.Lasts (deadline : ℤ) (stagingUntil : Option ℤ) (staging : Option Staging) : Pc → Prop
  | .running (.writing _ _) | .running (.written _ _) =>
    stagingUntil = some deadline ∧ staging.isSome = true
  | .running .failed | .running .unstaged | .returned _ | .thrown => True
  | _ => False

/-- In the loop of the call the staging set exists and expires at `deadline`. -/
def Call.Lasts (c : Call) (deadline : ℤ) (s : State) : Prop :=
  s.pc.Lasts deadline s.stagingUntil (s.redis.staging c.voucherId c.token)

/-- The step ends before the deadline. -/
def Before (deadline : ℤ) (s : State) : Action → Prop
  | .wait milliseconds => s.clock + milliseconds < deadline
  | _ => True

variable {deadline : ℤ}

theorem lasts_advance {phase : Phase} (hpc : s.pc = .running phase) (h : c.Lasts deadline s) :
    c.Lasts deadline (c.advance phase s) := by
  unfold Call.Lasts at h
  rw [hpc] at h
  cases phase with
  | writing userIds expectedStock =>
    cases userIds with
    | nil =>
      rcases rebuildLua_cases c.voucherId c.token expectedStock s.redis with ⟨-, heq⟩ | ⟨-, heq⟩
      · simp [Call.Lasts, Call.advance, Rebuild.advance, Call.rebuild, heq, Pc.after, Pc.Lasts]
      · simp [Call.Lasts, Call.advance, Rebuild.advance, Call.rebuild, heq, Pc.after, Pc.Lasts]
    | cons u userIds =>
      refine ⟨?_, ?_⟩
      · simpa [Call.advance, Call.stagingUntil, Rebuild.advance, Call.rebuild, Redis.addStaged,
          Redis.setStaging] using h.1
      · simp [Call.advance, Rebuild.advance, Call.rebuild, Redis.addStaged, Redis.setStaging]
  | written userIds expectedStock =>
    rcases c.advance_renew s (.written userIds expectedStock) (.writing userIds expectedStock) rfl
      with heq | heq
    · rw [heq]
      refine ⟨?_, h.2⟩
      have hnone : (s.redis.staging c.voucherId c.token).isNone = false := by simpa using h.2
      simpa [Call.advance, Call.stagingUntil, Rebuild.advance, Call.rebuild, hnone] using h.1
    · rw [heq]
      trivial
  | failed => trivial
  | unstaged => trivial
  | _ => exact h.elim

theorem lasts_execute (h : c.Lasts deadline s) : c.Lasts deadline (c.execute s) := by
  unfold Call.execute
  cases hpc : s.pc with
  | running phase => exact lasts_advance hpc h
  | returned acquired => exact h
  | thrown => exact h
  | _ =>
    unfold Call.Lasts at h
    rw [hpc] at h
    exact h.elim

theorem lasts_left {pc : Pc} {now : ℤ} {stagingUntil : Option ℤ} {staging staging' : Option Staging}
    (hnow : now < deadline) (hstaging : due now stagingUntil = false → staging' = staging)
    (h : pc.Lasts deadline stagingUntil staging) :
    pc.Lasts deadline (left now stagingUntil) staging' := by
  have hwriting : stagingUntil = some deadline ∧ staging.isSome = true →
      left now stagingUntil = some deadline ∧ staging'.isSome = true := by
    rintro ⟨rfl, hsome⟩
    have hdue : due now (some deadline) = false := decide_eq_false (not_le.mpr hnow)
    refine ⟨by simp [left, hdue], ?_⟩
    rw [hstaging hdue]
    exact hsome
  unfold Pc.Lasts at h ⊢
  split at h
  · exact hwriting h
  · exact hwriting h
  · trivial
  · trivial
  · trivial
  · trivial
  · exact h.elim

/-- **Before the deadline the set lasts.** -/
theorem lasts_step : Preserves c.step (Before deadline) (c.Lasts deadline) := by
  intro s a t ha h hstep
  cases a with
  | wait milliseconds =>
    cases hstep
    refine lasts_left ha (fun hdue => ?_) h
    simp [Call.elapse, hdue]
  | others redis db recoveryUntil orderUntil =>
    simp only [Call.step] at hstep
    split at hstep
    · cases hstep
      simpa [Call.Lasts, Redis.setStaging] using h
    · split at hstep <;> cases hstep
      simpa [Call.Lasts, Redis.setStaging] using h
  | command =>
    obtain ⟨pc, -, rfl⟩ := Option.map_eq_some_iff.mp hstep
    exact lasts_execute h
  | fail applied =>
    obtain ⟨pc, hpc, rfl⟩ := Option.map_eq_some_iff.mp hstep
    rcases throw_cases hpc with rfl | rfl <;> trivial

/-- The clock does not go back. -/
theorem clock_step {a : Action} (hstep : c.step s a = some t) : s.clock ≤ t.clock := by
  have hexecute : (c.execute s).clock = s.clock := by
    unfold Call.execute
    split
    · dsimp only
      split
      · rfl
      · split <;> rfl
    · rfl
    · rfl
    · rfl
  cases a with
  | wait milliseconds =>
    cases hstep
    exact Int.le_add_of_nonneg_right (Int.natCast_nonneg milliseconds)
  | others redis db recoveryUntil orderUntil =>
    simp only [Call.step] at hstep
    split at hstep
    · cases hstep
      exact le_refl _
    · split at hstep <;> cases hstep
      exact le_refl _
  | command =>
    obtain ⟨pc, -, rfl⟩ := Option.map_eq_some_iff.mp hstep
    exact hexecute.ge
  | fail applied =>
    obtain ⟨pc, -, rfl⟩ := Option.map_eq_some_iff.mp hstep
    cases applied with
    | true => exact hexecute.ge
    | false => exact le_refl _

/-- A run that ends before the deadline is before it all along. -/
theorem before_run {as : List Action} (hrun : run c.step s as = some t) (ht : t.clock < deadline) :
    s.clock < deadline ∧ Along c.step (Before deadline) s as := by
  induction as generalizing s with
  | nil =>
    cases hrun
    exact ⟨ht, trivial⟩
  | cons a as ih =>
    obtain ⟨u, hu, hrun⟩ := run_cons.mp hrun
    obtain ⟨hbefore, hrest⟩ := ih hrun
    refine ⟨(clock_step hu).trans_lt hbefore, ?_, fun w hw => ?_⟩
    · cases a with
      | wait milliseconds =>
        cases hu
        exact hbefore
      | _ => trivial
    · cases hu.symm.trans hw
      exact hrest

/-- **The staging set is kept** when the batches take less than its expiry time. -/
theorem kept_in_time {as : List Action} {userIds : List UserId} {expectedStock : ℤ}
    (hpc : s.pc = .running (.sentinelAdded userIds expectedStock))
    (hsentinel : (s.redis.staging c.voucherId c.token).isSome = true)
    (hrun : run c.step s (.command :: as) = some t)
    (htime : t.clock < s.clock + 1000 * max 60 (c.recoveryLeaseSeconds * 2)) :
    Along c.step c.KeepsStaging s (.command :: as) := by
  refine ⟨trivial, fun u hu => ?_⟩
  obtain ⟨v, hv, hrest⟩ := run_cons.mp hrun
  cases hv.symm.trans hu
  have hlasts : c.Lasts (s.clock + 1000 * max 60 (c.recoveryLeaseSeconds * 2)) u := by
    obtain ⟨pc, -, rfl⟩ := Option.map_eq_some_iff.mp hu
    unfold Call.execute
    rw [hpc]
    refine ⟨if_neg ?_, hsentinel⟩
    simpa [Rebuild.advance, Call.rebuild] using Option.isSome_iff_ne_none.mp hsentinel
  refine along_mono (fun w a hw ha => ?_) lasts_step hlasts (before_run hrest htime).2
  cases a with
  | wait milliseconds =>
    intro hwriting hdue
    have hdeadline : w.stagingUntil =
        some (s.clock + 1000 * max 60 (c.recoveryLeaseSeconds * 2)) := by
      unfold Call.Lasts Pc.Lasts at hw
      unfold Pc.isWriting at hwriting
      split at hwriting
      · rename_i h
        rw [h] at hw
        exact hw.1
      · rename_i h
        rw [h] at hw
        exact hw.1
      · exact absurd hwriting (by simp)
    rw [hdeadline] at hdue
    exact absurd (of_decide_eq_true hdue) (not_le.mpr ha)
  | _ => trivial

/-- Four orders of voucher 7 wait in the handoff set. -/
def fourSold : State where
  clock := 0
  redis := { Redis.empty with
    stock := fun v => if v = 7 then some 6 else none
    handoff := fun v => if v = 7 then
      [1, 2, 3, 4].foldl (fun z o => z.zadd 0 (buildMember o o false)) ZSet.empty else ZSet.empty }
  db := { Db.empty with stock := fun v => if v = 7 then some 10 else none }
  recoveryUntil := none
  stagingUntil := none
  orderUntil := none
  pc := .start

/-- A call for voucher 7 with a lease of 30 seconds, one user at a time. -/
def oneByOne : Call := ⟨7, 10, ['t'], 30, 1⟩

/-- Up to the end of the merge. -/
def collecting : List Action := List.replicate 8 .command

/-- The rest up to the rebuild script, with a pause before every batch but the first. -/
def writing (pause : ℕ) : List Action :=
  List.replicate 4 .command ++ [.command, .command] ++
    (List.replicate 3 [.wait pause, .command, .command]).flatten

theorem whole_or_nothing_prompt :
    ∃ s u t purchasedUserIds, run oneByOne.step fourSold collecting = some s ∧
      s.pc.collected = some purchasedUserIds ∧ run oneByOne.step s (writing 10000) = some u ∧
        oneByOne.step u .command = some t ∧ oneByOne.rebuilds u .command = true ∧
          (t.redis.purchased 7 = purchasedUserIds.elements.toFinset ↔
            Along oneByOne.step oneByOne.KeepsStaging s (writing 10000)) := by
  have hres : (run oneByOne.step fourSold collecting).any (fun s =>
      s.pc.collected.isSome && (run oneByOne.step s (writing 10000)).any fun u =>
        oneByOne.rebuilds u .command && (oneByOne.step u .command).isSome) = true := by
    decide +kernel
  obtain ⟨s, hs, hp⟩ := (Option.any_eq_true _ _).mp hres
  obtain ⟨hcollected, hrest⟩ := (Bool.and_eq_true _ _).mp hp
  obtain ⟨purchasedUserIds, hcollected⟩ := Option.isSome_iff_exists.mp hcollected
  obtain ⟨u, hu, hp⟩ := (Option.any_eq_true _ _).mp hrest
  obtain ⟨hpublish, hsome⟩ := (Bool.and_eq_true _ _).mp hp
  obtain ⟨t, ht⟩ := Option.isSome_iff_exists.mp hsome
  exact ⟨s, u, t, purchasedUserIds, hs, hcollected, hu, ht, hpublish,
    (whole_or_nothing oneByOne hcollected hu rfl ht).1 hpublish⟩

/-- **The law fails**: with 25 seconds between the batches every renewal returns 1, the staging set
expires after 60 seconds, and the script publishes the last of the four users. -/
theorem published_partly :
    ∃ s u t purchasedUserIds, run oneByOne.step fourSold collecting = some s ∧
      s.pc.collected = some purchasedUserIds ∧
        purchasedUserIds.elements.toFinset = ({1, 2, 3, 4} : Finset UserId) ∧
          run oneByOne.step s (writing 25000) = some u ∧ oneByOne.step u .command = some t ∧
            oneByOne.rebuilds u .command = true ∧
              t.redis.purchased 7 = ({4} : Finset UserId) := by
  have hres : (run oneByOne.step fourSold collecting).any (fun s =>
      s.pc.collected.any (fun p => p.elements.toFinset = ({1, 2, 3, 4} : Finset UserId)) &&
        (run oneByOne.step s (writing 25000)).any fun u => oneByOne.rebuilds u .command &&
          (oneByOne.step u .command).any fun t =>
            t.redis.purchased 7 = ({4} : Finset UserId)) = true := by
    decide +kernel
  obtain ⟨s, hs, hp⟩ := (Option.any_eq_true _ _).mp hres
  obtain ⟨hcollected, hrest⟩ := (Bool.and_eq_true _ _).mp hp
  obtain ⟨purchasedUserIds, hcollected, hfour⟩ := (Option.any_eq_true _ _).mp hcollected
  obtain ⟨u, hu, hp⟩ := (Option.any_eq_true _ _).mp hrest
  obtain ⟨hpublish, hafter⟩ := (Bool.and_eq_true _ _).mp hp
  obtain ⟨t, ht, hpart⟩ := (Option.any_eq_true _ _).mp hafter
  exact ⟨s, u, t, purchasedUserIds, hs, hcollected, of_decide_eq_true hfour, hu, ht, hpublish,
    of_decide_eq_true hpart⟩

end Hmdp.Reconcile.Timed
