import Hmdp.Broadcast.Effect

/-!
# Every shop write is accounted for on every JVM

Between a committed write and the caches of a JVM stand the outbox, its relays, the topic, the
group of the JVM and its listener. Whatever fails in between, the write is never forgotten quietly:
its event is pending or failed in the outbox, or its record is still to be delivered to the JVM, or
it is on the dead-letter topic, or the JVM has evicted the shop for it.

* `Invariant.step`: the events are the writes, what the outbox calls sent is on the topic, what is
  below a committed offset is handled or dead.
* **`write_accounted`**: the law, for every run, every JVM and every write.
-/

namespace Hmdp.Broadcast

open Hmdp.Lib Hmdp.Lib.ConsumerGroup Hmdp.Model

variable {Worker Jvm Entity Relay : Type} [DecidableEq Worker] [DecidableEq Jvm]
  [DecidableEq Relay] {config : Config} {s t : State Worker Jvm Entity Relay}

/-! ## The invariant -/

/-- The JVM has evicted for the message, or the message is on the dead-letter topic. -/
def Settled (s : State Worker Jvm Entity Relay) (jvm : Jvm) (m : InvalidationMessage) : Prop :=
  s.writes m.eventId ≤ s.shops.handled jvm m.targetId ∨ m ∈ s.deadLetters

/-- What is below the committed offset of a JVM's group. -/
def Done (s : State Worker Jvm Entity Relay) (jvm : Jvm) (p i : ℕ) : Prop :=
  ∃ m, (s.topics jvm).record (p, i) = some m ∧ Settled s jvm m

/-- The call of a listener is for the one record of its batch. -/
def CallOk (s : State Worker Jvm Entity Relay) (jvm : Jvm) (c : ℕ)
    (task : Shop.Task Jvm Entity) : Prop :=
  ∃ m batch failures o, ((s.topics jvm).members c).duty = .listening batch failures ∧
    offsets batch = [o] ∧ (s.topics jvm).record o = some m ∧
      Evicting s.shops jvm m.targetId (s.writes m.eventId) task

/-- The events are the committed writes. -/
structure Events (s : State Worker Jvm Entity Relay) : Prop where
  committed : ∀ r ∈ s.outbox.table.rows, 1 ≤ s.writes r.eventId ∧
    s.writes r.eventId ≤ (s.shops.store.history r.targetId).length
  inserted : ∀ id v, 1 ≤ v → v ≤ (s.shops.store.history id).length →
    ∃ r ∈ s.outbox.table.rows, r.targetId = id ∧ s.writes r.eventId = v

/-- **The invariant** of the composed machine. -/
structure Invariant (config : Config) (s : State Worker Jvm Entity Relay) : Prop where
  shops : Shop.Inv s.shops
  outbox : Invalidation.Inv config.relay s.outbox
  events : Events s
  acks : ∀ m ∈ s.outbox.acks, ∀ jvm, m ∈ (s.topics jvm).log (config.partitionOf m.targetId)
  records : ∀ jvm p, ∀ m ∈ (s.topics jvm).log p, ∃ r ∈ s.outbox.table.rows, r.message = m
  topics : ∀ jvm, Sound (Done s jvm) (s.topics jvm)
  calls : ∀ jvm c task, s.shops.tasks (.inl (jvm, c)) = some task → CallOk s jvm c task

/-- What a step leaves in place. -/
structure Later (s t : State Worker Jvm Entity Relay) : Prop where
  history : ∀ id, s.shops.store.history id <+: t.shops.store.history id
  handled : ∀ jvm id, s.shops.handled jvm id ≤ t.shops.handled jvm id
  events : ∀ r ∈ s.outbox.table.rows, ∃ r' ∈ t.outbox.table.rows, r'.message = r.message
  writes : ∀ r ∈ s.outbox.table.rows, t.writes r.eventId = s.writes r.eventId
  records : ∀ jvm p, (s.topics jvm).log p <+: (t.topics jvm).log p
  deadLetters : s.deadLetters ⊆ t.deadLetters

omit [DecidableEq Worker] [DecidableEq Relay] in
theorem setTopic_grows {jvm : Jvm} {g : Topic InvalidationMessage}
    (h : ∀ p, (s.topics jvm).log p <+: g.log p) (other : Jvm) (p : ℕ) :
    (s.topics other).log p <+: ((s.setTopic jvm g).topics other).log p := by
  by_cases hother : other = jvm
  · subst hother
    simp only [State.setTopic, Function.update_self]
    exact h p
  · simp only [State.setTopic, Function.update_of_ne hother]
    exact List.prefix_rfl

omit [DecidableEq Relay] in
/-- A step of the shop machine alone. -/
theorem Later.of_shops {x : Shop.State (Thread Jvm Worker) Jvm Entity}
    {a : Shop.Action (Thread Jvm Worker) Jvm Entity} (h : Shop.step s.shops a = some x) :
    Later s { s with shops := x } where
  history := shop_history_grows h
  handled := shop_handled h
  events r hr := ⟨r, hr, rfl⟩
  writes _ _ := rfl
  records _ _ := List.prefix_rfl
  deadLetters := List.Subset.refl _

omit [DecidableEq Worker] [DecidableEq Jvm] [DecidableEq Relay] in
theorem Later.refl (s : State Worker Jvm Entity Relay) : Later s s where
  history _ := List.prefix_rfl
  handled _ _ := le_rfl
  events r hr := ⟨r, hr, rfl⟩
  writes _ _ := rfl
  records _ _ := List.prefix_rfl
  deadLetters := List.Subset.refl _

omit [DecidableEq Worker] [DecidableEq Relay] in
/-- A group moves. -/
theorem Later.setTopic (h : Later s t) {jvm : Jvm} {g : Topic InvalidationMessage}
    (hg : ∀ p, (t.topics jvm).log p <+: g.log p) : Later s (t.setTopic jvm g) where
  history := h.history
  handled := h.handled
  events := h.events
  writes := h.writes
  records other p := (h.records other p).trans (setTopic_grows hg other p)
  deadLetters := h.deadLetters

omit [DecidableEq Relay] in
/-- The call of a member that leaves is thrown out of. -/
theorem leave_shops (s : State Worker Jvm Entity Relay) (jvm : Jvm) (c : ℕ) :
    (s.leave jvm c).shops = s.shops ∨
      Shop.step s.shops (.throw (.inl (jvm, c))) = some (s.leave jvm c).shops := by
  unfold State.leave
  cases h : Shop.step s.shops (.throw (.inl (jvm, c))) with
  | none => exact Or.inl rfl
  | some x => exact Or.inr rfl

omit [DecidableEq Relay] in
theorem Later.leave (s : State Worker Jvm Entity Relay) (jvm : Jvm) (c : ℕ) :
    Later s (s.leave jvm c) := by
  rcases leave_shops s jvm c with h | h
  · have heq : s.leave jvm c = s := by
      change { s with shops := (s.leave jvm c).shops } = s
      rw [h]
    rw [heq]
    exact Later.refl s
  · exact Later.of_shops h

omit [DecidableEq Worker] [DecidableEq Jvm] [DecidableEq Relay] in
/-- The outbox works on its events. -/
theorem Later.of_outbox {o : Invalidation.State Relay}
    (h : SameEvents s.outbox.table o.table) : Later s { s with outbox := o } where
  history _ := List.prefix_rfl
  handled _ _ := le_rfl
  events := h.1
  writes _ _ := rfl
  records _ _ := List.prefix_rfl
  deadLetters := List.Subset.refl _

/-- A statement of a relay inserts nothing. -/
theorem sameEvents_of_relay {a : Invalidation.Action Relay} {o o' : Invalidation.State Relay}
    {cfg : InvalidationRelayConfig}
    (ha : ofRelay a = true ∨ ∃ relay failure, a = .send relay failure)
    (h : Invalidation.step cfg o a = some o') : SameEvents o.table o'.table := by
  rcases outbox_rows h with ⟨defaultReason, id, eventId, targetId, reason, now, rfl⟩ | hsame
  · rcases ha with hrelay | ⟨relay, failure, hsend⟩
    · exact absurd hrelay (by simp [ofRelay])
    · cases hsend
  · exact hsame

/-- **A step takes nothing away.** -/
theorem Effect.later {a : Action Worker Jvm Entity Relay} (h : Effect config s a t) :
    Later s t := by
  cases h with
  | request _ step => exact Later.of_shops step
  | unchanged _ step _ => exact Later.of_shops step
  | committed underWay step more newId newEvent =>
    rename_i w id eventId now task x
    refine ⟨shop_history_grows step, shop_handled step, fun r hr => ?_, fun r hr => ?_,
      fun _ _ => List.prefix_rfl, List.Subset.refl _⟩
    · exact ⟨r, Table.mem_insertIgnore.mpr (Or.inl hr), rfl⟩
    · exact Function.update_of_ne (newEvent r hr) _ _
  | relay other step => exact Later.of_outbox (sameEvents_of_relay (Or.inl other) step)
  | written next step =>
    have hsame := sameEvents_of_relay (Or.inr ⟨_, _, rfl⟩) step
    exact ⟨fun _ => List.prefix_rfl, fun _ _ => le_rfl, hsame.1, fun _ _ => rfl,
      fun _ p => append_grows _ _ _ p, List.Subset.refl _⟩
  | unwritten _ step => exact Later.of_outbox (sameEvents_of_relay (Or.inr ⟨_, _, rfl⟩) step)
  | group _ _ move => exact (Later.refl s).setTopic (move_grows move)
  | leaves move =>
    rename_i jvm c g
    exact (Later.leave s jvm c).setTopic (move_grows move)
  | begins _ _ _ step => exact Later.of_shops step
  | calls _ _ step _ => exact Later.of_shops step
  | returns _ _ step _ move => exact (Later.of_shops step).setTopic (move_grows move)
  | published next move =>
    rename_i jvm c p answered m g
    have hdead : Later s { s with deadLetters := m :: s.deadLetters } :=
      ⟨fun _ => List.prefix_rfl, fun _ _ => le_rfl, fun r hr => ⟨r, hr, rfl⟩, fun _ _ => rfl,
        fun _ _ => List.prefix_rfl, List.subset_cons_self _ _⟩
    exact hdead.setTopic (move_grows move)

namespace Invariant

omit [DecidableEq Worker] [DecidableEq Jvm] [DecidableEq Relay] in
/-- The write of a record's event stays the same. -/
theorem writes_eq (h : Invariant config s) (hlater : Later s t) {jvm : Jvm} {o : ℕ × ℕ}
    {m : InvalidationMessage} (hm : (s.topics jvm).record o = some m) :
    t.writes m.eventId = s.writes m.eventId := by
  obtain ⟨r, hr, rfl⟩ := h.records jvm o.1 m (mem_log_of_record hm)
  exact hlater.writes r hr

omit [DecidableEq Worker] [DecidableEq Jvm] [DecidableEq Relay] in
/-- What is done stays done. -/
theorem done_later (h : Invariant config s) (hlater : Later s t) {jvm : Jvm} {p i : ℕ}
    (hdone : Done s jvm p i) : Done t jvm p i := by
  obtain ⟨m, hm, hcase⟩ := hdone
  refine ⟨m, record_of_grown (hlater.records jvm) hm, ?_⟩
  rcases hcase with hhandled | hdead
  · left
    rw [h.writes_eq hlater hm]
    exact hhandled.trans (hlater.handled jvm m.targetId)
  · exact Or.inr (hlater.deadLetters hdead)

omit [DecidableEq Worker] [DecidableEq Jvm] [DecidableEq Relay] in
theorem topics_later (h : Invariant config s) (hlater : Later s t) (jvm : Jvm) :
    Sound (Done t jvm) (s.topics jvm) :=
  (h.topics jvm).mono fun _ _ => h.done_later hlater

end Invariant

/-! ## Writes and events -/

/-- Without a commit no row is added. -/
theorem history_of_not_commits {x y : Shop.State (Thread Jvm Worker) Jvm Entity}
    {a : Shop.Action (Thread Jvm Worker) Jvm Entity} (ha : commits x a = false)
    (h : Shop.step x a = some y) : y.store.history = x.store.history := by
  funext id
  rcases shop_history h id with hsame | ⟨th, locked, task, row, rfl, htask, hcommit, -, -⟩
  · exact hsame
  · simp [commits, htask, hcommit] at ha

omit [DecidableEq Worker] [DecidableEq Jvm] in
/-- The call of a listener commits nothing. -/
theorem not_commits_of_call {x : Shop.State (Thread Jvm Worker) Jvm Entity}
    {a : Shop.Action (Thread Jvm Worker) Jvm Entity} {th : Thread Jvm Worker} {jvm : Jvm}
    {id : ShopId} {version : ℕ}
    (hcall : ∀ task, x.tasks th = some task → Evicting x jvm id version task)
    (hactor : actor a = some th) : commits x a = false := by
  cases a with
  | next th' locked =>
    cases hactor
    cases htask : x.tasks th with
    | none => simp [commits, htask]
    | some task =>
      obtain ⟨phase, rfl, -⟩ := hcall task htask
      simp [commits, htask, atCommit]
  | _ => rfl

omit [DecidableEq Worker] [DecidableEq Jvm] [DecidableEq Relay] in
theorem Events.of_same (h : Events s) (hhistory : t.shops.store.history = s.shops.store.history)
    (hrows : SameEvents s.outbox.table t.outbox.table) (hwrites : t.writes = s.writes) :
    Events t where
  committed r hr := by
    obtain ⟨r₀, hr₀, hmessage⟩ := hrows.2 r hr
    have hid : r.eventId = r₀.eventId := (congrArg InvalidationMessage.eventId hmessage).symm
    have htarget : r.targetId = r₀.targetId :=
      (congrArg InvalidationMessage.targetId hmessage).symm
    rw [hwrites, hhistory, hid, htarget]
    exact h.committed r₀ hr₀
  inserted id v hone hle := by
    rw [hhistory] at hle
    obtain ⟨r₀, hr₀, htarget, hwrite⟩ := h.inserted id v hone hle
    obtain ⟨r, hr, hmessage⟩ := hrows.1 r₀ hr₀
    refine ⟨r, hr, ?_, ?_⟩
    · exact (congrArg InvalidationMessage.targetId hmessage).trans htarget
    · rw [hwrites, show r.eventId = r₀.eventId from congrArg InvalidationMessage.eventId hmessage]
      exact hwrite

/-- The table with the event of a write. -/
theorem mem_inserted {table : InvalidationTable} {row r : InvalidationRow}
    (hid : ∀ r ∈ table.rows, r.id ≠ row.id) :
    r ∈ (table.insertIgnore [row]).2.rows ↔ r ∈ table.rows ∨ r = row := by
  have hnew : newRows (Keys.on InvalidationRow.id).clash table.rows [row] = [row] := by
    have hany : table.rows.any ((Keys.on InvalidationRow.id).clash row) = false := by
      rw [List.any_eq_false]
      intro x hx
      simpa [Keys.on, sameKey] using Ne.symm (hid x hx)
    simp [newRows, hany]
  rw [Table.mem_insertIgnore, hnew, List.mem_singleton]

omit [DecidableEq Relay] in
/-- **A write and its event are committed together.** -/
theorem Events.commit {w : Worker} {task : Shop.Task Jvm Entity}
    {x : Shop.State (Thread Jvm Worker) Jvm Entity} {id : ℕ} {eventId : Text} {now : Time}
    (h : Events s) (htask : s.shops.tasks (.inr w) = some task)
    (hstep : Shop.step s.shops (.next (.inr w) true) = some x)
    (hmore : (x.store.history task.shopId).length ≠ (s.shops.store.history task.shopId).length)
    (hid : ∀ r ∈ s.outbox.table.rows, r.id ≠ id)
    (hevent : ∀ r ∈ s.outbox.table.rows, r.eventId ≠ eventId) :
    Events { s with
      shops := x
      outbox := { s.outbox with
        table := (s.outbox.table.insertIgnore [insertedRow id eventId task.shopId now]).2 }
      writes := Function.update s.writes eventId (x.store.history task.shopId).length } := by
  have hlength : (x.store.history task.shopId).length =
      (s.shops.store.history task.shopId).length + 1 := by
    rcases shop_history hstep task.shopId with hsame | ⟨-, -, -, row, -, -, -, -, hrow⟩
    · exact absurd (congrArg List.length hsame) hmore
    · simp [hrow]
  have hothers : ∀ other, other ≠ task.shopId →
      x.store.history other = s.shops.store.history other := by
    intro other hother
    rcases shop_history hstep other with hsame | ⟨th, locked, task', row, ha, htask', -, heq, -⟩
    · exact hsame
    · cases ha
      cases htask.symm.trans htask'
      exact absurd heq hother
  have hmem : ∀ r, r ∈ (s.outbox.table.insertIgnore
      [insertedRow id eventId task.shopId now]).2.rows ↔
        r ∈ s.outbox.table.rows ∨ r = insertedRow id eventId task.shopId now :=
    fun r => mem_inserted hid
  have hkept : ∀ r ∈ s.outbox.table.rows, Function.update s.writes eventId
      (x.store.history task.shopId).length r.eventId = s.writes r.eventId :=
    fun r hr => Function.update_of_ne (hevent r hr) _ _
  refine ⟨fun r hr => ?_, fun shopId v hone hle => ?_⟩
  · rcases (hmem r).mp hr with hold | rfl
    · obtain ⟨hpos, hbound⟩ := h.committed r hold
      change 1 ≤ Function.update s.writes eventId _ r.eventId ∧
        Function.update s.writes eventId _ r.eventId ≤ _
      rw [hkept r hold]
      exact ⟨hpos, hbound.trans (shop_history_grows hstep r.targetId).length_le⟩
    · change 1 ≤ Function.update s.writes eventId _ eventId ∧
        Function.update s.writes eventId _ eventId ≤ (x.store.history task.shopId).length
      rw [Function.update_self]
      exact ⟨by omega, le_rfl⟩
  · -- the write is an older one, or the one that is committed now
    by_cases hnew : shopId = task.shopId ∧ v = (x.store.history task.shopId).length
    · obtain ⟨rfl, rfl⟩ := hnew
      exact ⟨_, (hmem _).mpr (Or.inr rfl), rfl, Function.update_self ..⟩
    · have hold : v ≤ (s.shops.store.history shopId).length := by
        by_cases hshop : shopId = task.shopId
        · subst hshop
          have hle : v ≤ (x.store.history task.shopId).length := hle
          have : v ≠ (x.store.history task.shopId).length := fun heq => hnew ⟨rfl, heq⟩
          omega
        · exact hothers shopId hshop ▸ hle
      obtain ⟨r, hr, htarget, hwrite⟩ := h.inserted shopId v hone hold
      exact ⟨r, (hmem r).mpr (Or.inl hr), htarget, (hkept r hr).trans hwrite⟩

omit [DecidableEq Worker] [DecidableEq Jvm] [DecidableEq Relay] in
/-- The call of a listener is an eviction. -/
theorem Invariant.evicting (h : Invariant config s) (jvm : Jvm) (c : ℕ) :
    ∃ id version, ∀ task, s.shops.tasks (.inl (jvm, c)) = some task →
      Evicting s.shops jvm id version task := by
  cases htask : s.shops.tasks (.inl (jvm, c)) with
  | none => exact ⟨0, 0, nofun⟩
  | some task =>
    obtain ⟨m, -, -, -, -, -, -, hevict⟩ := h.calls jvm c task htask
    refine ⟨m.targetId, s.writes m.eventId, fun task' htask' => ?_⟩
    cases htask'
    exact hevict

/-- **Events and writes stay the same.** -/
theorem Effect.events {a : Action Worker Jvm Entity Relay} (h : Invariant config s)
    (he : Effect config s a t) : Events t := by
  have hsame := fun x => SameEvents.refl (x : State Worker Jvm Entity Relay).outbox.table
  cases he with
  | request request step =>
    refine h.events.of_same (history_of_not_commits ?_ step) (hsame s) rfl
    simp only [ofRequest, Bool.and_eq_true, Bool.not_eq_true'] at request
    exact request.1.2
  | unchanged underWay step same =>
    rename_i w id eventId now task x
    refine h.events.of_same ?_ (hsame s) rfl
    funext shopId
    rcases shop_history step shopId with heq | ⟨th, locked, task', row, ha, htask', -, hid, hrow⟩
    · exact heq
    · cases ha
      cases underWay.symm.trans htask'
      subst hid
      rw [hrow] at same
      simp at same
  | committed underWay step more newId newEvent =>
    exact h.events.commit underWay step more newId newEvent
  | relay other step =>
    exact h.events.of_same rfl (sameEvents_of_relay (Or.inl other) step) rfl
  | written next step =>
    exact h.events.of_same rfl (sameEvents_of_relay (Or.inr ⟨_, _, rfl⟩) step) rfl
  | unwritten _ step =>
    exact h.events.of_same rfl (sameEvents_of_relay (Or.inr ⟨_, _, rfl⟩) step) rfl
  | group _ _ _ => exact h.events.of_same rfl (hsame s) rfl
  | leaves move =>
    rename_i jvm c g
    refine h.events.of_same ?_ (hsame s) rfl
    rcases leave_shops s jvm c with heq | hstep
    · exact congrArg (fun x => x.store.history) heq
    · exact history_of_not_commits rfl hstep
  | begins _ _ _ step => exact h.events.of_same (history_of_not_commits rfl step) (hsame s) rfl
  | calls call own step _ =>
    obtain ⟨id, version, hcall⟩ := h.evicting _ _
    exact h.events.of_same (history_of_not_commits (not_commits_of_call hcall own) step)
      (hsame s) rfl
  | returns call own step _ _ =>
    obtain ⟨id, version, hcall⟩ := h.evicting _ _
    exact h.events.of_same (history_of_not_commits (not_commits_of_call hcall own) step)
      (hsame s) rfl
  | published _ _ => exact h.events.of_same rfl (hsame s) rfl

/-! ## Records -/

omit [DecidableEq Worker] [DecidableEq Relay] in
theorem setTopic_self (jvm : Jvm) (g : Topic InvalidationMessage) :
    (s.setTopic jvm g).topics jvm = g :=
  Function.update_self ..

omit [DecidableEq Worker] [DecidableEq Relay] in
theorem setTopic_of_ne {jvm other : Jvm} (h : other ≠ jvm) (g : Topic InvalidationMessage) :
    (s.setTopic jvm g).topics other = s.topics other :=
  Function.update_of_ne h _ _

/-- The messages of the topic, as every JVM has them. -/
structure Records (config : Config) (s : State Worker Jvm Entity Relay) : Prop where
  acks : ∀ m ∈ s.outbox.acks, ∀ jvm, m ∈ (s.topics jvm).log (config.partitionOf m.targetId)
  events : ∀ jvm p, ∀ m ∈ (s.topics jvm).log p, ∃ r ∈ s.outbox.table.rows, r.message = m

omit [DecidableEq Worker] [DecidableEq Jvm] [DecidableEq Relay] in
theorem Invariant.messages (h : Invariant config s) : Records config s := ⟨h.acks, h.records⟩

omit [DecidableEq Worker] [DecidableEq Jvm] [DecidableEq Relay] in
/-- Where nothing is acknowledged and nothing appended. -/
theorem Records.of_same (h : Records config s) (hlater : Later s t)
    (hacks : t.outbox.acks = s.outbox.acks)
    (hlog : ∀ jvm, (t.topics jvm).log = (s.topics jvm).log) : Records config t where
  acks m hm jvm := by
    rw [hlog]
    exact h.acks m (hacks ▸ hm) jvm
  events jvm p m hm := by
    rw [hlog] at hm
    obtain ⟨r, hr, hmessage⟩ := h.events jvm p m hm
    obtain ⟨r', hr', hmessage'⟩ := hlater.events r hr
    exact ⟨r', hr', hmessage'.trans hmessage⟩

omit [DecidableEq Worker] [DecidableEq Relay] in
theorem setTopic_log {jvm : Jvm} {g : Topic InvalidationMessage}
    (h : g.log = (s.topics jvm).log) (other : Jvm) :
    ((s.setTopic jvm g).topics other).log = (s.topics other).log := by
  by_cases hother : other = jvm
  · subst hother
    rw [setTopic_self]
    exact h
  · rw [setTopic_of_ne hother]

/-- A container appends nothing. -/
theorem container_log {g g' : Topic InvalidationMessage} {retries : ℕ}
    {a : Move InvalidationMessage} (ha : ofContainer a = true)
    (hmove : g.move retries a = some g') : g'.log = g.log :=
  move_log (fun p m he => by rw [he] at ha; exact absurd ha (by simp [ofContainer])) hmove

omit [DecidableEq Worker] [DecidableEq Jvm] in
theorem listenerEnds_log {g g' : Topic InvalidationMessage} {retries c : ℕ}
    {a : Shop.Action (Thread Jvm Worker) Jvm Entity}
    (hmove : g.move retries (listenerEnds c a) = some g') : g'.log = g.log :=
  move_log (fun p m => by cases a <;> simp [listenerEnds]) hmove

/-- **What is acknowledged is on the topic, and what is on the topic is an event.** -/
theorem Effect.messages {a : Action Worker Jvm Entity Relay} (h : Invariant config s)
    (he : Effect config s a t) : Records config t := by
  have hlater := he.later
  have hs := h.messages
  cases he with
  | request _ _ => exact hs.of_same hlater rfl fun _ => rfl
  | unchanged _ _ _ => exact hs.of_same hlater rfl fun _ => rfl
  | committed _ _ _ _ _ => exact hs.of_same hlater rfl fun _ => rfl
  | relay other step =>
    refine hs.of_same hlater ?_ fun _ => rfl
    rcases outbox_acks step with hsame | ⟨relay, e, rfl, -⟩
    · exact hsame
    · exact absurd other (by simp [ofRelay])
  | written next step =>
    rename_i relay failure w e o
    obtain ⟨r, hr, hmessage⟩ := nextEvent_row h.outbox next
    obtain ⟨r', hr', hmessage'⟩ := hlater.events r hr
    refine ⟨fun m hm jvm => ?_, fun jvm p m hm => ?_⟩
    · rcases outbox_acks step with hsame | ⟨relay', e', ha, hnext, hacks⟩
      · exact mem_append_log.mpr (Or.inl (h.acks m (hsame ▸ hm) jvm))
      · cases ha
        cases next.symm.trans hnext
        rcases List.mem_cons.mp (hacks ▸ hm) with rfl | hold
        · exact mem_append_log.mpr (Or.inr ⟨rfl, rfl⟩)
        · exact mem_append_log.mpr (Or.inl (h.acks m hold jvm))
    · rcases mem_append_log.mp hm with hold | ⟨-, rfl⟩
      · obtain ⟨r₀, hr₀, heq⟩ := h.records jvm p m hold
        obtain ⟨r₁, hr₁, heq'⟩ := hlater.events r₀ hr₀
        exact ⟨r₁, hr₁, heq'.trans heq⟩
      · exact ⟨r', hr', hmessage'.trans hmessage⟩
  | unwritten failed step =>
    refine hs.of_same hlater ?_ fun _ => rfl
    rcases outbox_acks step with hsame | ⟨relay, e, ha, hnext, -⟩
    · exact hsame
    · cases ha
      exact absurd rfl (failed e hnext)
  | group container _ move =>
    exact hs.of_same hlater rfl (setTopic_log (container_log container move))
  | leaves move =>
    rename_i jvm c g
    exact hs.of_same hlater rfl (setTopic_log (move_log (by simp) move))
  | begins _ _ _ _ => exact hs.of_same hlater rfl fun _ => rfl
  | calls _ _ _ _ => exact hs.of_same hlater rfl fun _ => rfl
  | returns _ _ _ _ move => exact hs.of_same hlater rfl (setTopic_log (listenerEnds_log move))
  | published _ move => exact hs.of_same hlater rfl (setTopic_log (ofRecoverer_log move))

/-! ## Committed offsets -/

/-- A container deals with no record. -/
theorem container_claims {g : Topic InvalidationMessage} {a : Move InvalidationMessage}
    (ha : ofContainer a = true) {o : ℕ × ℕ} : o ∉ g.claims a := by
  cases a with
  | listened c => exact absurd ha (by simp [ofContainer])
  | recovered c => exact absurd ha (by simp [ofContainer])
  | _ => simp [Topic.claims]

omit [DecidableEq Worker] [DecidableEq Relay] in
/-- The group of one JVM has moved. -/
theorem sound_setTopic {jvm : Jvm} {g : Topic InvalidationMessage}
    (h : ∀ other, Sound (Done (s.setTopic jvm g) other) (s.topics other))
    (hg : Sound (Done (s.setTopic jvm g) jvm) g) (other : Jvm) :
    Sound (Done (s.setTopic jvm g) other) ((s.setTopic jvm g).topics other) := by
  by_cases hother : other = jvm
  · subst hother
    rw [setTopic_self]
    exact hg
  · rw [setTopic_of_ne hother]
    exact h other

/-- **Every group commits behind its evictions.** -/
theorem Effect.topics {a : Action Worker Jvm Entity Relay} (h : Invariant config s)
    (he : Effect config s a t) (jvm : Jvm) : Sound (Done t jvm) (t.topics jvm) := by
  have hlater := he.later
  have hsound := h.topics_later hlater
  cases he with
  | request _ _ => exact hsound jvm
  | unchanged _ _ _ => exact hsound jvm
  | committed _ _ _ _ _ => exact hsound jvm
  | relay _ _ => exact hsound jvm
  | written _ _ => exact (hsound jvm).append _ _
  | unwritten _ _ => exact hsound jvm
  | group container _ move =>
    exact sound_setTopic hsound (sound_move (hsound _) move fun p i hi =>
      absurd hi (container_claims container)) jvm
  | leaves move =>
    exact sound_setTopic hsound (sound_move (hsound _) move (by simp [Topic.claims])) jvm
  | begins _ _ _ _ => exact hsound jvm
  | calls _ _ _ _ => exact hsound jvm
  | returns call own step ended move =>
    rename_i j c a x g
    refine sound_setTopic hsound (sound_move (hsound _) move fun p i hi => ?_) jvm
    obtain ⟨task, htask⟩ : ∃ task, s.shops.tasks (.inl (j, c)) = some task := by
      cases htask : s.shops.tasks (.inl (j, c)) with
      | some task => exact ⟨task, rfl⟩
      | none => cases a <;> cases own <;> simp [Shop.step, htask, ofCall] at step call
    obtain ⟨m, batch, failures, o, hduty, hoffsets, hrecord, hevict⟩ := h.calls j c task htask
    rcases evict_call htask hevict call own step with ⟨task', htask', -⟩ | ⟨-, rfl | hhandled⟩
    · exact absurd (ended.symm.trans htask') (by simp)
    · simp [listenerEnds, Topic.claims] at hi
    · have ho : (p, i) = o := by
        cases a with
        | throw th => simp [listenerEnds, Topic.claims] at hi
        | acquire th => simpa [listenerEnds, Topic.claims, hduty, Duty.batch, hoffsets] using hi
        | next th l => simpa [listenerEnds, Topic.claims, hduty, Duty.batch, hoffsets] using hi
        | _ => exact absurd call (by simp [ofCall])
      subst ho
      refine ⟨m, ?_, Or.inl hhandled⟩
      exact record_of_grown (hlater.records j) hrecord
  | published next move =>
    rename_i j c p answered m g
    refine sound_setTopic hsound (sound_move (hsound _) move fun q i hi => ?_) jvm
    obtain ⟨batch, k, i', hduty, hnext, hm⟩ := nextToRecover_eq_some next
    cases ofRecoverer_claims hduty hnext hi
    exact ⟨m, record_of_grown (hlater.records j) hm, Or.inr List.mem_cons_self⟩

/-! ## Listeners -/

omit [DecidableEq Worker] [DecidableEq Jvm] [DecidableEq Relay] in
/-- What the others do leaves a call where it is. -/
theorem Invariant.call_keep (h : Invariant config s) (hlater : Later s t) {jvm : Jvm} {c : ℕ}
    {task : Shop.Task Jvm Entity} (htask : s.shops.tasks (.inl (jvm, c)) = some task)
    (hmember : (t.topics jvm).members c = (s.topics jvm).members c) : CallOk t jvm c task := by
  obtain ⟨m, batch, failures, o, hduty, hoffsets, hrecord, phase, rfl, hhandled⟩ :=
    h.calls jvm c task htask
  refine ⟨m, batch, failures, o, hmember ▸ hduty, hoffsets,
    record_of_grown (hlater.records jvm) hrecord, phase, ?_, fun hphase => ?_⟩
  · rw [h.writes_eq hlater hrecord]
  · rw [h.writes_eq hlater hrecord]
    exact (hhandled hphase).trans (hlater.handled jvm m.targetId)

omit [DecidableEq Worker] [DecidableEq Relay] in
/-- The members of other groups, and the others of the group that moves. -/
theorem members_setTopic {jvm j : Jvm} {c : ℕ} {g : Topic InvalidationMessage}
    {a : Move InvalidationMessage} (hmove : (s.topics j).move config.retryAttempts a = some g)
    (hne : jvm = j → a.member ≠ some c) :
    ((s.setTopic j g).topics jvm).members c = (s.topics jvm).members c := by
  by_cases hj : jvm = j
  · subst hj
    rw [setTopic_self]
    exact move_others (hne rfl) hmove
  · rw [setTopic_of_ne hj]

omit [DecidableEq Relay] in
/-- A member that has left is in no call. -/
theorem leave_tasks (s : State Worker Jvm Entity Relay) (jvm : Jvm) (c : ℕ) :
    (s.leave jvm c).shops.tasks (.inl (jvm, c)) = none := by
  cases htask : s.shops.tasks (.inl (jvm, c)) with
  | none => simp [State.leave, Shop.step, htask]
  | some task => simp [State.leave, Shop.step, htask, Shop.State.leave]

/-- A request moves no listener. -/
theorem request_tasks {x y : Shop.State (Thread Jvm Worker) Jvm Entity} {w : Worker} {locked : Bool}
    (hstep : Shop.step x (.next (.inr w) locked) = some y) (jvm : Jvm) (c : ℕ) :
    y.tasks (.inl (jvm, c)) = x.tasks (.inl (jvm, c)) :=
  shop_tasks (fun heq => by cases heq) hstep

/-- **The call of a listener is for the record of its batch.** -/
theorem Effect.calls_ok {a : Action Worker Jvm Entity Relay} (h : Invariant config s)
    (he : Effect config s a t) (jvm : Jvm) (c : ℕ) (task : Shop.Task Jvm Entity)
    (htask : t.shops.tasks (.inl (jvm, c)) = some task) : CallOk t jvm c task := by
  have hlater := he.later
  cases he with
  | request request step =>
    rename_i a x
    have hactor : actor a ≠ some (.inl (jvm, c)) := by
      intro hactor
      simp [ofRequest, hactor] at request
    exact h.call_keep hlater (shop_tasks hactor step ▸ htask) rfl
  | unchanged underWay step same =>
    exact h.call_keep hlater (request_tasks step jvm c ▸ htask) rfl
  | committed underWay step more newId newEvent =>
    exact h.call_keep hlater (request_tasks step jvm c ▸ htask) rfl
  | relay _ _ => exact h.call_keep hlater htask rfl
  | written _ _ => exact h.call_keep hlater htask rfl
  | unwritten _ _ => exact h.call_keep hlater htask rfl
  | group _ free move =>
    rename_i j a g
    refine h.call_keep hlater htask (members_setTopic move fun hj hc => ?_)
    subst hj
    exact absurd ((free c hc).symm.trans htask) (by simp)
  | leaves move =>
    rename_i j c' g
    have hother : ¬(jvm = j ∧ c = c') := by
      rintro ⟨rfl, rfl⟩
      exact absurd ((leave_tasks s jvm c).symm.trans htask) (by simp)
    have htask' : s.shops.tasks (.inl (jvm, c)) = some task := by
      change (s.leave j c').shops.tasks (.inl (jvm, c)) = some task at htask
      rcases leave_shops s j c' with heq | hstep
      · exact heq ▸ htask
      · refine shop_tasks (fun heq => hother ?_) hstep ▸ htask
        cases heq
        exact ⟨rfl, rfl⟩
    have hne : jvm = j → (Move.leave c' : Move InvalidationMessage).member ≠ some c := by
      rintro hj hc
      cases hc
      exact hother ⟨hj, rfl⟩
    exact h.call_keep hlater htask' (members_setTopic move hne)
  | begins listener single record step =>
    rename_i j c' batch o m x
    by_cases hown : jvm = j ∧ c = c'
    · obtain ⟨rfl, rfl⟩ := hown
      obtain ⟨failures, hduty⟩ := running_eq_some listener
      have hbegun : x.tasks (.inl (jvm, c)) =
          some ⟨jvm, m.targetId, .evict (s.writes m.eventId) .waiting⟩ := by
        simp only [Shop.step] at step
        split at step <;> cases step
        exact Function.update_self ..
      cases hbegun.symm.trans htask
      exact ⟨m, batch, failures, o, hduty, single, record, .waiting, rfl, by simp⟩
    · refine h.call_keep hlater (shop_tasks (fun heq => hown ?_) step ▸ htask) rfl
      cases heq
      exact ⟨rfl, rfl⟩
  | calls call own step underWay =>
    rename_i j c' a x task'
    by_cases hown : jvm = j ∧ c = c'
    · obtain ⟨rfl, rfl⟩ := hown
      cases underWay.symm.trans htask
      obtain ⟨task₀, htask₀⟩ : ∃ task, s.shops.tasks (.inl (jvm, c)) = some task := by
        cases htask₀ : s.shops.tasks (.inl (jvm, c)) with
        | some task => exact ⟨task, rfl⟩
        | none => cases a <;> cases own <;> simp [Shop.step, htask₀, ofCall] at step call
      obtain ⟨m, batch, failures, o, hduty, hoffsets, hrecord, hevict⟩ :=
        h.calls jvm c task₀ htask₀
      rcases evict_call htask₀ hevict call own step with ⟨task', htask', hgoes⟩ | ⟨hended, -⟩
      · cases underWay.symm.trans htask'
        exact ⟨m, batch, failures, o, hduty, hoffsets, hrecord, hgoes⟩
      · exact absurd (hended.symm.trans underWay) (by simp)
    · refine h.call_keep hlater (shop_tasks (fun heq => hown ?_) step ▸ htask) rfl
      cases own.symm.trans heq
      exact ⟨rfl, rfl⟩
  | returns call own step ended move =>
    rename_i j c' a x g
    have hother : ¬(jvm = j ∧ c = c') := by
      rintro ⟨rfl, rfl⟩
      exact absurd (ended.symm.trans htask) (by simp)
    have htask' : s.shops.tasks (.inl (jvm, c)) = some task := by
      refine shop_tasks (fun heq => hother ?_) step ▸ htask
      cases own.symm.trans heq
      exact ⟨rfl, rfl⟩
    refine h.call_keep hlater htask' (members_setTopic move fun hj hc => hother ⟨hj, ?_⟩)
    cases a <;> cases hc <;> rfl
  | published next move =>
    rename_i j c' p answered m g
    refine h.call_keep hlater htask (members_setTopic move fun hj hc => ?_)
    subst hj
    obtain ⟨batch, k, i, hduty, -⟩ := nextToRecover_eq_some next
    obtain ⟨m', batch', failures, o, hlisten, -⟩ := h.calls jvm c task htask
    have hc' : c' = c := by cases answered <;> exact Option.some.inj hc
    rw [← hc', hduty] at hlisten
    cases hlisten

/-! ## Runs -/

theorem outbox_inv {a : Action Worker Jvm Entity Relay} (hmax : 1 ≤ config.relay.maxAutoRetries)
    (h : Invariant config s) (he : Effect config s a t) :
    Invalidation.Inv config.relay t.outbox := by
  cases he with
  | committed _ _ _ newId _ => exact Invalidation.inv_insert h.outbox rfl rfl newId
  | relay _ step => exact Invalidation.inv_step hmax h.outbox step
  | written _ step => exact Invalidation.inv_step hmax h.outbox step
  | unwritten _ step => exact Invalidation.inv_step hmax h.outbox step
  | _ => exact h.outbox

/-- **To the shops a step of the whole is one step or none.** -/
theorem Effect.shops {a : Action Worker Jvm Entity Relay} (he : Effect config s a t) :
    t.shops = s.shops ∨ ∃ b, Shop.step s.shops b = some t.shops := by
  cases he with
  | request _ step => exact Or.inr ⟨_, step⟩
  | unchanged _ step _ => exact Or.inr ⟨_, step⟩
  | committed _ step _ _ _ => exact Or.inr ⟨_, step⟩
  | leaves move =>
    rename_i j c g
    exact (leave_shops s j c).imp_right fun hstep => ⟨_, hstep⟩
  | begins _ _ _ step => exact Or.inr ⟨_, step⟩
  | calls _ _ step _ => exact Or.inr ⟨_, step⟩
  | returns _ _ step _ _ => exact Or.inr ⟨_, step⟩
  | _ => exact Or.inl rfl

theorem shops_inv {a : Action Worker Jvm Entity Relay} (h : Invariant config s)
    (he : Effect config s a t) : Shop.Inv t.shops := by
  rcases he.shops with heq | ⟨b, hb⟩
  · exact heq ▸ h.shops
  · exact Shop.inv_step h.shops hb

theorem invariant_step {a : Action Worker Jvm Entity Relay}
    (hmax : 1 ≤ config.relay.maxAutoRetries) (h : Invariant config s)
    (hstep : step config s a = some t) : Invariant config t where
  shops := shops_inv h (step_effect hstep)
  outbox := outbox_inv hmax h (step_effect hstep)
  events := (step_effect hstep).events h
  acks := ((step_effect hstep).messages h).acks
  records := ((step_effect hstep).messages h).events
  topics := (step_effect hstep).topics h
  calls := (step_effect hstep).calls_ok h

omit [DecidableEq Worker] [DecidableEq Jvm] [DecidableEq Relay] in
theorem invariant_init (config : Config) (localCache : Jvm → ShopId → Option Entity)
    (redis : ShopId → Option (Option Entity)) (db : ShopId → Option Entity) :
    Invariant config (State.init localCache redis db : State Worker Jvm Entity Relay) where
  shops := Shop.inv_init localCache redis db
  outbox := Invalidation.inv_start config.relay
  events :=
    { committed := fun r hr => absurd hr List.not_mem_nil
      inserted := fun id v hone hle => absurd (hone.trans hle) (by
        simp [State.init, Shop.State.init]) }
  acks m hm := absurd hm List.not_mem_nil
  records jvm p m hm := absurd hm List.not_mem_nil
  topics _ := sound_empty
  calls jvm c task htask := nomatch htask

/-- Where the event of a write is that a JVM has not handled. -/
inductive Outstanding (config : Config) (s : State Worker Jvm Entity Relay) (jvm : Jvm)
    (r : InvalidationRow) : Prop
  /-- the relays have not got it through yet -/
  | pending (status : r.status = .pending)
  /-- the relays have given it up -/
  | failed (status : r.status = .failed)
      (exhausted : config.relay.maxAutoRetries.toInt ≤ s.outbox.failures r.id)
  /-- its record is at or above the committed offset of the JVM's group -/
  | waiting (i : ℕ) (uncommitted : (s.topics jvm).committed (config.partitionOf r.targetId) ≤ i)
      (record : (s.topics jvm).record (config.partitionOf r.targetId, i) = some r.message)
  /-- the listener of some JVM has given it up -/
  | dead (deadLetter : r.message ∈ s.deadLetters)

/-- A write of a shop is handled by the JVM, or its event is outstanding. -/
def Accounted (config : Config) (s : State Worker Jvm Entity Relay) (jvm : Jvm) (id : ShopId)
    (version : ℕ) : Prop :=
  version ≤ s.shops.handled jvm id ∨ ∃ r ∈ s.outbox.table.rows,
    r.targetId = id ∧ s.writes r.eventId = version ∧ Outstanding config s jvm r

omit [DecidableEq Worker] [DecidableEq Jvm] [DecidableEq Relay] in
/-- Every write is accounted for. -/
theorem Invariant.accounted (h : Invariant config s) (jvm : Jvm) {id : ShopId} {version : ℕ}
    (hone : 1 ≤ version) (hle : version ≤ (s.shops.store.history id).length) :
    Accounted config s jvm id version := by
  obtain ⟨r, hr, rfl, hwrite⟩ := h.events.inserted id version hone hle
  obtain ⟨hacked, hexhausted, -⟩ := h.outbox.rows r hr
  cases hstatus : r.status with
  | pending => exact Or.inr ⟨r, hr, rfl, hwrite, .pending hstatus⟩
  | failed => exact Or.inr ⟨r, hr, rfl, hwrite, .failed hstatus (hexhausted hstatus)⟩
  | sent =>
    obtain ⟨i, hi⟩ := List.mem_iff_getElem?.mp (h.acks _ (hacked hstatus) jvm)
    by_cases hcommitted : (s.topics jvm).committed (config.partitionOf r.targetId) ≤ i
    · exact Or.inr ⟨r, hr, rfl, hwrite, .waiting i hcommitted hi⟩
    · obtain ⟨m, hm, hcase⟩ :=
        (h.topics jvm).committed (config.partitionOf r.targetId) i (by omega)
      have hrecord : (s.topics jvm).record (config.partitionOf r.targetId, i) = some r.message := hi
      cases hrecord.symm.trans hm
      rcases hcase with hhandled | hdead
      · left
        have heq : s.writes r.message.eventId = version := hwrite
        rw [heq] at hhandled
        exact hhandled
      · exact Or.inr ⟨r, hr, rfl, hwrite, .dead hdead⟩

/-- **Every write is accounted for on every JVM.** -/
theorem write_accounted (hmax : 1 ≤ config.relay.maxAutoRetries)
    {localCache : Jvm → ShopId → Option Entity} {redis : ShopId → Option (Option Entity)}
    {db : ShopId → Option Entity} {as : List (Action Worker Jvm Entity Relay)}
    (hrun : run (step config) (State.init localCache redis db) as = some t) (jvm : Jvm)
    (id : ShopId) (version : ℕ) (hone : 1 ≤ version)
    (hle : version ≤ (t.shops.store.history id).length) :
    Accounted config t jvm id version :=
  (run_invariant' (fun _ _ _ => invariant_step hmax) (invariant_init config localCache redis db)
    hrun).accounted jvm hone hle

/-- A shop is updated on the JVM 0, whose own eviction fails. The relay's first send is written but
not answered, so the event is sent twice; the JVM 1 handles the first record, the JVM 2 none. -/
def updateReachesJvm : List (Action ℕ ℕ ℕ ℕ) :=
  [.request (.start (.inr 0) 0 1 (.update fun _ => 7)), .request (.acquire (.inr 0)),
    .request (.next (.inr 0) true), .commit 0 1 ['e'] 0, .request (.throw (.inr 0)),
    .relay (.findDispatchable 0 0), .send 0 (some ⟨[], none⟩) true,
    .relay (.handleFailure 0 .returns 0 0), .send 0 none true, .relay (.findDispatchable 0 60),
    .send 0 none true, .relay (.markSent 0 .returns ⟨[], none⟩ 60),
    .group 1 (.assign 5 0), .group 1 (.poll 5 [⟨0, 0, 1⟩]), .onMessage 1 5,
    .evict 1 5 (.acquire (.inl (1, 5))), .evict 1 5 (.next (.inl (1, 5)) true),
    .evict 1 5 (.next (.inl (1, 5)) true), .evict 1 5 (.next (.inl (1, 5)) true),
    .group 1 (.commit 5)]

theorem write_accounted_second_jvm :
    ∃ t, run (step ⟨⟨10, 3, 1, 60⟩, 2, fun _ => 0⟩)
        (State.init (fun _ _ => some 5) (fun _ => some (some 5)) fun _ => some 5)
        updateReachesJvm = some t ∧
      (t.shops.handled 1 1, t.shops.handled 2 1, (t.topics 1).committed 0,
        ((t.topics 2).log 0).length, (t.shops.store.history 1).length) = (1, 0, 1, 2, 1) ∧
      ∀ jvm, Accounted ⟨⟨10, 3, 1, 60⟩, 2, fun _ => 0⟩ t jvm 1 1 := by
  obtain ⟨t, ht, hstate⟩ := Option.map_eq_some_iff.mp
    (show (run (step ⟨⟨10, 3, 1, 60⟩, 2, fun _ => 0⟩)
        (State.init (fun _ _ => some 5) (fun _ => some (some 5)) fun _ => some 5)
        updateReachesJvm).map (fun t =>
          (t.shops.handled 1 1, t.shops.handled 2 1, (t.topics 1).committed 0,
            ((t.topics 2).log 0).length, (t.shops.store.history 1).length)) =
        some (1, 0, 1, 2, 1) by decide +kernel)
  refine ⟨t, ht, hstate, fun jvm => write_accounted (by decide) ht jvm 1 1 le_rfl ?_⟩
  simp only [Prod.mk.injEq] at hstate
  exact hstate.2.2.2.2.ge

end Hmdp.Broadcast
