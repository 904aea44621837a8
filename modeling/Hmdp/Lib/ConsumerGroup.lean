import Hmdp.Lib.Machine
import Mathlib.Data.List.Basic

/-!
# Consumer groups

A log in partitions, the offset a group has committed in each, and any number of members. A member
polls the records from its positions on, hands them to its listener, and commits behind them; a
listener that keeps failing gives its records up one by one to a recoverer. Partitions move between
members at any time, members leave at any time, and a commit of a member that has lost its
partition is not refused here, so what follows does not rest on fencing.

Positions and batches live in memory. `Sound` says what the committed offsets are worth: below them
every offset is `done`, for any property that stays once it holds, provided the listener and the
recoverer establish it for what they return from (`sound_move`).
-/

namespace Hmdp.Lib.ConsumerGroup

/-- The offsets of a partition from `first` up to `next`. -/
structure Segment where
  partition : ℕ
  first : ℕ
  next : ℕ
  deriving DecidableEq

/-- The offsets of a batch, in the order of its records. -/
def offsets (batch : List Segment) : List (ℕ × ℕ) :=
  batch.flatMap fun g => (List.range' g.first (g.next - g.first)).map fun i => (g.partition, i)

theorem mem_offsets {batch : List Segment} {p i : ℕ} :
    (p, i) ∈ offsets batch ↔ ∃ g ∈ batch, g.partition = p ∧ g.first ≤ i ∧ i < g.next := by
  simp only [offsets, List.mem_flatMap, List.mem_map, List.mem_range'_1, Prod.mk.injEq]
  constructor
  · rintro ⟨g, hg, j, hj, rfl, rfl⟩
    exact ⟨g, hg, rfl, hj.1, by omega⟩
  · rintro ⟨g, hg, rfl, hfirst, hnext⟩
    exact ⟨g, hg, i, ⟨hfirst, by omega⟩, rfl, rfl⟩

/-- `n`, or the bound `f` of the batch's segment of the partition. -/
def bound (f : Segment → ℕ) (batch : List Segment) (p n : ℕ) : ℕ :=
  ((batch.find? fun g => decide (g.partition = p)).map f).getD n

/-- What a member is at. -/
inductive Duty where
  | idle
  /-- the listener runs on the batch, after so many failures -/
  | listening (batch : List Segment) (failures : ℕ)
  /-- the listener has failed for good, and so many records have been recovered -/
  | recovering (batch : List Segment) (recovered : ℕ)
  /-- the batch is dealt with, its offsets are to be committed -/
  | acknowledged (batch : List Segment)
  deriving DecidableEq

namespace Duty

/-- The records the member has in hand. -/
def batch : Duty → List Segment
  | .idle => []
  | .listening batch _ => batch
  | .recovering batch _ => batch
  | .acknowledged batch => batch

/-- The offsets of the batch that are dealt with. -/
def dealt : Duty → List (ℕ × ℕ)
  | .idle => []
  | .listening _ _ => []
  | .recovering batch recovered => (offsets batch).take recovered
  | .acknowledged batch => offsets batch

end Duty

/-- A consumer of the group. -/
structure Member where
  /-- the next offset to poll, of the partitions that are assigned -/
  position : ℕ → Option ℕ
  duty : Duty

/-- A topic with one consumer group: the records of each partition, the committed offsets and the
members. -/
structure Topic (M : Type*) where
  log : ℕ → List M
  committed : ℕ → ℕ
  members : ℕ → Member

/-- What a producer, the broker and a container do to it. -/
inductive Move (M : Type*) where
  | append (partition : ℕ) (record : M)
  | assign (member partition : ℕ)
  | revoke (member partition : ℕ)
  | poll (member : ℕ) (batch : List Segment)
  /-- the listener returns -/
  | listened (member : ℕ)
  /-- the listener throws -/
  | failed (member : ℕ)
  | giveUp (member : ℕ)
  /-- the recoverer returns for the next record -/
  | recovered (member : ℕ)
  /-- the batch has been recovered -/
  | handled (member : ℕ)
  /-- the batch is to be polled again -/
  | reseek (member : ℕ)
  | commit (member : ℕ)
  | commitFails (member : ℕ)
  | leave (member : ℕ)

variable {M : Type*}

/-- The recoverer returns for the next record, or throws. -/
def Move.ofRecoverer (c : ℕ) (returned : Bool) : Move M :=
  if returned then .recovered c else .reseek c

namespace Topic

/-- No record, no member. -/
def empty : Topic M where
  log _ := []
  committed _ := 0
  members _ := ⟨fun _ => none, .idle⟩

/-- The record at a partition and an offset. -/
def record (g : Topic M) (o : ℕ × ℕ) : Option M := (g.log o.1)[o.2]?

/-- The records of a batch. -/
def records (g : Topic M) (batch : List Segment) : List M := (offsets batch).filterMap g.record

/-- The topic with a record more. -/
def append (g : Topic M) (p : ℕ) (m : M) : Topic M :=
  { g with log := Function.update g.log p (g.log p ++ [m]) }

/-- One member changes. -/
def setMember (g : Topic M) (c : ℕ) (member : Member) : Topic M :=
  { g with members := Function.update g.members c member }

/-- One member goes on, its assignment unchanged. -/
def setDuty (g : Topic M) (c : ℕ) (duty : Duty) : Topic M :=
  g.setMember c { g.members c with duty := duty }

/-- The batch may be polled at these positions. -/
def Polls (g : Topic M) (position : ℕ → Option ℕ) (batch : List Segment) : Prop :=
  (batch.map Segment.partition).Nodup ∧ ∀ seg ∈ batch, position seg.partition = some seg.first ∧
    seg.first ≤ seg.next ∧ seg.next ≤ (g.log seg.partition).length

instance (g : Topic M) (position : ℕ → Option ℕ) (batch : List Segment) :
    Decidable (g.Polls position batch) :=
  inferInstanceAs (Decidable (_ ∧ _))

/-- One move of the group, whose listeners are retried so many times; `none` where it is not
possible. -/
def move (retries : ℕ) (g : Topic M) : Move M → Option (Topic M)
  | .append p m => some (g.append p m)
  | .assign c p =>
    some (g.setMember c { g.members c with
      position := Function.update (g.members c).position p (some (g.committed p)) })
  | .revoke c p =>
    some (g.setMember c { g.members c with
      position := Function.update (g.members c).position p none })
  | .poll c batch =>
    if (g.members c).duty = .idle ∧ g.Polls (g.members c).position batch then
      some (g.setMember c ⟨fun p => ((g.members c).position p).map (bound Segment.next batch p),
        .listening batch 0⟩)
    else none
  | .listened c =>
    match (g.members c).duty with
    | .listening batch _ => some (g.setDuty c (.acknowledged batch))
    | _ => none
  | .failed c =>
    match (g.members c).duty with
    | .listening batch failures => some (g.setDuty c (.listening batch (failures + 1)))
    | _ => none
  | .giveUp c =>
    match (g.members c).duty with
    | .listening batch failures =>
      if retries < failures then some (g.setDuty c (.recovering batch 0)) else none
    | _ => none
  | .recovered c =>
    match (g.members c).duty with
    | .recovering batch k =>
      if k < (offsets batch).length then some (g.setDuty c (.recovering batch (k + 1))) else none
    | _ => none
  | .handled c =>
    match (g.members c).duty with
    | .recovering batch k =>
      if (offsets batch).length ≤ k then some (g.setDuty c (.acknowledged batch)) else none
    | _ => none
  | .reseek c =>
    match (g.members c).duty with
    | .idle => none
    | duty =>
      some (g.setMember c ⟨fun p =>
        ((g.members c).position p).map (bound Segment.first duty.batch p), .idle⟩)
  | .commit c =>
    match (g.members c).duty with
    | .acknowledged batch =>
      some { g.setDuty c .idle with
        committed := fun p => bound Segment.next batch p (g.committed p) }
    | _ => none
  | .commitFails c =>
    match (g.members c).duty with
    | .acknowledged _ => some (g.setDuty c .idle)
    | _ => none
  | .leave c => some (g.setMember c ⟨fun _ => none, .idle⟩)

/-- The batch the listener of a member is called with: again after a failure, up to `retries`
times. -/
def running (retries : ℕ) (g : Topic M) (c : ℕ) : Option (List Segment) :=
  match (g.members c).duty with
  | .listening batch failures => if failures ≤ retries then some batch else none
  | _ => none

/-- The partition and the record the recoverer of a member is handed next. -/
def nextToRecover (g : Topic M) (c : ℕ) : Option (ℕ × M) :=
  match (g.members c).duty with
  | .recovering batch k =>
    (offsets batch)[k]?.bind fun o => (g.record o).map fun m => (o.1, m)
  | _ => none

/-- The offsets a move is to deal with: all of the batch, or the next to be recovered. -/
def claims (g : Topic M) : Move M → List (ℕ × ℕ)
  | .listened c => offsets (g.members c).duty.batch
  | .recovered c =>
    match (g.members c).duty with
    | .recovering batch k => ((offsets batch)[k]?).toList
    | _ => []
  | _ => []

end Topic

variable {retries : ℕ} {g g' : Topic M} {done done' : ℕ → ℕ → Prop}

/-! ## What committed offsets are worth -/

/-- What a member of the group knows, in memory. -/
structure MemberSound (done : ℕ → ℕ → Prop) (log : ℕ → List M) (member : Member) : Prop where
  position : ∀ p n, member.position p = some n →
    ∀ i < n, done p i ∨ (p, i) ∈ offsets member.duty.batch
  below : ∀ seg ∈ member.duty.batch, ∀ i < seg.first, done seg.partition i
  polled : ∀ seg ∈ member.duty.batch, seg.next ≤ (log seg.partition).length
  dealt : ∀ p i, (p, i) ∈ member.duty.dealt → done p i

/-- Everything below a committed offset is done. -/
structure Sound (done : ℕ → ℕ → Prop) (g : Topic M) : Prop where
  committed : ∀ p, ∀ i < g.committed p, done p i
  members : ∀ c, MemberSound done g.log (g.members c)

theorem sound_empty : Sound done (Topic.empty : Topic M) where
  committed p i hi := absurd hi (Nat.not_lt_zero i)
  members c := by constructor <;> simp [Topic.empty, Duty.batch, Duty.dealt]

/-- A property that holds of more offsets. -/
theorem MemberSound.mono {log : ℕ → List M} {member : Member} (h : MemberSound done log member)
    (hmono : ∀ p i, done p i → done' p i) : MemberSound done' log member where
  position p n hp i hi := (h.position p n hp i hi).imp_left (hmono p i)
  below seg hseg i hi := hmono _ _ (h.below seg hseg i hi)
  polled := h.polled
  dealt p i hi := hmono p i (h.dealt p i hi)

theorem Sound.mono (h : Sound done g) (hmono : ∀ p i, done p i → done' p i) : Sound done' g where
  committed p i hi := hmono p i (h.committed p i hi)
  members c := (h.members c).mono hmono

/-- A member takes another state. -/
theorem Sound.setMember (h : Sound done g) {c : ℕ} {member : Member}
    (hmember : MemberSound done g.log member) : Sound done (g.setMember c member) where
  committed := h.committed
  members d := by
    simp only [Topic.setMember, Function.update_apply]
    split
    · exact hmember
    · exact h.members d

/-- A member goes on with its batch, more of which is dealt with. -/
theorem Sound.setDuty (h : Sound done g) {c : ℕ} {duty : Duty}
    (hbatch : duty.batch = (g.members c).duty.batch)
    (hdealt : ∀ p i, (p, i) ∈ duty.dealt → done p i) : Sound done (g.setDuty c duty) :=
  h.setMember
    { position := by
        simp only [hbatch]
        exact (h.members c).position
      below := by
        simp only [hbatch]
        exact (h.members c).below
      polled := by
        simp only [hbatch]
        exact (h.members c).polled
      dealt := hdealt }

/-- Below the bound of a batch: below the segment's, or below what it was. -/
theorem lt_bound {f : Segment → ℕ} {batch : List Segment} {p n i : ℕ}
    (hi : i < bound f batch p n) :
    (∃ seg ∈ batch, seg.partition = p ∧ i < f seg) ∨
      i < n ∧ ∀ seg ∈ batch, seg.partition ≠ p := by
  unfold bound at hi
  cases hfind : batch.find? fun g => decide (g.partition = p) with
  | none =>
    rw [hfind] at hi
    exact Or.inr ⟨hi, fun seg hseg => by simpa using List.find?_eq_none.mp hfind seg hseg⟩
  | some seg =>
    rw [hfind] at hi
    exact Or.inl ⟨seg, List.mem_of_find?_eq_some hfind, by simpa using List.find?_some hfind, hi⟩

/-- A member whose batch is dealt with, or that has none, knows its positions. -/
theorem Sound.setIdle (h : Sound done g) {c : ℕ}
    (hdealt : ∀ p i, (p, i) ∈ offsets (g.members c).duty.batch → done p i) :
    Sound done (g.setDuty c .idle) :=
  h.setMember
    { position := fun p n hp i hi =>
        Or.inl (((h.members c).position p n hp i hi).elim id (hdealt p i))
      below := by simp [Duty.batch]
      polled := by simp [Duty.batch]
      dealt := by simp [Duty.dealt] }

/-- All of an acknowledged batch is done, up to the end of each segment. -/
theorem Sound.below_next (h : Sound done g) {c p i : ℕ} {batch : List Segment}
    (hduty : (g.members c).duty = .acknowledged batch) {seg : Segment} (hseg : seg ∈ batch)
    (hp : seg.partition = p) (hi : i < seg.next) : done p i := by
  have hm := h.members c
  by_cases hfirst : i < seg.first
  · exact hp ▸ hm.below seg (by rw [hduty]; exact hseg) i hfirst
  · refine hm.dealt p i ?_
    rw [hduty]
    exact mem_offsets.mpr ⟨seg, hseg, hp, by omega, hi⟩

/-- Polling. -/
theorem Sound.poll (h : Sound done g) {c : ℕ} {batch : List Segment}
    (hduty : (g.members c).duty = .idle) (hpolls : g.Polls (g.members c).position batch) :
    Sound done (g.setMember c ⟨fun p => ((g.members c).position p).map
      (bound Segment.next batch p), .listening batch 0⟩) := by
  have hm := h.members c
  have hknown : ∀ p n, (g.members c).position p = some n → ∀ i < n, done p i := by
    intro p n hp i hi
    rcases hm.position p n hp i hi with hdone | hbatch
    · exact hdone
    · simp [hduty, Duty.batch, offsets] at hbatch
  refine h.setMember ⟨?_, fun seg hseg i hi => ?_, fun seg hseg => (hpolls.2 seg hseg).2.2, ?_⟩
  · intro p n hp i hi
    obtain ⟨n₀, hn₀, rfl⟩ := Option.map_eq_some_iff.mp hp
    rcases lt_bound hi with ⟨seg, hseg, hpart, hlt⟩ | ⟨hlt, -⟩
    · by_cases hfirst : i < seg.first
      · exact Or.inl (hknown p seg.first (hpart ▸ (hpolls.2 seg hseg).1) i hfirst)
      · exact Or.inr (mem_offsets.mpr ⟨seg, hseg, hpart, by omega, hlt⟩)
    · exact Or.inl (hknown p n₀ hn₀ i hlt)
  · exact hknown _ _ (hpolls.2 seg hseg).1 i hi
  · simp [Duty.dealt]

/-- Seeking back to where the batch began. -/
theorem Sound.reseek (h : Sound done g) (c : ℕ) :
    Sound done (g.setMember c ⟨fun p => ((g.members c).position p).map
      (bound Segment.first (g.members c).duty.batch p), .idle⟩) := by
  have hm := h.members c
  refine h.setMember ⟨?_, by simp [Duty.batch], by simp [Duty.batch], by simp [Duty.dealt]⟩
  intro p n hp i hi
  obtain ⟨n₀, hn₀, rfl⟩ := Option.map_eq_some_iff.mp hp
  rcases lt_bound hi with ⟨seg, hseg, hpart, hlt⟩ | ⟨hlt, hnone⟩
  · exact Or.inl (hpart ▸ hm.below seg hseg i hlt)
  · rcases hm.position p n₀ hn₀ i hlt with hdone | hbatch
    · exact Or.inl hdone
    · obtain ⟨seg, hseg, hpart, -⟩ := mem_offsets.mp hbatch
      exact absurd hpart (hnone seg hseg)

/-- Taking a partition over at its committed offset. -/
theorem Sound.assign (h : Sound done g) (c p : ℕ) :
    Sound done (g.setMember c { g.members c with
      position := Function.update (g.members c).position p (some (g.committed p)) }) := by
  have hm := h.members c
  refine h.setMember ⟨fun q n hq i hi => ?_, hm.below, hm.polled, hm.dealt⟩
  by_cases hqp : q = p
  · subst hqp
    simp only [Function.update_self, Option.some.injEq] at hq
    exact Or.inl (h.committed q i (hq ▸ hi))
  · exact hm.position q n (by simpa [hqp] using hq) i hi

theorem Sound.revoke (h : Sound done g) (c p : ℕ) :
    Sound done (g.setMember c { g.members c with
      position := Function.update (g.members c).position p none }) := by
  have hm := h.members c
  refine h.setMember ⟨fun q n hq i hi => ?_, hm.below, hm.polled, hm.dealt⟩
  by_cases hqp : q = p
  · subst hqp
    simp at hq
  · exact hm.position q n (by simpa [hqp] using hq) i hi

/-- A record more. -/
theorem Sound.append (h : Sound done g) (p : ℕ) (m : M) : Sound done (g.append p m) where
  committed := h.committed
  members c :=
    { position := (h.members c).position
      below := (h.members c).below
      polled := fun seg hseg => by
        have hle := (h.members c).polled seg hseg
        simp only [Topic.append, Function.update_apply]
        split
        · rename_i heq
          rw [heq] at hle
          simp only [List.length_append, List.length_singleton]
          omega
        · exact hle
      dealt := (h.members c).dealt }

/-- Committing behind a batch that is dealt with. -/
theorem Sound.commit (h : Sound done g) {c : ℕ} {batch : List Segment}
    (hduty : (g.members c).duty = .acknowledged batch) :
    Sound done { g.setDuty c .idle with
      committed := fun p => bound Segment.next batch p (g.committed p) } where
  committed p i hi := by
    rcases lt_bound hi with ⟨seg, hseg, hpart, hlt⟩ | ⟨hlt, -⟩
    · exact h.below_next hduty hseg hpart hlt
    · exact h.committed p i hlt
  members := (h.setIdle fun p i hi => (h.members c).dealt p i (by
    rw [hduty] at hi ⊢
    exact hi)).members

/-- **A move keeps it**, when what the listener or the recoverer has returned from is done. -/
theorem sound_move {a : Move M} (h : Sound done g) (hmove : g.move retries a = some g')
    (hdone : ∀ p i, (p, i) ∈ g.claims a → done p i) : Sound done g' := by
  cases a with
  | append p m =>
    cases hmove
    exact h.append p m
  | assign c p =>
    cases hmove
    exact h.assign c p
  | revoke c p =>
    cases hmove
    exact h.revoke c p
  | poll c batch =>
    simp only [Topic.move] at hmove
    split at hmove
    · rename_i hpoll
      cases hmove
      exact h.poll hpoll.1 hpoll.2
    · exact absurd hmove (by simp)
  | listened c =>
    simp only [Topic.move] at hmove
    split at hmove <;> cases hmove
    rename_i batch _ hduty
    exact h.setDuty (by rw [hduty]; rfl) fun p i hi => hdone p i (by
      rw [Topic.claims, hduty]
      exact hi)
  | failed c =>
    simp only [Topic.move] at hmove
    split at hmove <;> cases hmove
    rename_i hduty
    exact h.setDuty (by rw [hduty]; rfl) (by simp [Duty.dealt])
  | giveUp c =>
    simp only [Topic.move] at hmove
    split at hmove
    · rename_i hduty
      split at hmove <;> cases hmove
      exact h.setDuty (by rw [hduty]; rfl) (by simp [Duty.dealt])
    · exact absurd hmove (by simp)
  | recovered c =>
    simp only [Topic.move] at hmove
    split at hmove
    · rename_i batch k hduty
      split at hmove <;> cases hmove
      refine h.setDuty (by rw [hduty]; rfl) fun p i hi => ?_
      rw [Duty.dealt, List.take_add_one, List.mem_append] at hi
      rcases hi with hi | hi
      · exact (h.members c).dealt p i (by rw [hduty]; exact hi)
      · exact hdone p i (by
          rw [Topic.claims, hduty]
          exact hi)
    · exact absurd hmove (by simp)
  | handled c =>
    simp only [Topic.move] at hmove
    split at hmove
    · rename_i batch k hduty
      split at hmove <;> cases hmove
      rename_i hlen
      refine h.setDuty (by rw [hduty]; rfl) fun p i hi => (h.members c).dealt p i ?_
      rw [hduty, Duty.dealt, List.take_of_length_le hlen]
      exact hi
    · exact absurd hmove (by simp)
  | reseek c =>
    simp only [Topic.move] at hmove
    split at hmove <;> cases hmove
    exact h.reseek c
  | commit c =>
    simp only [Topic.move] at hmove
    split at hmove <;> cases hmove
    rename_i hduty
    exact h.commit hduty
  | commitFails c =>
    simp only [Topic.move] at hmove
    split at hmove <;> cases hmove
    rename_i hduty
    exact h.setIdle fun p i hi => (h.members c).dealt p i (by
      rw [hduty] at hi ⊢
      exact hi)
  | leave c =>
    cases hmove
    exact h.setMember (by constructor <;> simp [Duty.batch, Duty.dealt])

/-! ## What a move leaves alone -/

/-- The member that moves. -/
def Move.member : Move M → Option ℕ
  | .append _ _ => none
  | .assign c _ => some c
  | .revoke c _ => some c
  | .poll c _ => some c
  | .listened c => some c
  | .failed c => some c
  | .giveUp c => some c
  | .recovered c => some c
  | .handled c => some c
  | .reseek c => some c
  | .commit c => some c
  | .commitFails c => some c
  | .leave c => some c

/-- What a move of a member can change. -/
def Topic.moved (g : Topic M) (c : ℕ) (member : Member) (committed : ℕ → ℕ) : Topic M :=
  { g.setMember c member with committed := committed }

/-- **A move appends a record, or changes one member and perhaps the committed offsets.** -/
theorem move_shape {a : Move M} (hmove : g.move retries a = some g') :
    (∃ p m, a = .append p m ∧ g' = g.append p m) ∨
    ∃ c member committed, a.member = some c ∧ g' = g.moved c member committed := by
  cases a with
  | append p m => exact Or.inl ⟨p, m, rfl, (Option.some.inj hmove).symm⟩
  | assign c p => exact Or.inr ⟨c, _, g.committed, rfl, (Option.some.inj hmove).symm⟩
  | revoke c p => exact Or.inr ⟨c, _, g.committed, rfl, (Option.some.inj hmove).symm⟩
  | leave c => exact Or.inr ⟨c, _, g.committed, rfl, (Option.some.inj hmove).symm⟩
  | poll c batch =>
    simp only [Topic.move] at hmove
    split at hmove <;> cases hmove
    exact Or.inr ⟨c, _, g.committed, rfl, rfl⟩
  | listened c =>
    simp only [Topic.move] at hmove
    split at hmove <;> cases hmove
    exact Or.inr ⟨c, _, g.committed, rfl, rfl⟩
  | failed c =>
    simp only [Topic.move] at hmove
    split at hmove <;> cases hmove
    exact Or.inr ⟨c, _, g.committed, rfl, rfl⟩
  | giveUp c =>
    simp only [Topic.move] at hmove
    split at hmove
    · split at hmove <;> cases hmove
      exact Or.inr ⟨c, _, g.committed, rfl, rfl⟩
    · exact absurd hmove (by simp)
  | recovered c =>
    simp only [Topic.move] at hmove
    split at hmove
    · split at hmove <;> cases hmove
      exact Or.inr ⟨c, _, g.committed, rfl, rfl⟩
    · exact absurd hmove (by simp)
  | handled c =>
    simp only [Topic.move] at hmove
    split at hmove
    · split at hmove <;> cases hmove
      exact Or.inr ⟨c, _, g.committed, rfl, rfl⟩
    · exact absurd hmove (by simp)
  | reseek c =>
    simp only [Topic.move] at hmove
    split at hmove <;> cases hmove
    exact Or.inr ⟨c, _, g.committed, rfl, rfl⟩
  | commit c =>
    simp only [Topic.move] at hmove
    split at hmove <;> cases hmove
    exact Or.inr ⟨c, _, _, rfl, rfl⟩
  | commitFails c =>
    simp only [Topic.move] at hmove
    split at hmove <;> cases hmove
    exact Or.inr ⟨c, _, g.committed, rfl, rfl⟩

/-- A move other than `append` leaves the log as it is. -/
theorem move_log {a : Move M} (ha : ∀ p m, a ≠ .append p m) (hmove : g.move retries a = some g') :
    g'.log = g.log := by
  rcases move_shape hmove with ⟨p, m, happend, -⟩ | ⟨c, member, committed, -, rfl⟩
  · exact absurd happend (ha p m)
  · rfl

theorem append_grows (g : Topic M) (q : ℕ) (m : M) (p : ℕ) : g.log p <+: (g.append q m).log p := by
  by_cases hpq : p = q
  · subst hpq
    simp only [Topic.append, Function.update_self]
    exact List.prefix_append _ _
  · simp only [Topic.append, ne_eq, hpq, not_false_eq_true, Function.update_of_ne]
    exact List.prefix_rfl

/-- Logs only grow. -/
theorem move_grows {a : Move M} (hmove : g.move retries a = some g') (p : ℕ) :
    g.log p <+: g'.log p := by
  rcases move_shape hmove with ⟨q, m, -, rfl⟩ | ⟨c, member, committed, -, rfl⟩
  · exact append_grows g q m p
  · exact List.prefix_rfl

theorem mem_append_log {p q : ℕ} {m x : M} :
    x ∈ (g.append p m).log q ↔ x ∈ g.log q ∨ q = p ∧ x = m := by
  by_cases hq : q = p
  · subst hq
    simp [Topic.append]
  · simp [Topic.append, hq]

/-- The other members stay as they are. -/
theorem move_others {a : Move M} {d : ℕ} (ha : a.member ≠ some d)
    (hmove : g.move retries a = some g') : g'.members d = g.members d := by
  rcases move_shape hmove with ⟨p, m, -, rfl⟩ | ⟨c, member, committed, hc, rfl⟩
  · rfl
  · have hne : d ≠ c := fun he => ha (he.symm ▸ hc)
    exact Function.update_of_ne hne _ _

/-- What the recoverer says appends nothing. -/
theorem ofRecoverer_log {c : ℕ} {returned : Bool}
    (hmove : g.move retries (.ofRecoverer c returned) = some g') : g'.log = g.log :=
  move_log (by cases returned <;> simp [Move.ofRecoverer]) hmove

/-! ## Listeners and recoverers -/

theorem running_eq_some {c : ℕ} {batch : List Segment} (h : g.running retries c = some batch) :
    ∃ failures, (g.members c).duty = .listening batch failures := by
  unfold Topic.running at h
  split at h
  · rename_i b failures hduty
    split at h <;> cases h
    exact ⟨failures, hduty⟩
  · exact absurd h (by simp)

theorem nextToRecover_eq_some {c p : ℕ} {m : M} (h : g.nextToRecover c = some (p, m)) :
    ∃ batch k i, (g.members c).duty = .recovering batch k ∧
      (offsets batch)[k]? = some (p, i) ∧ g.record (p, i) = some m := by
  unfold Topic.nextToRecover at h
  split at h
  · rename_i batch k hduty
    obtain ⟨⟨q, i⟩, ho, h⟩ := Option.bind_eq_some_iff.mp h
    obtain ⟨m', hm', heq⟩ := Option.map_eq_some_iff.mp h
    cases heq
    exact ⟨batch, k, i, hduty, ho, hm'⟩
  · exact absurd h (by simp)

/-- What the recoverer says deals with the record it was handed. -/
theorem ofRecoverer_claims {c k : ℕ} {returned : Bool} {batch : List Segment}
    (hduty : (g.members c).duty = .recovering batch k) {o o' : ℕ × ℕ}
    (hnext : (offsets batch)[k]? = some o') (ho : o ∈ g.claims (.ofRecoverer c returned)) :
    o = o' := by
  cases returned with
  | false => simp [Move.ofRecoverer, Topic.claims] at ho
  | true =>
    simp only [Move.ofRecoverer, if_true, Topic.claims, hduty, hnext, Option.toList_some,
      List.mem_singleton] at ho
    exact ho

/-! ## Records -/

/-- A record stays at its offset. -/
theorem record_of_grown (h : ∀ p, g.log p <+: g'.log p) {o : ℕ × ℕ} {m : M}
    (hm : g.record o = some m) : g'.record o = some m := by
  obtain ⟨rest, hrest⟩ := h o.1
  have hlt : o.2 < (g.log o.1).length := (List.getElem?_eq_some_iff.mp hm).1
  rw [Topic.record, ← hrest, List.getElem?_append_left hlt]
  exact hm

/-- A polled offset has its record. -/
theorem exists_record {batch : List Segment}
    (hpolled : ∀ seg ∈ batch, seg.next ≤ (g.log seg.partition).length) {o : ℕ × ℕ}
    (ho : o ∈ offsets batch) : ∃ m, g.record o = some m := by
  obtain ⟨seg, hseg, hpart, -, hlt⟩ := mem_offsets.mp ho
  have hle := hpolled seg hseg
  rw [hpart] at hle
  exact ⟨_, List.getElem?_eq_getElem (Nat.lt_of_lt_of_le hlt hle)⟩

/-- The records of a polled batch stay the same. -/
theorem records_of_grown (h : ∀ p, g.log p <+: g'.log p) {batch : List Segment}
    (hpolled : ∀ seg ∈ batch, seg.next ≤ (g.log seg.partition).length) :
    g'.records batch = g.records batch := by
  refine List.filterMap_congr fun o ho => ?_
  obtain ⟨m, hm⟩ := exists_record hpolled ho
  rw [hm]
  exact record_of_grown h hm

theorem mem_log_of_record {o : ℕ × ℕ} {m : M} (h : g.record o = some m) : m ∈ g.log o.1 :=
  List.mem_of_getElem? h

end Hmdp.Lib.ConsumerGroup
