import Hmdp.Lib.InFlight
import Hmdp.Lib.Machine
import Hmdp.Model.Social

/-!
# Likes and follows agree with their records

Any number of requests of any users are in `likeBlog` and `follow` beside each other; one step is
one statement of one of them, and none fails.

What a like has added to `tb_blog.liked` and not yet to the sorted set is in flight, so the count
is ahead of the set by what is in flight (`Balanced`), as long as each `ZADD` adds a member and each
`ZREM` removes one. Two requests of one user that have read the same score break this. The row of
a follow is the last statement's, the set the last Redis command's: they agree once nobody is
between the two (`Settled`), as long as the last Redis command is of the last statement's kind.

* **`settled_iff`**: for follows, the exact condition.
* **`social_agrees`**: with nobody in flight, the counts and sets agree with their records.
-/

namespace Hmdp.Social

open Hmdp.Lib Hmdp.Model

/-! ## The requests -/

/-- A request, as it arrives. -/
inductive Request where
  | likeBlog (userId : UserId) (id : BlogId)
  | follow (userId followUserId : UserId) (isFollow : Bool)

/-- A request and where it stands. -/
inductive Call where
  | likeBlog (userId : UserId) (id : BlogId) (phase : LikePhase)
  | follow (userId followUserId : UserId) (isFollow : Bool) (phase : FollowPhase)
  deriving DecidableEq

/-- The call it begins. -/
def Request.begin : Request → Call
  | .likeBlog userId id => .likeBlog userId id .score
  | .follow userId followUserId isFollow => .follow userId followUserId isFollow .database

/-- The next statement, or the return. -/
def Call.next (store : SocialStore) (now : ℤ) : Call → Option (SocialStore × Option Call)
  | .likeBlog _ _ .returning => some (store, none)
  | .likeBlog userId id phase =>
    (store.likeBlog userId id now phase).map fun r => (r.1, some (.likeBlog userId id r.2))
  | .follow _ _ _ .returning => some (store, none)
  | .follow userId followUserId isFollow phase =>
    (store.follow userId followUserId isFollow phase).map fun r =>
      (r.1, some (.follow userId followUserId isFollow r.2))

/-- The store and the calls under way. -/
structure State (Thread : Type) where
  store : SocialStore
  calls : Thread → Option Call

/-- A request arrives, or a call takes its next statement. -/
inductive Action (Thread : Type) where
  | start (th : Thread) (request : Request)
  | next (th : Thread) (now : ℤ)

variable {Thread : Type} [DecidableEq Thread]

/-- No call is under way. -/
def State.init (store : SocialStore) : State Thread := ⟨store, fun _ => none⟩

/-- One step; `none` where the thread is not free, or has no call. -/
def step (s : State Thread) : Action Thread → Option (State Thread)
  | .start th request =>
    if (s.calls th).isNone then
      some { s with calls := Function.update s.calls th (some request.begin) }
    else none
  | .next th now =>
    (s.calls th).bind fun call =>
      (call.next s.store now).map fun r => ⟨r.1, Function.update s.calls th r.2⟩

/-! ## Likes -/

/-- The size of `blog:liked:<id>`. -/
def likes (store : SocialStore) (blog : BlogId) : ℤ := (store.likedBy blog).members.length

/-- What a call has added to `liked` and not to the set. -/
def owed (blog : BlogId) : Option Call → ℤ
  | some (.likeBlog _ id (.zset like)) => if id = blog then (if like then 1 else -1) else 0
  | _ => 0

/-- The count is ahead of the set by what is in flight, beside what it was ahead at first. -/
def Balanced (blog : BlogId) (ahead : ℤ) (s : State Thread) : Prop :=
  ∃ liked, s.store.liked blog = some liked ∧
    InFlight (owed blog) s.calls ((liked : ℤ) - likes s.store blog - ahead)

/-- A `ZADD` finds the user not in the set, a `ZREM` finds him there: as its `ZSCORE` did. -/
def ScoreHolds (blog : BlogId) (store : SocialStore) : Call → Prop
  | .likeBlog userId id (.zset like) =>
    id = blog → (like = true ↔ userId.toText ∉ (store.likedBy blog).members)
  | _ => True

instance (blog : BlogId) (store : SocialStore) (call : Call) :
    Decidable (ScoreHolds blog store call) := by
  unfold ScoreHolds
  split <;> infer_instance

/-- **The condition on a step**, for a blog. -/
def LikeHolds (blog : BlogId) (s : State Thread) : Action Thread → Prop
  | .start _ _ => True
  | .next th _ => ∀ call ∈ s.calls th, ScoreHolds blog s.store call

instance (blog : BlogId) (s : State Thread) (a : Action Thread) :
    Decidable (LikeHolds blog s a) := by
  cases a <;> unfold LikeHolds <;> infer_instance

section Like

variable {blog : BlogId} {store store' : SocialStore} {now : ℤ} {call : Call}
  {call' : Option Call} {liked : ℕ}

/-- The blog after a `ZADD` or a `ZREM`. -/
theorem likes_zset {userId : UserId} {like : Bool}
    (h : like = true ↔ userId.toText ∉ (store.likedBy blog).members)
    {phase : LikePhase}
    (hq : store.likeBlog userId blog now (.zset like) = some (store', phase)) :
    likes store' blog = likes store blog + if like then 1 else -1 := by
  cases hq
  cases like with
  | true =>
    have hlength := ZSet.length_zadd (h.mp rfl) now
    simp only [likes, SocialStore.setLikedBy, Function.update_self, if_true]
    omega
  | false =>
    have hmem : userId.toText ∈ (store.likedBy blog).members := by
      by_contra hnot
      cases h.mpr hnot
    have hlength := ZSet.length_zrem hmem
    simp only [likes, SocialStore.setLikedBy, Function.update_self, Bool.false_eq_true, if_false]
    omega

/-- A statement of a `likeBlog` of another blog. -/
theorem likeBlog_other {userId : UserId} {id : BlogId} {phase phase' : LikePhase}
    (h : store.likeBlog userId id now phase = some (store', phase')) (hne : blog ≠ id) :
    store'.liked blog = store.liked blog ∧ likes store' blog = likes store blog := by
  cases phase with
  | score =>
    cases h
    exact ⟨rfl, rfl⟩
  | setSql like =>
    simp only [SocialStore.likeBlog] at h
    split at h
    · cases h
      exact ⟨rfl, rfl⟩
    · obtain ⟨n, -, h⟩ := Option.map_eq_some_iff.mp h
      cases h
      exact ⟨Function.update_of_ne hne _ _, rfl⟩
  | zset like =>
    cases h
    simp [likes, SocialStore.setLikedBy, hne]
  | returning => cases h

/-- `follow` leaves the blogs. -/
theorem follow_blogs {userId followUserId : UserId} {isFollow : Bool} {phase phase' : FollowPhase}
    (h : store.follow userId followUserId isFollow phase = some (store', phase')) :
    store'.liked = store.liked ∧ store'.likedBy = store.likedBy := by
  cases phase with
  | database =>
    simp only [SocialStore.follow] at h
    split at h
    · cases h
      exact ⟨rfl, rfl⟩
    · split at h <;> cases h <;> exact ⟨rfl, rfl⟩
  | set =>
    cases h
    exact ⟨rfl, rfl⟩
  | returning => cases h

/-- **A statement, or the return**: the count changes by what the call owes the set, and the set by
what it was owed. -/
theorem next_owed (hscore : ScoreHolds blog store call) (hliked : store.liked blog = some liked)
    (h : call.next store now = some (store', call')) :
    ∃ liked', store'.liked blog = some liked' ∧
      (liked' : ℤ) - likes store' blog - owed blog call' =
        liked - likes store blog - owed blog (some call) := by
  cases call with
  | follow userId followUserId isFollow phase =>
    cases phase with
    | database =>
      obtain ⟨⟨after, phase'⟩, hq, h⟩ := Option.map_eq_some_iff.mp h
      cases h
      obtain ⟨hblogs, hsets⟩ := follow_blogs hq
      refine ⟨liked, (congrFun hblogs blog).trans hliked, ?_⟩
      simp only [likes, hsets, owed]
    | _ =>
      cases h
      exact ⟨liked, hliked, rfl⟩
  | likeBlog userId id phase =>
    cases phase with
    | returning =>
      cases h
      exact ⟨liked, hliked, rfl⟩
    | score =>
      cases h
      exact ⟨liked, hliked, rfl⟩
    | setSql like =>
      obtain ⟨⟨after, phase'⟩, hq, h⟩ := Option.map_eq_some_iff.mp h
      cases h
      by_cases hid : id = blog
      · subst hid
        simp only [SocialStore.likeBlog, hliked] at hq
        obtain ⟨n, hn, hq⟩ := Option.map_eq_some_iff.mp hq
        cases hq
        refine ⟨n, Function.update_self _ _ _, ?_⟩
        simp only [setLiked] at hn
        simp only [owed, if_true, likes]
        cases like with
        | true =>
          simp only [if_true] at hn ⊢
          split at hn <;> cases hn
          omega
        | false =>
          simp only [Bool.false_eq_true, if_false] at hn ⊢
          split at hn <;> cases hn
          omega
      · obtain ⟨hcount, hsize⟩ := likeBlog_other hq (Ne.symm hid)
        refine ⟨liked, hcount.trans hliked, ?_⟩
        have howed : owed blog (some (.likeBlog userId id phase')) = 0 := by
          cases phase' <;> simp [owed, hid]
        rw [hsize, howed]
        rfl
    | zset like =>
      cases h
      by_cases hid : id = blog
      · subst hid
        have hsize := likes_zset (hscore rfl) (store.likeBlog_zset userId id now like)
        refine ⟨liked, hliked, ?_⟩
        rw [hsize]
        simp only [owed, if_true]
        omega
      · have hother := likeBlog_other (store.likeBlog_zset userId id now like) (Ne.symm hid)
        refine ⟨liked, hother.1.trans hliked, ?_⟩
        rw [hother.2]
        simp only [owed, if_neg hid]

end Like

/-- **The step lemma for likes.** -/
theorem balanced_step {blog : BlogId} {ahead : ℤ} {s t : State Thread} {a : Action Thread}
    (ha : LikeHolds blog s a) (hs : Balanced blog ahead s) (hstep : step s a = some t) :
    Balanced blog ahead t := by
  obtain ⟨liked, hliked, hflight⟩ := hs
  cases a with
  | start th request =>
    simp only [step] at hstep
    split at hstep
    · rename_i hfree
      cases hstep
      refine ⟨liked, hliked, hflight.update_same ?_⟩
      rw [Option.isNone_iff_eq_none.mp hfree]
      cases request <;> rfl
    · cases hstep
  | next th now =>
    obtain ⟨call, hcall, hstep⟩ := Option.bind_eq_some_iff.mp hstep
    obtain ⟨⟨store', call'⟩, hnext, hstep⟩ := Option.map_eq_some_iff.mp hstep
    cases hstep
    obtain ⟨liked', hliked', hbalance⟩ := next_owed (ha call hcall) hliked hnext
    refine ⟨liked', hliked', ?_⟩
    have hmoved := hflight.update th call'
    rw [hcall] at hmoved
    convert hmoved using 1
    show (liked' : ℤ) - likes store' blog - ahead = _
    omega

omit [DecidableEq Thread] in
theorem balanced_init {blog : BlogId} {store : SocialStore} {liked : ℕ}
    (hliked : store.liked blog = some liked) :
    Balanced blog (liked - likes store blog) (State.init store : State Thread) := by
  refine ⟨liked, hliked, ?_⟩
  have h : InFlight (owed blog) (State.init store : State Thread).calls 0 :=
    InFlight.of_forall fun _ => rfl
  rwa [← sub_self ((liked : ℤ) - likes store blog)] at h

/-! ## Follows -/

/-- `followUserId` is in `follows:<userId>` exactly if `tb_follow` has the row. -/
def Agrees (userId followUserId : UserId) (store : SocialStore) : Prop :=
  followUserId ∈ store.followed userId ↔ (userId, followUserId) ∈ store.follows

instance (userId followUserId : UserId) (store : SocialStore) :
    Decidable (Agrees userId followUserId store) := by
  unfold Agrees
  infer_instance

/-- The call has changed the row and not yet the set. -/
def between (userId followUserId : UserId) : Option Call → Bool
  | some (.follow userId' followUserId' _ .set) =>
    decide (userId' = userId ∧ followUserId' = followUserId)
  | _ => false

/-- Set and row agree while nobody is between the two. -/
def Settled (userId followUserId : UserId) (s : State Thread) : Prop :=
  (∀ th, between userId followUserId (s.calls th) = false) → Agrees userId followUserId s.store

/-- **The condition on a step**, for a user and a user he follows: when the last call between row
and set comes to its `SADD` the row is there, to its `SREM`, it is not. -/
def FollowHolds (userId followUserId : UserId) (s : State Thread) : Action Thread → Prop
  | .start _ _ => True
  | .next th _ => ∀ isFollow, s.calls th = some (.follow userId followUserId isFollow .set) →
      (∀ other, other ≠ th → between userId followUserId (s.calls other) = false) →
        (isFollow = true ↔ (userId, followUserId) ∈ s.store.follows)

section Follow

variable {userId followUserId : UserId} {store store' : SocialStore} {now : ℤ} {call : Call}
  {call' : Option Call}

/-- `likeBlog` leaves the follows. -/
theorem likeBlog_follows {user : UserId} {id : BlogId} {phase phase' : LikePhase}
    (h : store.likeBlog user id now phase = some (store', phase')) :
    store'.follows = store.follows ∧ store'.followed = store.followed := by
  cases phase with
  | setSql like =>
    simp only [SocialStore.likeBlog] at h
    split at h
    · cases h
      exact ⟨rfl, rfl⟩
    · obtain ⟨n, -, h⟩ := Option.map_eq_some_iff.mp h
      cases h
      exact ⟨rfl, rfl⟩
  | _ =>
    cases h
    try exact ⟨rfl, rfl⟩

/-- `save` or `remove` of another row. -/
theorem database_other {user followed : UserId} {isFollow : Bool} {phase : FollowPhase}
    (h : store.follow user followed isFollow .database = some (store', phase))
    (hne : (userId, followUserId) ≠ (user, followed)) :
    Agrees userId followUserId store' ↔ Agrees userId followUserId store := by
  simp only [SocialStore.follow] at h
  split at h
  · cases h
    simp only [Agrees, List.mem_append, List.mem_singleton, hne, or_false]
  · split at h <;> cases h
    · simp only [Agrees, List.mem_filter, hne, ne_eq, not_false_eq_true, decide_true, and_true]
    · rfl

/-- `add` or `remove` of another member. -/
theorem set_other {user followed : UserId} {isFollow : Bool} {phase : FollowPhase}
    (h : store.follow user followed isFollow .set = some (store', phase))
    (hne : ¬ (user = userId ∧ followed = followUserId)) :
    Agrees userId followUserId store' ↔ Agrees userId followUserId store := by
  cases h
  by_cases huser : userId = user
  · subst huser
    have hfollowed : followUserId ≠ followed := fun he => hne ⟨rfl, he.symm⟩
    cases isFollow <;> simp [Agrees, SocialStore.setFollowed, hfollowed]
  · simp [Agrees, SocialStore.setFollowed, huser]

/-- **A statement of a call that is not between row and set, before it or after it.** -/
theorem next_agrees (hbefore : between userId followUserId (some call) = false)
    (hafter : between userId followUserId call' = false)
    (h : call.next store now = some (store', call')) :
    Agrees userId followUserId store' ↔ Agrees userId followUserId store := by
  cases call with
  | likeBlog user id phase =>
    have hsame : store'.follows = store.follows ∧ store'.followed = store.followed := by
      cases phase with
      | setSql like =>
        obtain ⟨⟨after, phase'⟩, hq, h⟩ := Option.map_eq_some_iff.mp h
        cases h
        exact likeBlog_follows hq
      | _ =>
        cases h
        exact ⟨rfl, rfl⟩
    rw [Agrees, Agrees, hsame.1, hsame.2]
  | follow user followed isFollow phase =>
    cases phase with
    | database =>
      obtain ⟨⟨after, phase'⟩, hq, h⟩ := Option.map_eq_some_iff.mp h
      cases h
      by_cases hpair : (userId, followUserId) = (user, followed)
      · -- a `remove` that has removed nothing
        cases hpair
        simp only [SocialStore.follow] at hq
        split at hq
        · cases hq
          simp [between] at hafter
        · split at hq <;> cases hq
          · simp [between] at hafter
          · rfl
      · exact database_other hq hpair
    | set =>
      cases h
      exact set_other (store.follow_set user followed isFollow) (by simpa [between] using hbefore)
    | returning =>
      cases h
      rfl

/-- The `SADD` or `SREM` of the pair itself. -/
theorem agrees_set {isFollow : Bool} {phase : FollowPhase}
    (h : store.follow userId followUserId isFollow .set = some (store', phase)) :
    Agrees userId followUserId store' ↔
      (isFollow = true ↔ (userId, followUserId) ∈ store.follows) := by
  cases h
  cases isFollow <;> simp [Agrees, SocialStore.setFollowed]

end Follow

section Settle

variable {userId followUserId : UserId} {s t : State Thread} {th : Thread} {now : ℤ} {call : Call}
  {store' : SocialStore} {call' : Option Call}

/-- Nobody is between row and set once one call has moved on. -/
theorem between_update {calls : Thread → Option Call} :
    (∀ other, between userId followUserId (Function.update calls th call' other) = false) ↔
      between userId followUserId call' = false ∧
        ∀ other, other ≠ th → between userId followUserId (calls other) = false :=
  Function.forall_update_iff calls fun _ call => between userId followUserId call = false

omit [DecidableEq Thread] in
theorem between_of_not_set (h : ¬ ∃ isFollow, call = .follow userId followUserId isFollow .set) :
    between userId followUserId (some call) = false := by
  rcases call with _ | ⟨user, followed, isFollow, _ | _ | _⟩
  · rfl
  · rfl
  · by_contra htrue
    obtain ⟨rfl, rfl⟩ : user = userId ∧ followed = followUserId := by
      simpa [between] using htrue
    exact h ⟨isFollow, rfl⟩
  · rfl

/-- A step of a call that is not between row and set. -/
theorem settled_other (hs : Settled userId followUserId s) (hcall : s.calls th = some call)
    (hbefore : between userId followUserId (some call) = false)
    (hnext : call.next s.store now = some (store', call')) :
    Settled userId followUserId ⟨store', Function.update s.calls th call'⟩ := by
  intro hall
  obtain ⟨hafter, hothers⟩ := between_update.mp hall
  refine (next_agrees hbefore hafter hnext).mpr (hs fun other => ?_)
  by_cases hother : other = th
  · rw [hother, hcall]
    exact hbefore
  · exact hothers other hother

/-- The `SADD` or `SREM` of the pair. -/
theorem settled_set {isFollow : Bool}
    (hnext : (Call.follow userId followUserId isFollow .set).next s.store now =
      some (store', call')) :
    Settled userId followUserId ⟨store', Function.update s.calls th call'⟩ ↔
      ((∀ other, other ≠ th → between userId followUserId (s.calls other) = false) →
        (isFollow = true ↔ (userId, followUserId) ∈ s.store.follows)) := by
  cases hnext
  rw [← agrees_set (s.store.follow_set userId followUserId isFollow)]
  exact imp_congr (between_update.trans (and_iff_right rfl)) Iff.rfl

/-- **The step lemma for follows**: a step keeps the pair settled exactly if it meets the
condition. -/
theorem settled_step {a : Action Thread} (hs : Settled userId followUserId s)
    (hstep : step s a = some t) :
    Settled userId followUserId t ↔ FollowHolds userId followUserId s a := by
  cases a with
  | start th request =>
    simp only [step] at hstep
    split at hstep
    · rename_i hfree
      cases hstep
      refine iff_of_true (fun hall => hs fun other => ?_) trivial
      by_cases hother : other = th
      · rw [hother, Option.isNone_iff_eq_none.mp hfree]
        rfl
      · exact (between_update.mp hall).2 other hother
    · cases hstep
  | next th now =>
    obtain ⟨call, hcall, hstep⟩ := Option.bind_eq_some_iff.mp hstep
    obtain ⟨⟨store', call'⟩, hnext, hstep⟩ := Option.map_eq_some_iff.mp hstep
    cases hstep
    by_cases hset : ∃ isFollow, call = .follow userId followUserId isFollow .set
    · obtain ⟨isFollow, rfl⟩ := hset
      refine (settled_set hnext).trans ⟨fun h isFollow' hcall' => ?_, fun h => h isFollow hcall⟩
      cases hcall.symm.trans hcall'
      exact h
    · refine iff_of_true (settled_other hs hcall (between_of_not_set hset) hnext)
        fun isFollow h => ?_
      exact absurd ⟨isFollow, Option.some.inj (hcall.symm.trans h)⟩ hset

end Settle

section

variable {userId followUserId : UserId} {store : SocialStore} {t : State Thread}
  {actions : List (Action Thread)}

/-- **The exact condition for follows.** Set and row agree in every state of a run with nobody
between the two exactly if its steps all meet the condition. -/
theorem settled_iff (hinit : Agrees userId followUserId store)
    (hrun : run step (.init store) actions = some t) :
    Along step (FollowHolds userId followUserId) (.init store) actions ↔
      ∀ before u, before <+: actions → run step (.init store) before = some u →
        Settled userId followUserId u :=
  along_iff_invariant (J := fun _ => True) (fun _ _ _ _ _ _ => trivial)
    (fun _ _ _ _ hs hstep => settled_step hs hstep) trivial (fun _ => hinit) hrun

/-- **Likes and follows.** With no call in flight, `liked` less the size of the set is what it was
at first, in every run whose steps on the blog meet their condition; and set and row of a follow
agree if they did at first, in every run whose steps on the pair meet theirs. -/
theorem social_agrees (hrun : run step (.init store) actions = some t)
    (hidle : ∀ th, t.calls th = none) :
    (∀ blog liked, store.liked blog = some liked →
      Along step (LikeHolds blog) (.init store) actions →
        ∃ liked', t.store.liked blog = some liked' ∧
          (liked' : ℤ) - likes t.store blog = liked - likes store blog) ∧
    ∀ userId followUserId, Agrees userId followUserId store →
      Along step (FollowHolds userId followUserId) (.init store) actions →
        Agrees userId followUserId t.store := by
  refine ⟨fun blog liked hliked hholds => ?_, fun userId followUserId hinit hholds => ?_⟩
  · obtain ⟨liked', hliked', hflight⟩ := run_invariant
      (fun _ _ _ ha hs hstep => balanced_step ha hs hstep) hholds (balanced_init hliked) hrun
    refine ⟨liked', hliked', ?_⟩
    have hzero := hflight.eq_zero fun th => by rw [hidle th]; rfl
    omega
  · have hsettled := (settled_iff hinit hrun).mp hholds actions t List.prefix_rfl hrun
    refine hsettled fun th => ?_
    rw [hidle th]
    rfl

end

/-! ## Runs -/

instance (userId followUserId : UserId) (s : State Bool) (a : Action Bool) :
    Decidable (FollowHolds userId followUserId s a) := by
  cases a <;> unfold FollowHolds <;> infer_instance

/-- The blog 1 with three likes that are in no set, and nobody followed. -/
def threeLikes : SocialStore where
  liked id := if id = 1 then some 3 else none
  likedBy _ := .empty
  follows := []
  followed _ := ∅

/-- Two users like the blog beside each other, and one follows the other. -/
def likesAndFollow : List (Action Bool) :=
  [.start true (.likeBlog 7 1), .start false (.likeBlog 8 1), .next true 10, .next false 10,
    .next true 11, .next false 11, .next false 12, .next true 12, .next true 13, .next false 13,
    .start true (.follow 7 8 true), .next true 14, .next true 15, .next true 16]

theorem social_agrees_likesAndFollow :
    ∃ t : State Bool, run step (.init threeLikes) likesAndFollow = some t ∧
      (∃ liked', t.store.liked 1 = some liked' ∧
        (liked' : ℤ) - likes t.store 1 = 3 - likes threeLikes 1) ∧ Agrees 7 8 t.store := by
  obtain ⟨t, hrun, hidle⟩ := Option.map_eq_some_iff.mp
    (show (run step (State.init threeLikes) likesAndFollow).map
      (fun t => decide (∀ th, t.calls th = none)) = some true by decide +kernel)
  obtain ⟨hlikes, hfollows⟩ := social_agrees hrun (of_decide_eq_true hidle)
  exact ⟨t, hrun, hlikes 1 3 rfl (by decide +kernel),
    hfollows 7 8 (by decide +kernel) (by decide +kernel)⟩

/-- Two requests of the user 7 read the score before either has added him. -/
def likedTwice : List (Action Bool) :=
  [.start true (.likeBlog 7 1), .start false (.likeBlog 7 1), .next true 10, .next false 10,
    .next true 11, .next false 11, .next true 12, .next false 12, .next true 13, .next false 13]

/-- The row is removed between its insert and the `SADD`. -/
def followedAndUnfollowed : List (Action Bool) :=
  [.start true (.follow 7 8 true), .next true 10, .start false (.follow 7 8 false), .next false 11,
    .next false 12, .next false 13, .next true 14, .next true 15]

theorem likes_and_follows_disagree :
    (¬ ∀ (store : SocialStore) (actions : List (Action Bool)) (t : State Bool),
      run step (.init store) actions = some t → (∀ th, t.calls th = none) →
        ∀ blog liked, store.liked blog = some liked →
          ∃ liked', t.store.liked blog = some liked' ∧
            (liked' : ℤ) - likes t.store blog = liked - likes store blog) ∧
    ¬ ∀ (store : SocialStore) (actions : List (Action Bool)) (t : State Bool),
      run step (.init store) actions = some t → (∀ th, t.calls th = none) →
        ∀ userId followUserId, Agrees userId followUserId store →
          Agrees userId followUserId t.store := by
  constructor
  · intro h
    obtain ⟨t, hrun, hend⟩ := Option.map_eq_some_iff.mp
      (show (run step (State.init threeLikes) likedTwice).map (fun t =>
        decide ((∀ th, t.calls th = none) ∧ t.store.liked 1 = some 5 ∧ likes t.store 1 = 1)) =
          some true by decide +kernel)
    obtain ⟨hidle, hcount, hsize⟩ := of_decide_eq_true hend
    obtain ⟨liked', hliked', hahead⟩ := h threeLikes likedTwice t hrun hidle 1 3 rfl
    cases hcount.symm.trans hliked'
    rw [hsize] at hahead
    revert hahead
    decide
  · intro h
    obtain ⟨t, hrun, hend⟩ := Option.map_eq_some_iff.mp
      (show (run step (State.init threeLikes) followedAndUnfollowed).map (fun t =>
        decide ((∀ th, t.calls th = none) ∧ ¬ Agrees 7 8 t.store)) = some true by decide +kernel)
    obtain ⟨hidle, hnot⟩ := of_decide_eq_true hend
    exact hnot (h threeLikes followedAndUnfollowed t hrun hidle 7 8 (by decide))

end Hmdp.Social
