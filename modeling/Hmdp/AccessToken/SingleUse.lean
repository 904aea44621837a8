import Hmdp.Lib.Machine
import Hmdp.Lib.OneTime
import Hmdp.Model.AccessToken

/-!
# Access tokens are single use

Any interleaving of token issues, reservations, explicit consumptions, cancellations and the
passage of time, with access tokens enabled and candidates that never repeat. The keys of the
tokens are a desk of one-time tokens with one key for each voucher and user (`desk_step`), so
`single_use` is what a sound desk promises, next to the refusals of `seckill.lua`.
-/

namespace Hmdp.AccessToken

open Hmdp.Lib Hmdp.Model

/-- What the machine keeps: Redis, and the histories the property speaks of. -/
structure State where
  store : TokenRedis
  /-- the candidates drawn so far -/
  candidates : List Text
  /-- ghost: the candidates stored under a key -/
  issued : List (Issue (VoucherId × UserId) Text)
  /-- ghost: a `seckill.lua` that returned 0, or a `validateAndConsume` that returned true -/
  used : List (Use (VoucherId × UserId) Text)

/-- The atomic steps. Between two of them every other JVM may take its own. -/
inductive Action where
  | issueAccessToken (v : VoucherId) (u : UserId) (candidate : Text)
  | seckill (c : SeckillCall)
  | validateAndConsume (v : VoucherId) (u : UserId) (token : Text)
  | cancel (v : VoucherId) (u : UserId)
  | cancelRollback (v : VoucherId) (u : UserId)
  | elapse (millis : ℕ)

/-- The state with other contents of Redis. -/
def State.setRedis (s : State) (redis : Redis) : State :=
  { s with store := { s.store with redis } }

/-- One `issueAccessToken`: the store it leaves, and the candidate on record if it was stored. -/
def State.issue (isBlank : Text → Bool) (ttlSeconds : Long) (v : VoucherId) (u : UserId)
    (candidate : Text) (s : State) : State :=
  let store := (Model.issueAccessToken isBlank ttlSeconds v u candidate s.store).2
  { s with
    store
    candidates := candidate :: s.candidates
    issued :=
      if s.store.redis.accessToken v u = none ∧ store.redis.accessToken v u = some candidate then
        ⟨candidate, (v, u), s.store.now, store.expireAt v u⟩ :: s.issued
      else s.issued }

/-- A use is noted if the call succeeded. -/
def State.note (success : Bool) (v : VoucherId) (u : UserId) (token : Text) (s : State) : State :=
  if success then { s with used := ⟨token, (v, u), s.store.now⟩ :: s.used } else s

/-- One step; `none` where it is not possible (a candidate drawn twice, a call with the check
off). -/
def step (isBlank : Text → Bool) (ttlSeconds : Long) (s : State) : Action → Option State
  | .issueAccessToken v u candidate =>
    if candidate ∈ s.candidates then none else some (s.issue isBlank ttlSeconds v u candidate)
  | .seckill c =>
    if c.accessTokenEnabled then
      let r := seckillLua c s.store.redis
      some ((s.setRedis r.2).note (decide (r.1 = 0)) c.voucherId c.userId c.accessToken)
    else none
  | .validateAndConsume v u token =>
    let r := Model.validateAndConsume isBlank v u token s.store.redis
    some ((s.setRedis r.2).note r.1 v u token)
  | .cancel v u => some (s.setRedis (cancelLua v u s.store.redis).2)
  | .cancelRollback v u => some (s.setRedis (cancelRollbackLua v u s.store.redis).2)
  | .elapse millis => some { s with store := s.store.elapse (s.store.now + millis) }

/-- Any contents of Redis, without access tokens. -/
def State.start (redis : Redis) (now : Time) : State where
  store := ⟨{ redis with accessToken := fun _ _ => none }, fun _ _ => now, now⟩
  candidates := []
  issued := []
  used := []

/-- The access tokens as a desk. -/
def State.desk (s : State) : OneTime (VoucherId × UserId) Text where
  now := s.store.now
  slot := fun k => (s.store.redis.accessToken k.1 k.2).map fun token =>
    ⟨token, s.store.expireAt k.1 k.2⟩
  issued := s.issued
  used := s.used

/-- Only drawn candidates are issued. -/
def Drawn (s : State) : Prop := ∀ i ∈ s.issued, i.token ∈ s.candidates

variable {isBlank : Text → Bool} {ttlSeconds : Long} {s t : State} {a : Action}

/-! ## Steps -/

theorem slot_update (s : State) (v : VoucherId) (u : UserId) (token : Option Text)
    (expireAt : Time) :
    (fun k : VoucherId × UserId =>
      (Function.update s.store.redis.accessToken v
          (Function.update (s.store.redis.accessToken v) u token) k.1 k.2).map fun token =>
        (⟨token, Function.update s.store.expireAt v
          (Function.update (s.store.expireAt v) u expireAt) k.1 k.2⟩ : Slot Text)) =
      Function.update s.desk.slot (v, u) (token.map fun token => ⟨token, expireAt⟩) := by
  funext ⟨w, x⟩
  by_cases hw : w = v
  · subst hw
    by_cases hx : x = u
    · subst hx
      simp
    · have hne : (w, x) ≠ (w, u) := fun h => hx (Prod.mk.inj h).2
      simp [hx, hne, State.desk]
  · have hne : (w, x) ≠ (v, u) := fun h => hw (Prod.mk.inj h).1
    simp [hw, hne, State.desk]

/-- The key of a token is deleted, and the use is noted. -/
theorem desk_use {v : VoucherId} {u : UserId} {token : Text} {redis : Redis}
    (hheld : s.store.redis.accessToken v u = some token)
    (hredis : redis.accessToken = Function.update s.store.redis.accessToken v
      (Function.update (s.store.redis.accessToken v) u none)) :
    OneTime.Move s.desk ((s.setRedis redis).note true v u token).desk := by
  have hslot : s.desk.slot (v, u) = some ⟨token, s.store.expireAt v u⟩ := by
    simp [State.desk, hheld]
  have hmove := OneTime.Move.use hslot
  have hself : Function.update s.store.expireAt v
      (Function.update (s.store.expireAt v) u (s.store.expireAt v u)) = s.store.expireAt := by
    simp
  have hupdate := slot_update s v u none (s.store.expireAt v u)
  rw [hself, Option.map_none, ← hredis] at hupdate
  rw [← hupdate] at hmove
  exact hmove

theorem slot_elapse (s : State) (now : Time) :
    (fun k : VoucherId × UserId =>
      ((s.store.elapse now).redis.accessToken k.1 k.2).map fun token =>
        (⟨token, (s.store.elapse now).expireAt k.1 k.2⟩ : Slot Text)) =
      fun k => OneTime.left now (s.desk.slot k) := by
  funext k
  simp only [TokenRedis.elapse, State.desk, OneTime.left]
  cases s.store.redis.accessToken k.1 k.2 with
  | none => rfl
  | some token => simp only [Option.filter_some, Option.map_some]; split <;> rfl

/-- The issue of a candidate that was never drawn before. -/
theorem desk_issue {v : VoucherId} {u : UserId} {candidate : Text} (hd : Drawn s)
    (hfresh : candidate ∉ s.candidates) :
    OneTime.Move s.desk (s.issue isBlank ttlSeconds v u candidate).desk := by
  have hissued : candidate ∉ s.desk.issued.map Issue.token := by
    intro hmem
    obtain ⟨i, hi, rfl⟩ := List.mem_map.mp hmem
    exact hfresh (hd i hi)
  unfold State.issue Model.issueAccessToken
  rcases accessTokenIssueLua_cases v u candidate (max 1 ttlSeconds * 1000) s.store with
    ⟨reply, h, -⟩ | ⟨hfree, httl, h⟩
  · simp only [h]
    rw [if_neg (by rintro ⟨hfree, hstored⟩; cases hfree.symm.trans hstored)]
    exact OneTime.Move.idle s.desk
  · simp only [h, hfree, Function.update_self, and_self, if_true]
    have hslot : s.desk.slot (v, u) = none := by simp [State.desk, hfree]
    have hlater : s.desk.now < s.store.now + (max 1 ttlSeconds * 1000).toInt :=
      Int.lt_add_of_pos_right _ (Int64.lt_iff_toInt_lt.mp httl)
    have hmove := OneTime.Move.issue hslot hissued hlater
    rw [← Option.map_some (f := fun token : Text => (⟨token, _⟩ : Slot Text)),
      ← slot_update s v u (some candidate)] at hmove
    exact hmove

/-- **A step is a move of the desk.** -/
theorem desk_step (hd : Drawn s) (hstep : step isBlank ttlSeconds s a = some t) :
    OneTime.Move s.desk t.desk := by
  cases a with
  | issueAccessToken v u candidate =>
    simp only [step] at hstep
    split at hstep <;> cases hstep
    rename_i hfresh
    exact desk_issue hd hfresh
  | seckill c =>
    simp only [step] at hstep
    split at hstep <;> cases hstep
    rename_i henabled
    rcases seckillLua_cases c s.store.redis with ⟨hcode, hsame⟩ | ⟨hcode, n, -, -, -, -, hres⟩
    · rw [hsame, decide_eq_false hcode]
      exact OneTime.Move.idle s.desk
    · rw [hres, decide_eq_true hcode]
      refine desk_use (seckillLua_accessToken henabled hcode) ?_
      simp only [Redis.reserve, henabled, if_true]
  | validateAndConsume v u token =>
    cases hstep
    rcases validateAndConsume_cases isBlank v u token s.store.redis with h | ⟨hheld, h⟩
    · rw [h]
      exact OneTime.Move.idle s.desk
    · rw [h]
      exact desk_use hheld rfl
  | cancel v u =>
    cases hstep
    rcases cancelLua_cases v u s.store.redis with ⟨-, h⟩ | ⟨n, -, -, h⟩
    · rw [h]
      exact OneTime.Move.idle s.desk
    · rw [h]
      exact OneTime.Move.idle s.desk
  | cancelRollback v u =>
    cases hstep
    rcases cancelRollbackLua_cases v u s.store.redis with ⟨-, h⟩ | ⟨n, -, -, h⟩
    · rw [h]
      exact OneTime.Move.idle s.desk
    · rw [h]
      exact OneTime.Move.idle s.desk
  | elapse millis =>
    cases hstep
    have hforward : s.desk.now ≤ s.store.now + millis :=
      Int.le_add_of_nonneg_right (Int.natCast_nonneg millis)
    have hmove := OneTime.Move.elapse hforward
    rw [← slot_elapse] at hmove
    exact hmove

theorem drawn_step (hd : Drawn s) (hstep : step isBlank ttlSeconds s a = some t) : Drawn t := by
  cases a with
  | issueAccessToken v u candidate =>
    simp only [step] at hstep
    split at hstep <;> cases hstep
    intro i hi
    simp only [State.issue] at hi
    split at hi
    · rcases List.mem_cons.mp hi with rfl | hold
      · exact List.mem_cons_self
      · exact List.mem_cons_of_mem _ (hd i hold)
    · exact List.mem_cons_of_mem _ (hd i hi)
  | seckill c =>
    simp only [step] at hstep
    split at hstep <;> cases hstep
    unfold State.note
    split <;> exact hd
  | validateAndConsume v u token =>
    cases hstep
    unfold State.note
    split <;> exact hd
  | cancel v u => cases hstep; exact hd
  | cancelRollback v u => cases hstep; exact hd
  | elapse millis => cases hstep; exact hd

/-! ## Runs -/

/-- **Access tokens are single use and a refused attempt costs nothing.** In every state of every
run no token has been used twice, each use was for the voucher and the user of the token's only
issue and while it was unexpired, at most one token of a voucher and a user is neither used nor
expired, which is the one its key holds, and a `seckill.lua` that does not return 0 changes
nothing. -/
theorem single_use {redis : Redis} {now : Time} {as : List Action}
    (hrun : run (step isBlank ttlSeconds) (.start redis now) as = some t) :
    (t.used.map Use.token).Nodup ∧
      (∀ u ∈ t.used, (∃ i ∈ t.issued, i.token = u.token) ∧
        ∀ i ∈ t.issued, i.token = u.token → OneTime.Use.Matches u i) ∧
      (∀ i j, OneTime.Live t.desk i → OneTime.Live t.desk j → i.key = j.key → i = j) ∧
      (∀ v u token, t.store.redis.accessToken v u = some token ↔
        ∃ i, OneTime.Live t.desk i ∧ i.key = (v, u) ∧ i.token = token) ∧
      ∀ c, (seckillLua c t.store.redis).1 ≠ 0 → (seckillLua c t.store.redis).2 = t.store.redis := by
  have hpreserves : ∀ ⦃s a t⦄, Drawn s ∧ s.desk.Sound → step isBlank ttlSeconds s a = some t →
      Drawn t ∧ t.desk.Sound := fun s a t ⟨hd, hs⟩ hstep =>
    ⟨drawn_step hd hstep, hs.move (desk_step hd hstep)⟩
  have hstart : Drawn (.start redis now) ∧ (State.start redis now).desk.Sound :=
    ⟨fun i hi => absurd hi List.not_mem_nil, OneTime.Sound.empty now⟩
  obtain ⟨-, hs⟩ := run_invariant' hpreserves hstart hrun
  refine ⟨hs.once, fun u hu => ⟨?_, fun i hi => hs.used_as_issued hu hi⟩,
    fun i j => hs.live_unique, fun v u token => ?_, fun c hcode => ?_⟩
  · obtain ⟨i, hi, hmatch⟩ := hs.matched u hu
    exact ⟨i, hi, hmatch.1⟩
  · have hslot : t.store.redis.accessToken v u = some token ↔
        t.desk.slot (v, u) = some ⟨token, t.store.expireAt v u⟩ := by
      simp [State.desk]
    rw [hslot, hs.slots]
    constructor
    · rintro ⟨i, hi, hkey, htoken, -⟩
      exact ⟨i, hi, hkey, htoken⟩
    · rintro ⟨i, hi, hkey, rfl⟩
      refine ⟨i, hi, hkey, rfl, ?_⟩
      have hheld := (hs.slots (v, u) ⟨i.token, i.expiresAt⟩).mpr ⟨i, hi, hkey, rfl, rfl⟩
      simp only [State.desk, Option.map_eq_some_iff] at hheld
      obtain ⟨_, -, heq⟩ := hheld
      exact (congrArg Slot.expiresAt heq).symm
  · rcases seckillLua_cases c t.store.redis with ⟨-, hsame⟩ | ⟨hzero, -⟩
    · exact hsame
    · exact absurd hzero hcode

/-- A token is issued twice, used, and offered again. -/
theorem single_use_again :
    ∃ t : State, t.used.length = 1 ∧ (t.used.map Use.token).Nodup := by
  obtain ⟨t, ht, hused⟩ := Option.map_eq_some_iff.mp
    (show (run (step (fun _ => false) 60) (.start Redis.empty 0)
      [.issueAccessToken 1 7 ['a'], .issueAccessToken 1 7 ['b'], .elapse 10,
        .validateAndConsume 1 7 ['a'], .validateAndConsume 1 7 ['a']]).map (·.used.length) =
      some 1 by decide +kernel)
  exact ⟨t, hused, (single_use ht).1⟩

end Hmdp.AccessToken
