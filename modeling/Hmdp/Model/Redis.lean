import Hmdp.Lib.SortedSet
import Hmdp.Model.Codec
import Mathlib.Data.Char
import Mathlib.Data.Finset.Basic

/-!
# Redis: the keys of a seckill and the Lua scripts

A script is one atomic step: a function from the state to its integer reply and the new state.
`none` is an absent key. The member texts of `seckill:order:<v>` are `Long.toString` of the user
ids and the fields of `seckill:order:accepted` that of the order ids, both kept as the ids
themselves; the member of the quarantine sorted set, `handoffKey|member|reason`, is kept as its
three parts, without its score (no code reads either).

Numbers are integers here, without a bound. Lua reads them as doubles, which are exact up to 2^53:
times and stocks are taken to be below that, and a stock is then far from the 64 bits at which
`INCRBY` would fail.

Each script has one lemma that says everything it can do (`seckillLua_cases`,
`handoffComplete_snd`, `handoffQuarantine_cases`, `cancelLua_cases`, `cancelRollbackLua_cases`,
`rebuildLua_cases`, `lockRecovery_cases`); later proofs use these and never unfold a script.
-/

namespace Hmdp.Model

open Hmdp.Lib

/-- The same for a set of ids. -/
instance {p : Long → Prop} [DecidablePred p] (ids : Finset Long) : Decidable (∀ id ∈ ids, p id) :=
  Finset.decidableDforallFinset

/-! ## State -/

/-- The reason `SeckillOrderHandoffRelay.quarantine` is given. -/
inductive QuarantineReason where
  | malformed
  | dataIntegrity
  deriving DecidableEq

/-- A member of `seckill:order:handoff:quarantine`. -/
structure QuarantineEntry where
  voucherId : VoucherId
  member : Text
  reason : QuarantineReason
  deriving DecidableEq

/-- The fields of `seckill:meta:<v>` as `tonumber` reads them. -/
structure ActivityMeta where
  beginTime : Option ℤ
  endTime : Option ℤ
  status : Option ℤ
  deriving DecidableEq

/-- A staging set of the reconciliation: the sentinel and the users written so far. -/
structure Staging where
  sentinel : Bool
  users : Finset UserId

/-- The keys the modelled code reads and writes. -/
structure Redis where
  /-- `seckill:stock:<v>` -/
  stock : VoucherId → Option ℤ
  /-- `seckill:order:<v>` -/
  purchased : VoucherId → Finset UserId
  /-- `seckill:meta:<v>` -/
  activity : VoucherId → ActivityMeta
  /-- `seckill:access:token:{<v>}:<u>` -/
  accessToken : VoucherId → UserId → Option Text
  /-- `seckill:recovery:<v>` -/
  recovery : VoucherId → Option Text
  /-- `seckill:order:handoff:{<v>}` -/
  handoff : VoucherId → ZSet Text
  /-- `seckill:order:accepted` -/
  accepted : OrderId → Option Text
  /-- `seckill:order:handoff:quarantine` -/
  quarantine : Finset QuarantineEntry
  /-- `seckill:order:rebuild:<v>:<token>` -/
  staging : VoucherId → Text → Option Staging

/-- No key exists. -/
def Redis.empty : Redis where
  stock _ := none
  purchased _ := ∅
  activity _ := ⟨none, none, none⟩
  accessToken _ _ := none
  recovery _ := none
  handoff _ := ZSet.empty
  accepted _ := none
  quarantine := ∅
  staging _ _ := none

/-! ## `seckill.lua` -/

/-- The arguments of `seckill.lua`. -/
structure SeckillCall where
  voucherId : VoucherId
  userId : UserId
  orderId : OrderId
  currentTime : ℤ
  accessToken : Text
  accessTokenEnabled : Bool

/-- The order the call asks for. -/
def SeckillCall.reservation (c : SeckillCall) : Reservation :=
  ⟨c.orderId, c.voucherId, c.userId, false⟩

/-- The value of the accepted hash: `userId|voucherId`. -/
def acceptedValue (r : Reservation) : Text := r.userId.toText ++ '|' :: r.voucherId.toText

/-- The writes of `seckill.lua` from 3.14 on, over a stock of `n`. -/
def Redis.reserve (s : Redis) (c : SeckillCall) (n : ℤ) : Redis :=
  { s with
    accessToken :=
      if c.accessTokenEnabled then
        Function.update s.accessToken c.voucherId
          (Function.update (s.accessToken c.voucherId) c.userId none)
      else s.accessToken
    stock := Function.update s.stock c.voucherId (some (n - 1))
    purchased :=
      Function.update s.purchased c.voucherId (insert c.userId (s.purchased c.voucherId))
    handoff :=
      Function.update s.handoff c.voucherId
        ((s.handoff c.voucherId).zadd c.currentTime c.reservation.member)
    accepted := Function.update s.accepted c.orderId (some (acceptedValue c.reservation)) }

/-- `seckill.lua`. -/
def seckillLua (c : SeckillCall) (s : Redis) : ℤ × Redis :=
  if (s.recovery c.voucherId).isSome then (8, s)
  else
    let activity := s.activity c.voucherId
    match activity.beginTime, activity.endTime, activity.status with
    | some beginTime, some endTime, some status =>
      if c.currentTime < beginTime then (4, s)
      else if endTime < c.currentTime then (5, s)
      else if status ≠ 1 then (6, s)
      else
        match s.stock c.voucherId with
        | none => (1, s)
        | some stock =>
          if stock ≤ 0 then (1, s)
          else if c.userId ∈ s.purchased c.voucherId then (2, s)
          else if c.accessTokenEnabled = true ∧
              s.accessToken c.voucherId c.userId ≠ some c.accessToken then (7, s)
          else (0, s.reserve c stock)
    | _, _, _ => (3, s)

/-- **What `seckill.lua` can do**: refuse and change nothing, or reserve. -/
theorem seckillLua_cases (c : SeckillCall) (s : Redis) :
    ((seckillLua c s).1 ≠ 0 ∧ (seckillLua c s).2 = s) ∨
      ((seckillLua c s).1 = 0 ∧ ∃ n, s.stock c.voucherId = some n ∧ 0 < n ∧
        c.userId ∉ s.purchased c.voucherId ∧ s.recovery c.voucherId = none ∧
        (seckillLua c s).2 = s.reserve c n) := by
  unfold seckillLua
  by_cases hrec : (s.recovery c.voucherId).isSome
  · simp [hrec]
  have hnone : s.recovery c.voucherId = none := by simpa using hrec
  simp only [hrec, Bool.false_eq_true, if_false]
  split
  · split
    · exact Or.inl (by simp)
    split
    · exact Or.inl (by simp)
    split
    · exact Or.inl (by simp)
    split
    · exact Or.inl (by simp)
    · rename_i n hn
      split
      · exact Or.inl (by simp)
      split
      · exact Or.inl (by simp)
      split
      · exact Or.inl (by simp)
      · exact Or.inr ⟨rfl, n, hn, by omega, by assumption, hnone, rfl⟩
  · exact Or.inl (by simp)

/-- **When `seckill.lua` answers 0.** -/
theorem seckillLua_eq_zero {c : SeckillCall} {s : Redis} :
    (seckillLua c s).1 = 0 ↔
      s.recovery c.voucherId = none ∧
      (∃ beginTime endTime, s.activity c.voucherId = ⟨some beginTime, some endTime, some 1⟩ ∧
        beginTime ≤ c.currentTime ∧ c.currentTime ≤ endTime) ∧
      (∃ n, s.stock c.voucherId = some n ∧ 0 < n) ∧
      c.userId ∉ s.purchased c.voucherId ∧
      (c.accessTokenEnabled = true →
        s.accessToken c.voucherId c.userId = some c.accessToken) := by
  constructor
  · intro h
    unfold seckillLua at h
    split at h
    · exact absurd h (by simp)
    rename_i hopen
    dsimp only at h
    split at h
    · rename_i beginTime endTime status hbegin hend hstatus
      split at h
      · exact absurd h (by simp)
      rename_i hfrom
      split at h
      · exact absurd h (by simp)
      rename_i hto
      split at h
      · exact absurd h (by simp)
      rename_i hone
      split at h
      · exact absurd h (by simp)
      rename_i n hn
      split at h
      · exact absurd h (by simp)
      rename_i hpos
      split at h
      · exact absurd h (by simp)
      rename_i hfirst
      split at h
      · exact absurd h (by simp)
      rename_i htoken
      have hactivity : s.activity c.voucherId = ⟨some beginTime, some endTime, some 1⟩ := by
        rw [← hbegin, ← hend, ← not_not.mp hone, ← hstatus]
      exact ⟨by simpa using hopen, ⟨beginTime, endTime, hactivity, not_lt.mp hfrom,
        not_lt.mp hto⟩, ⟨n, hn, not_le.mp hpos⟩, hfirst, fun henabled =>
          not_not.mp fun hne => htoken ⟨henabled, hne⟩⟩
    · exact absurd h (by simp)
  · rintro ⟨hopen, ⟨beginTime, endTime, hactivity, hfrom, hto⟩, ⟨n, hn, hpos⟩, hfirst, htoken⟩
    have htoken' : ¬(c.accessTokenEnabled = true ∧
        s.accessToken c.voucherId c.userId ≠ some c.accessToken) :=
      fun h => h.2 (htoken h.1)
    simp [seckillLua, hopen, hactivity, hn, hfirst, not_lt.mpr hfrom, not_lt.mpr hto,
      not_le.mpr hpos, htoken']

theorem Redis.mem_reserve_handoff {s : Redis} {c : SeckillCall} {n : ℤ} {v : VoucherId} {m : Text} :
    m ∈ ((s.reserve c n).handoff v).members ↔
      (v = c.voucherId ∧ m = c.reservation.member) ∨ m ∈ (s.handoff v).members := by
  by_cases hv : v = c.voucherId
  · subst hv
    simp [Redis.reserve]
  · simp [Redis.reserve, hv]

/-! ## The handoff scripts -/

/-- `seckill_handoff_complete.lua`; the arguments are the pairs of a member and an order id. -/
def handoffComplete (v : VoucherId) (arguments : List (Text × OrderId)) (s : Redis) : ℤ × Redis :=
  if arguments = [] then (0, s)
  else
    let removed := (s.handoff v).zrem (arguments.map Prod.fst)
    (removed.1,
      { s with
        handoff := Function.update s.handoff v removed.2
        accepted := fun o => if o ∈ arguments.map Prod.snd then none else s.accepted o })

/-- The new state of the completion, the empty call included. -/
theorem handoffComplete_snd (v : VoucherId) (arguments : List (Text × OrderId)) (s : Redis) :
    (∀ w m, m ∈ ((handoffComplete v arguments s).2.handoff w).members ↔
        m ∈ (s.handoff w).members ∧ (w = v → m ∉ arguments.map Prod.fst)) ∧
      (handoffComplete v arguments s).2 =
        { s with
          handoff := (handoffComplete v arguments s).2.handoff
          accepted := fun o => if o ∈ arguments.map Prod.snd then none else s.accepted o } := by
  unfold handoffComplete
  split
  · rename_i h
    subst h
    simp
  · refine ⟨fun w m => ?_, rfl⟩
    by_cases hw : w = v
    · subst hw
      simp
    · simp [hw]

/-- `seckill_handoff_quarantine.lua`. -/
def handoffQuarantine (v : VoucherId) (member : Text) (reason : QuarantineReason) (s : Redis) :
    ℤ × Redis :=
  let removed := (s.handoff v).zrem [member]
  if removed.1 = 0 then (0, s)
  else
    (1, { s with
      handoff := Function.update s.handoff v removed.2
      quarantine := insert ⟨v, member, reason⟩ s.quarantine })

/-- **What the quarantine can do**: nothing when the member is gone, else move it. -/
theorem handoffQuarantine_cases (v : VoucherId) (member : Text) (reason : QuarantineReason)
    (s : Redis) :
    (member ∉ (s.handoff v).members ∧ (handoffQuarantine v member reason s).2 = s) ∨
      (member ∈ (s.handoff v).members ∧ (handoffQuarantine v member reason s).2 =
        { s with
          handoff := Function.update s.handoff v ((s.handoff v).zrem [member]).2
          quarantine := insert ⟨v, member, reason⟩ s.quarantine }) := by
  unfold handoffQuarantine
  by_cases h : ((s.handoff v).zrem [member]).1 = 0
  · exact Or.inl ⟨(ZSet.zrem_eq_zero.mp h) member List.mem_cons_self, by simp [h]⟩
  · refine Or.inr ⟨?_, by simp [h]⟩
    by_contra hm
    exact h (ZSet.zrem_eq_zero.mpr fun x hx => by rwa [List.mem_singleton.mp hx])

/-! ## The cancellation scripts -/

/-- `seckill_cancel.lua`. -/
def cancelLua (v : VoucherId) (u : UserId) (s : Redis) : ℤ × Redis :=
  match s.stock v with
  | none => (-1, s)
  | some n =>
    (if u ∈ s.purchased v then 1 else 0,
      { s with
        purchased := Function.update s.purchased v ((s.purchased v).erase u)
        stock := Function.update s.stock v (some (n + 1)) })

theorem cancelLua_cases (v : VoucherId) (u : UserId) (s : Redis) :
    (s.stock v = none ∧ cancelLua v u s = (-1, s)) ∨
      ∃ n, s.stock v = some n ∧ 0 ≤ (cancelLua v u s).1 ∧ (cancelLua v u s).2 =
        { s with
          purchased := Function.update s.purchased v ((s.purchased v).erase u)
          stock := Function.update s.stock v (some (n + 1)) } := by
  unfold cancelLua
  cases h : s.stock v with
  | none => exact Or.inl ⟨rfl, rfl⟩
  | some n =>
    refine Or.inr ⟨n, rfl, ?_, rfl⟩
    show (0 : ℤ) ≤ if u ∈ s.purchased v then 1 else 0
    split <;> omega

/-- `seckill_cancel_rollback.lua`. -/
def cancelRollbackLua (v : VoucherId) (u : UserId) (s : Redis) : ℤ × Redis :=
  match s.stock v with
  | none => (-1, s)
  | some n =>
    if n ≤ 0 then (-1, s)
    else
      (1, { s with
        stock := Function.update s.stock v (some (n - 1))
        purchased := Function.update s.purchased v (insert u (s.purchased v)) })

theorem cancelRollbackLua_cases (v : VoucherId) (u : UserId) (s : Redis) :
    ((∀ n, s.stock v = some n → n ≤ 0) ∧ cancelRollbackLua v u s = (-1, s)) ∨
      ∃ n, s.stock v = some n ∧ 0 < n ∧ cancelRollbackLua v u s = (1,
        { s with
          stock := Function.update s.stock v (some (n - 1))
          purchased := Function.update s.purchased v (insert u (s.purchased v)) }) := by
  unfold cancelRollbackLua
  cases h : s.stock v with
  | none => exact Or.inl ⟨fun n hn => absurd hn (by simp), rfl⟩
  | some n =>
    by_cases hn : n ≤ 0
    · exact Or.inl ⟨fun m hm => by cases hm; exact hn, by simp [hn]⟩
    · exact Or.inr ⟨n, rfl, by omega, by simp [hn]⟩

/-! ## The reconciliation scripts -/

/-- What `seckill_rebuild.lua` leaves at `seckill:order:<v>`: the staged users without the
sentinel. -/
def Redis.staged (s : Redis) (v : VoucherId) (token : Text) : Finset UserId :=
  match s.staging v token with
  | none => ∅
  | some staging => staging.users

/-- `seckill_rebuild.lua`; the staging key is that of the token. -/
def rebuildLua (v : VoucherId) (token : Text) (expectedStock : ℤ) (s : Redis) : ℤ × Redis :=
  if s.recovery v ≠ some token then (0, s)
  else
    (1, { s with
      stock := Function.update s.stock v (some expectedStock)
      purchased := Function.update s.purchased v (s.staged v token)
      staging := Function.update s.staging v (Function.update (s.staging v) token none)
      recovery := Function.update s.recovery v none })

theorem rebuildLua_cases (v : VoucherId) (token : Text) (expectedStock : ℤ) (s : Redis) :
    (s.recovery v ≠ some token ∧ rebuildLua v token expectedStock s = (0, s)) ∨
      (s.recovery v = some token ∧ rebuildLua v token expectedStock s = (1,
        { s with
          stock := Function.update s.stock v (some expectedStock)
          purchased := Function.update s.purchased v (s.staged v token)
          staging := Function.update s.staging v (Function.update (s.staging v) token none)
          recovery := Function.update s.recovery v none })) := by
  unfold rebuildLua
  by_cases h : s.recovery v = some token
  · exact Or.inr ⟨h, by simp [h]⟩
  · exact Or.inl ⟨h, by simp [h]⟩

/-- `setIfAbsent(recoveryKey, token)`. -/
def lockRecovery (v : VoucherId) (token : Text) (s : Redis) : Bool × Redis :=
  if (s.recovery v).isSome then (false, s)
  else (true, { s with recovery := Function.update s.recovery v (some token) })

theorem lockRecovery_cases (v : VoucherId) (token : Text) (s : Redis) :
    (s.recovery v ≠ none ∧ lockRecovery v token s = (false, s)) ∨
      (s.recovery v = none ∧ lockRecovery v token s =
        (true, { s with recovery := Function.update s.recovery v (some token) })) := by
  unfold lockRecovery
  cases h : s.recovery v with
  | none => exact Or.inr ⟨rfl, by simp⟩
  | some held => exact Or.inl ⟨by simp, by simp⟩

/-- `seckill_recovery_renew.lua`: 1 while the key holds the token. -/
def renewRecovery (v : VoucherId) (token : Text) (s : Redis) : ℤ :=
  if s.recovery v = some token then 1 else 0

/-- `seckill_recovery_unlock.lua`. -/
def unlockRecovery (v : VoucherId) (token : Text) (s : Redis) : ℤ × Redis :=
  if s.recovery v = some token then
    (1, { s with recovery := Function.update s.recovery v none })
  else (0, s)

end Hmdp.Model
