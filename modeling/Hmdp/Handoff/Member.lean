import Hmdp.Model.Handoff

/-!
# The handoff codec

`seckill.lua` and `seckill_auto_issue.lua` write a member of the handoff set, `buildMember` writes
it again where it is to be removed, and `parse` reads it. `parse` reads more than is ever written:
`Long.valueOf` takes a plus sign, leading zeros and the digits of other scripts, and every flag but
`1` is read as `0`. A member read so is another text than the one its event is written as.

* `eq_toText_iff`: the text of a number is the only one without these.
* `eq_member_iff`: a member that is read is what would be written, or it is read loosely.
* **`codec_exact_iff`**: the codec, and the exact condition for the way back.
-/

namespace Hmdp.Handoff

open Hmdp.Lib Hmdp.Model

/-- `handoffMember` of `seckill.lua` and `seckill_auto_issue.lua`, from the texts of the ids. -/
def handoffMember (orderId userId : Text) (autoIssued : Bool) : Text :=
  orderId ++ ['|'] ++ userId ++ (if autoIssued then ['|', '1'] else ['|', '0'])

/-- A member of three parts that `parse` reads, though one of the numbers is not in its shortest
text or the flag is neither `0` nor `1`. -/
def ReadLoosely (member : Text) : Prop :=
  match member.splitOn '|' with
  | [orderText, userText, flag] =>
    ((Long.valueOf orderText).isSome ∧ (Long.valueOf userText).isSome) ∧
      ¬(Canonical orderText ∧ Canonical userText ∧ (flag = ['0'] ∨ flag = ['1']))
  | _ => False

instance : DecidablePred ReadLoosely := fun member => by
  unfold ReadLoosely
  split <;> infer_instance

variable {v : VoucherId} {member member' : Text} {r : Reservation} {now : Time}
  {e : SeckillOrderOutboxEvent}

/-! ## Numbers -/

/-- **The text of a number.** -/
theorem eq_toText_iff {t : Text} {l : Long} (h : Long.valueOf t = some l) :
    t = l.toText ↔ Canonical t := by
  constructor
  · rintro rfl
    exact canonical_iff.mpr ⟨_, rfl⟩
  · intro hc
    obtain ⟨i, rfl⟩ := canonical_iff.mp hc
    rw [Long.valueOf, readInt_printInt asciiDigits_digit, Option.bind_some] at h
    split at h
    · rename_i hrange
      cases h
      rw [Long.toText, Int64.toInt_ofInt_of_le hrange.1 hrange.2]
    · cases h

theorem eq_flagText_iff {flag : Text} :
    flag = flagText (decide (flag = ['1'])) ↔ flag = ['0'] ∨ flag = ['1'] := by
  by_cases h : flag = ['1']
  · subst h
    exact iff_of_true rfl (Or.inr rfl)
  · simp [h, flagText]

/-! ## Members -/

/-- A member is its parts. -/
theorem member_eq_iff (o : OrderId) (u : UserId) (a : Bool) :
    member = buildMember o u a ↔ member.splitOn '|' = [o.toText, u.toText, flagText a] := by
  constructor
  · rintro rfl
    exact splitOn_buildMember o u a
  · intro h
    have hjoin : ['|'].intercalate (member.splitOn '|') = member := List.intercalate_splitOn '|'
    rw [h] at hjoin
    rw [← hjoin]
    simp [buildMember, List.intercalate, List.intersperse]

/-- **What is read is what would be written**, unless it is read loosely. -/
theorem eq_member_iff (h : parseMember v member = some r) :
    member = r.member ↔ ¬ReadLoosely member := by
  rw [Reservation.member, member_eq_iff]
  unfold parseMember at h
  unfold ReadLoosely
  split at h
  · rename_i orderText userText flag hparts
    obtain ⟨orderId, horder, h⟩ := Option.bind_eq_some_iff.mp h
    obtain ⟨userId, huser, h⟩ := Option.map_eq_some_iff.mp h
    cases h
    have hread : (Long.valueOf orderText).isSome ∧ (Long.valueOf userText).isSome := by
      simp [horder, huser]
    rw [hparts, List.cons.injEq, List.cons.injEq, List.cons.injEq, eq_toText_iff horder,
      eq_toText_iff huser, eq_flagText_iff]
    simp only [hread, and_true, true_and, not_not]
  · cases h

theorem handoffMember_eq (o : OrderId) (u : UserId) (a : Bool) :
    handoffMember o.toText u.toText a = buildMember o u a := by
  cases a <;> simp [handoffMember, buildMember, flagText]

/-! ## Events -/

theorem parse_eq_some : parse now v member = some e ↔
    ∃ r, parseMember v member = some r ∧ e = .pending now r := by
  rw [parse, Option.map_eq_some_iff]
  simp only [eq_comm]

/-- A member is quarantined as malformed exactly if it is not read. -/
theorem quarantined_iff {members : List Text} (hmember : member ∈ members) :
    RelayTask.quarantine v member .malformed ∈ fetchTasks now v members ↔
      parse now v member = none := by
  simp [fetchTasks, parse, hmember]

/-- What is read is built from the fields it is read as exactly if it is not read loosely. -/
theorem parse_built_iff : (∀ e, parse now v member = some e →
    member = buildMember e.orderId e.userId e.autoIssued) ↔ ¬ReadLoosely member := by
  cases hparse : parseMember v member with
  | none =>
    refine iff_of_true (fun e he => ?_) fun hloose => ?_
    · obtain ⟨r, hr, -⟩ := parse_eq_some.mp he
      cases hparse.symm.trans hr
    · unfold ReadLoosely at hloose
      unfold parseMember at hparse
      split at hloose
      · rename_i orderText userText flag hparts
        obtain ⟨⟨horder, huser⟩, -⟩ := hloose
        obtain ⟨orderId, horder⟩ := Option.isSome_iff_exists.mp horder
        obtain ⟨userId, huser⟩ := Option.isSome_iff_exists.mp huser
        simp [hparts, horder, huser] at hparse
      · exact hloose
  | some r =>
    rw [← eq_member_iff hparse]
    constructor
    · exact fun h => h (.pending now r) (parse_eq_some.mpr ⟨r, hparse, rfl⟩)
    · intro h e he
      obtain ⟨r', hr', rfl⟩ := parse_eq_some.mp he
      cases hparse.symm.trans hr'
      exact h

/-- **The handoff codec.** What is built reads back, and is what the scripts write. What is read is
built from the fields it is read as exactly if it is not read loosely; members that are not read
loosely and read as one event are one member, and such a member is quarantined exactly if it was not
built. -/
theorem codec_exact_iff (now : Time) (v : VoucherId) :
    (∀ o u a, parse now v (buildMember o u a) = some (.pending now ⟨o, v, u, a⟩)) ∧
    (∀ (o : OrderId) (u : UserId) a, handoffMember o.toText u.toText a = buildMember o u a) ∧
    (∀ (s : Redis) (c : SeckillCall) n, (s.reserve c n).handoff c.voucherId =
      (s.handoff c.voucherId).zadd c.currentTime
        (handoffMember c.orderId.toText c.userId.toText false)) ∧
    (∀ member, (∀ e, parse now v member = some e →
      member = buildMember e.orderId e.userId e.autoIssued) ↔ ¬ReadLoosely member) ∧
    (∀ member member' e, ¬ReadLoosely member → ¬ReadLoosely member' →
      parse now v member = some e → parse now v member' = some e → member = member') ∧
    ∀ members, ∀ member ∈ members, ¬ReadLoosely member →
      (RelayTask.quarantine v member .malformed ∈ fetchTasks now v members ↔
        ∀ o u a, member ≠ buildMember o u a) := by
  refine ⟨fun o u a => ?_, handoffMember_eq, fun s c n => ?_, fun _ => parse_built_iff,
    fun member member' e hloose hloose' h h' => ?_, fun members member hmember hloose => ?_⟩
  · exact parse_eq_some.mpr ⟨_, parse_buildMember v o u a, rfl⟩
  · rw [handoffMember_eq]
    simp only [Redis.reserve, Function.update_self]
    rfl
  · rw [parse_built_iff.mpr hloose e h, parse_built_iff.mpr hloose' e h']
  · rw [quarantined_iff hmember]
    constructor
    · rintro h o u a rfl
      rw [parse, parse_buildMember] at h
      cases h
    · intro h
      by_contra hsome
      obtain ⟨e, he⟩ := Option.ne_none_iff_exists'.mp hsome
      exact h _ _ _ (parse_built_iff.mpr hloose e he)

/-- `+1|2|x` is read as the event of `1|2|0`. -/
theorem loose_member_is_read :
    ¬ ∀ now v member e, parse now v member = some e →
      member = buildMember e.orderId e.userId e.autoIssued := by
  intro h
  have hread := h 0 3 ['+', '1', '|', '2', '|', 'x'] (.pending 0 ⟨1, 3, 2, false⟩)
    (by decide +kernel)
  revert hread
  decide +kernel

end Hmdp.Handoff
