import Hmdp.Model.TopBuyer
import Mathlib.Algebra.Order.Ring.Int

/-!
# The first buyers of the last days

What `queryTopBuyers` answers against the ranking of all users of the last days. It reads only the
first `perDayLimit` tuples of each day: a user who is behind them on one day loses that day's score.

* **`top_buyers_iff`**: the answer is the top of the ranking, with the total scores, if and only if
  none of these users is behind the first `perDayLimit` tuples of a day, and none of them has a
  `tb_user_info` row whose level is NULL.
* `cut_buyer_loses_first_place`: the user with the highest total is cut from every day.
-/

namespace Hmdp.TopBuyer

open Hmdp.Lib Hmdp.Model

/-! ## What the days hold -/

/-- The tuples of the users of the last days, all of them. -/
def scoresOf (s : TopBuyers) (shopId : ShopId) (days : Int32) (today : Day) :
    List (UserId × ℤ) :=
  (List.range days.toInt.toNat).flatMap fun dayOffset : ℕ =>
    usersOf (s.daily shopId (today - dayOffset)).reversed

/-- All users of the last days with their total scores, the highest total first and then the
lowest id. -/
def topBuyersOf (s : TopBuyers) (shopId : ShopId) (days : Int32) (today : Day) :
    List (UserId × ℤ) :=
  sortOn rankingKey (tally (scoresOf s shopId days today))

/-- The user is a member of the day's set behind the first `perDayLimit`. -/
def CutOn (s : TopBuyers) (shopId : ShopId) (limit : Int32) (day : Day) (userId : UserId) : Prop :=
  ∃ tuple ∈ (s.daily shopId day).reversed.drop (perDayLimit limit).toInt.toNat,
    Long.valueOf tuple.2 = some userId

/-- There is a `tb_user_info` row, and its level is NULL. -/
def LevelIsNull (tables : UserTables) (userId : UserId) : Prop :=
  ∃ userInfo, tables.userInfo userId = some userInfo ∧ userInfo.level = none

instance (s : TopBuyers) (shopId : ShopId) (limit : Int32) (day : Day) (userId : UserId) :
    Decidable (CutOn s shopId limit day userId) :=
  List.decidableBEx _ _

variable {s : TopBuyers} {shopId : ShopId} {days limit : Int32} {today : Day} {now : ℕ → Day}
  {tables : UserTables}

theorem mem_usersOf {tuples : List (ℤ × Text)} {userId : UserId} :
    (∃ e ∈ usersOf tuples, e.1 = userId) ↔
      ∃ tuple ∈ tuples, Long.valueOf tuple.2 = some userId := by
  simp [usersOf]

theorem rankingKey_injective {a b : UserId × ℤ} (h : rankingKey a = rankingKey b) : a = b := by
  have hpair := toLex.injective h
  refine Prod.ext (Int64.toInt_inj.mp ?_) ?_
  · exact congrArg Prod.snd hpair
  · exact OrderDual.toDual.injective (congrArg Prod.fst hpair)

theorem rankingKey_le {userId : UserId} {x y : ℤ} (h : x ≤ y) :
    rankingKey (userId, y) ≤ rankingKey (userId, x) := by
  refine Prod.Lex.toLex_le_toLex.mpr ?_
  rcases h.lt_or_eq with hlt | rfl
  · exact Or.inl (OrderDual.toDual_lt_toDual.mpr hlt)
  · exact Or.inr ⟨rfl, le_refl _⟩

/-! ## One round of the loop over the ranking -/

theorem topBuyer_eq_none {entry : UserId × ℤ} :
    topBuyer tables entry = none ↔ LevelIsNull tables entry.1 := by
  unfold topBuyer LevelIsNull
  cases h : tables.userInfo entry.1 with
  | none => simp
  | some userInfo => simp

theorem topBuyer_entry {entry : UserId × ℤ} {buyer : TopBuyerDTO}
    (h : topBuyer tables entry = some buyer) : (buyer.userId, buyer.score) = entry := by
  obtain ⟨level, -, rfl⟩ := Option.map_eq_some_iff.mp h
  rfl

/-- The loop ends if no level throws. -/
theorem mapM_topBuyer (ranking : List (UserId × ℤ)) :
    (∃ result, ranking.mapM (topBuyer tables) = some result) ↔
      ∀ entry ∈ ranking, ¬ LevelIsNull tables entry.1 := by
  simp only [mapM_eq_some_iff, exists_and_left, exists_eq, and_true]
  refine forall₂_congr fun entry _ => ?_
  rw [← topBuyer_eq_none, Option.isSome_iff_ne_none]

/-- It ends with the ranking it went through. -/
theorem map_of_mapM_topBuyer {ranking : List (UserId × ℤ)} {result : List TopBuyerDTO}
    (h : ranking.mapM (topBuyer tables) = some result) :
    result.map (fun buyer => (buyer.userId, buyer.score)) = ranking := by
  obtain ⟨hall, rfl⟩ := mapM_eq_some_iff.mp h
  rw [List.map_filterMap]
  refine (List.filterMap_congr fun entry hentry => ?_).trans List.filterMap_some
  obtain ⟨buyer, hbuyer⟩ := Option.isSome_iff_exists.mp (hall entry hentry)
  rw [hbuyer, Option.map_some, topBuyer_entry hbuyer]

/-! ## What the cut leaves -/

/-- The tuples of the users that `aggregateScores` reads. -/
def readOf (s : TopBuyers) (shopId : ShopId) (days limit : Int32) (today : Day) :
    List (UserId × ℤ) :=
  (List.range days.toInt.toNat).flatMap fun dayOffset : ℕ =>
    usersOf ((s.daily shopId (today - dayOffset)).revRange (perDayLimit limit).toInt.toNat)

/-- The tuples of the users that it does not. -/
def cutOf (s : TopBuyers) (shopId : ShopId) (days limit : Int32) (today : Day) :
    List (UserId × ℤ) :=
  (List.range days.toInt.toNat).flatMap fun dayOffset : ℕ =>
    usersOf ((s.daily shopId (today - dayOffset)).reversed.drop (perDayLimit limit).toInt.toNat)

theorem scoresOf_perm (s : TopBuyers) (shopId : ShopId) (days limit : Int32) (today : Day) :
    (scoresOf s shopId days today).Perm
      (readOf s shopId days limit today ++ cutOf s shopId days limit today) := by
  refine List.Perm.trans ?_ (List.flatMap_append_perm _ _ _).symm
  refine List.Perm.of_eq (congrArg (List.flatMap · _) (funext fun dayOffset => ?_))
  rw [ZSet.revRange, usersOf, usersOf, usersOf, ← List.filterMap_append, List.take_append_drop]

theorem mem_cutOf {userId : UserId} :
    (∃ e ∈ cutOf s shopId days limit today, e.1 = userId) ↔
      ∃ dayOffset < days.toInt.toNat, CutOn s shopId limit (today - dayOffset) userId := by
  unfold cutOf CutOn
  simp only [← mem_usersOf, List.mem_flatMap, List.mem_range]
  constructor
  · rintro ⟨e, ⟨dayOffset, hlt, he⟩, rfl⟩
    exact ⟨dayOffset, hlt, e, he, rfl⟩
  · rintro ⟨dayOffset, hlt, e, he, rfl⟩
    exact ⟨e, ⟨dayOffset, hlt, he⟩, rfl⟩

theorem scoresOf_pos (hpos : ∀ dayOffset < days.toInt.toNat,
      ∀ tuple ∈ (s.daily shopId (today - dayOffset)).reversed, 0 < tuple.1) :
    ∀ e ∈ scoresOf s shopId days today, 0 < e.2 := by
  intro e he
  obtain ⟨dayOffset, hlt, he⟩ := List.mem_flatMap.mp he
  obtain ⟨tuple, htuple, he⟩ := List.mem_filterMap.mp he
  obtain ⟨userId, -, rfl⟩ := Option.map_eq_some_iff.mp he
  exact hpos dayOffset (List.mem_range.mp hlt) tuple htuple

/-- What the call aggregates, when the date stays the same. -/
theorem aggregateScores_eq (hdate : ∀ dayOffset < days.toInt.toNat, now dayOffset = today) :
    aggregateScores now shopId days limit s = tally (readOf s shopId days limit today) := by
  refine congrArg tally (List.flatMap_congr fun dayOffset hmem => ?_)
  rw [hdate dayOffset (List.mem_range.mp hmem)]

/-- The ranking of what is read has the same top if the top is not cut. -/
theorem take_ranking_iff (limit : Int32) (n : ℕ) (hpos : ∀ dayOffset < days.toInt.toNat,
      ∀ tuple ∈ (s.daily shopId (today - dayOffset)).reversed, 0 < tuple.1) :
    (sortOn rankingKey (tally (readOf s shopId days limit today))).take n =
        (topBuyersOf s shopId days today).take n ↔
      ∀ entry ∈ (topBuyersOf s shopId days today).take n, ∀ dayOffset < days.toInt.toNat,
        ¬ CutOn s shopId limit (today - dayOffset) entry.1 := by
  have hsplit := scoresOf_perm s shopId days limit today
  have hscores := scoresOf_pos hpos
  refine (take_sortOn_eq_iff (fun a _ b _ => rankingKey_injective)
    (nodup_tally _).of_map (nodup_tally _).of_map ?_).trans ?_
  · rintro ⟨userId, x⟩ hmem
    obtain ⟨hread, rfl⟩ := mem_tally.mp hmem
    refine ⟨(userId, total userId (scoresOf s shopId days today)), mem_tally.mpr ⟨?_, rfl⟩,
      rankingKey_le (total_part_le hsplit hscores userId), fun h => ?_⟩
    · obtain ⟨e, he, rfl⟩ := List.mem_map.mp hread
      exact List.mem_map_of_mem (hsplit.mem_iff.mpr (List.mem_append_left _ he))
    · rw [(mem_tally.mp h).2]
  · refine forall₂_congr fun entry hentry => ?_
    have hmem : entry ∈ tally (scoresOf s shopId days today) :=
      mem_sortOn.mp (List.mem_of_mem_take hentry)
    rw [← Prod.mk.eta (p := entry), mem_tally_part hsplit hscores hmem]
    constructor
    · intro h dayOffset hlt hcut
      obtain ⟨e, he, heq⟩ := mem_cutOf.mpr ⟨dayOffset, hlt, hcut⟩
      exact h e he heq
    · intro h e he heq
      obtain ⟨dayOffset, hlt, hcut⟩ := mem_cutOf.mp ⟨e, he, heq⟩
      exact h dayOffset hlt hcut

/-! ## The query -/

/-- **The true top buyers.** While the date stays the same, the answer is the first `limit` users of
the ranking of all users of the last days, with their total scores, if and only if none of them is
behind the first `perDayLimit` tuples of one of the days and none of them has a level that is
NULL. -/
theorem top_buyers_iff (tables : UserTables) (now : ℕ → Day) (shopId : ShopId)
    (days limit : Int32) (s : TopBuyers) (today : Day) (hdays : 1 ≤ days) (hlimit : 1 ≤ limit)
    (hdate : ∀ dayOffset < days.toInt.toNat, now dayOffset = today)
    (hpos : ∀ dayOffset < days.toInt.toNat,
      ∀ tuple ∈ (s.daily shopId (today - dayOffset)).reversed, 0 < tuple.1) :
    (∃ result, queryTopBuyers tables now (some shopId) days limit s = some result ∧
        result.map (fun buyer => (buyer.userId, buyer.score)) =
          (topBuyersOf s shopId days today).take limit.toInt.toNat) ↔
      ∀ entry ∈ (topBuyersOf s shopId days today).take limit.toInt.toNat,
        (∀ dayOffset < days.toInt.toNat, ¬ CutOn s shopId limit (today - dayOffset) entry.1) ∧
          ¬ LevelIsNull tables entry.1 := by
  have hguard : ¬ (days ≤ 0 ∨ limit ≤ 0) := by
    rintro (h | h)
    · exact absurd (Int32.le_trans hdays h) (by decide)
    · exact absurd (Int32.le_trans hlimit h) (by decide)
  have hquery : queryTopBuyers tables now (some shopId) days limit s =
      ((sortOn rankingKey (tally (readOf s shopId days limit today))).take
        limit.toInt.toNat).mapM (topBuyer tables) := by
    rw [← aggregateScores_eq hdate]
    exact if_neg hguard
  have hrank := take_ranking_iff limit limit.toInt.toNat hpos
  rw [hquery]
  constructor
  · rintro ⟨result, hresult, hmap⟩
    have heq := (map_of_mapM_topBuyer hresult).symm.trans hmap
    have hlevel := (mapM_topBuyer _).mp ⟨result, hresult⟩
    rw [heq] at hlevel
    exact fun entry hentry => ⟨hrank.mp heq entry hentry, hlevel entry hentry⟩
  · intro h
    have heq := hrank.mpr fun entry hentry => (h entry hentry).1
    rw [heq]
    obtain ⟨result, hresult⟩ := (mapM_topBuyer _).mpr fun entry hentry => (h entry hentry).2
    exact ⟨result, hresult, map_of_mapM_topBuyer hresult⟩

/-- Nobody has a row of `tb_user` or `tb_user_info`. -/
def noRows : UserTables := ⟨fun _ => none, fun _ => none⟩

/-- Two days of a shop: on each, user 3 is third behind two others. -/
def thirdTwice : TopBuyers where
  daily _ day :=
    if day = 0 then
      ((ZSet.empty.zadd 5 (Long.toText 1)).zadd 5 (Long.toText 2)).zadd 4 (Long.toText 3)
    else if day = -1 then
      ((ZSet.empty.zadd 5 (Long.toText 4)).zadd 5 (Long.toText 5)).zadd 4 (Long.toText 3)
    else ZSet.empty
  recorded := ∅

/-- Asked for two users, the query reads both days whole. -/
theorem top_buyers_iff_thirdTwice :
    ∃ result, queryTopBuyers noRows (fun _ => 0) (some 7) 2 2 thirdTwice = some result ∧
      result.map (fun buyer => (buyer.userId, buyer.score)) =
        (topBuyersOf thirdTwice 7 2 0).take (2 : Int32).toInt.toNat :=
  (top_buyers_iff noRows (fun _ => 0) 7 2 2 thirdTwice 0 (by decide) (by decide)
    (fun _ _ => rfl) (by decide)).mpr fun entry hentry =>
      ⟨(by decide +kernel : ∀ entry ∈ (topBuyersOf thirdTwice 7 2 0).take (2 : Int32).toInt.toNat,
        ∀ dayOffset < (2 : Int32).toInt.toNat, ¬ CutOn thirdTwice 7 2 (0 - dayOffset) entry.1)
        entry hentry, fun ⟨_, hrow, _⟩ => nomatch hrow⟩

/-- **A buyer cut on every day**: user 3 has the highest total of the two days, and the first place
goes to user 1. -/
theorem cut_buyer_loses_first_place :
    (∀ dayOffset < 2, ∀ tuple ∈ (thirdTwice.daily 7 (0 - (dayOffset : ℕ))).reversed, 0 < tuple.1) ∧
      (topBuyersOf thirdTwice 7 2 0).take 1 = [(3, 8)] ∧
      queryTopBuyers noRows (fun _ => 0) (some 7) 2 1 thirdTwice =
        some [⟨1, none, none, 0, 5⟩] := by
  refine ⟨by decide, by decide +kernel, by decide +kernel⟩

end Hmdp.TopBuyer
