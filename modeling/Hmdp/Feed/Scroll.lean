import Hmdp.Lib.Paging
import Hmdp.Model.Feed
import Mathlib.Data.List.Induction

/-!
# Scrolling through the feed

A client starts with a time no post is newer than and the offset 0, and passes on the `minTime` and
the offset of each answer. The offset counts the posts of `minTime` on the last page alone, while
the next query skips that many of all the posts of that time: posts of `minTime` on earlier pages
are met again.

* `scrollCursor_eq`: what the loop computes.
* **`visits_page`**: one call, and the calls after it.
* **`scroll_visits_iff`**: every post is visited once exactly if no two pages in a row end with
  posts of the same time.
-/

namespace Hmdp.Scroll

open Hmdp.Lib Hmdp.Model

/-- The ids of the pages, up to the empty answer; `none` where it has not come after that many
calls, or a call throws. -/
def scroll (feed : Feed) : ℕ → ℤ → ℕ → Option (List BlogId)
  | 0, _, _ => none
  | calls + 1, max, offset =>
    (queryBlogOfFollow feed max offset).bind fun answer =>
      match answer with
      | none => some []
      | some r => (scroll feed calls r.minTime r.offset).map fun ids => r.list ++ ids

/-- The scroll ends, and its pages are the posts, in their order. -/
def Visits (feed : Feed) (max : ℤ) (offset : ℕ) (posts : List (ℤ × Text)) : Prop :=
  ∃ calls ids, scroll feed calls max offset = some ids ∧
    ids.map Long.toText = posts.map Prod.snd

/-- The times of the last posts of the pages, when the times are cut into twos. -/
def pageEnds : List ℤ → List ℤ
  | [] => []
  | [time] => [time]
  | _ :: time :: times => time :: pageEnds times

variable {feed : Feed}

/-! ## One page -/

theorem newestFirst_sorted (feed : Feed) :
    feed.newestFirst.Pairwise fun e e' => e'.1 ≤ e.1 := by
  refine List.pairwise_map.mpr (List.pairwise_reverse.mpr (feed.tuples.sorted.imp ?_))
  intro e e' h
  rcases Prod.Lex.le_iff.mp h with h | h
  · exact h.le
  · exact h.1.le

theorem newestFirst_map_snd (feed : Feed) :
    feed.newestFirst.map Prod.snd = feed.tuples.members.reverse := by
  rw [Feed.newestFirst, List.map_map, ZSet.members, ← List.map_reverse]
  rfl

theorem newestFirst_nodup (feed : Feed) : (feed.newestFirst.map Prod.snd).Nodup := by
  rw [newestFirst_map_snd]
  exact List.nodup_reverse.mpr feed.tuples.members_nodup

/-- The times are positive. -/
def Positive (feed : Feed) : Prop := ∀ post ∈ feed.newestFirst, 0 < post.1

theorem revRangeByScore_eq (hpos : Positive feed) (max : ℤ) (offset : ℕ) :
    feed.tuples.revRangeByScore 0 max offset 2 =
      (resume Prod.fst max offset feed.newestFirst).take 2 := by
  rw [ZSet.revRangeByScore, resume, ← Feed.newestFirst]
  congr 2
  refine List.filter_congr fun post hpost => ?_
  simp [(hpos post hpost).le]

/-- **The loop over a page**: the last time, and how many posts of the page have it. -/
theorem scrollCursor_eq {page : List (ℤ × Text)} (hsorted : page.Pairwise fun e e' => e'.1 ≤ e.1)
    (hpos : ∀ post ∈ page, 0 < post.1) {last : ℤ × Text} (hlast : page.getLast? = some last) :
    scrollCursor page = (last.1, page.countP fun post => decide (post.1 = last.1)) := by
  induction page using List.reverseRecOn generalizing last with
  | nil => cases hlast
  | append_singleton page post ih =>
    rw [List.getLast?_append, List.getLast?_singleton, Option.some_or] at hlast
    cases hlast
    obtain ⟨hpage, -, hcross⟩ := List.pairwise_append.mp hsorted
    rw [scrollCursor, List.foldl_append, ← scrollCursor, List.countP_append]
    cases hend : page.getLast? with
    | none =>
      cases List.getLast?_eq_none_iff.mp hend
      have hne : post.1 ≠ 0 := (hpos post (by simp)).ne'
      simp [scrollCursor, hne]
    | some previous =>
      rw [ih hpage (fun e he => hpos e (List.mem_append_left _ he)) hend]
      by_cases hsame : post.1 = previous.1
      · simp [hsame]
      · have hzero : page.countP (fun e => decide (e.1 = post.1)) = 0 := by
          refine List.countP_eq_zero.mpr fun e he => ?_
          obtain ⟨init, rfl⟩ := List.getLast?_eq_some_iff.mp hend
          have hprevious : previous.1 ≤ e.1 := by
            rcases List.mem_append.mp he with h | h
            · exact (List.pairwise_append.mp hpage).2.2 e h previous List.mem_cons_self
            · rw [List.mem_singleton.mp h]
          have hpost : post.1 ≤ previous.1 := hcross previous (by simp) post List.mem_cons_self
          simp only [decide_eq_true_eq]
          exact fun h => hsame (le_antisymm hpost (h ▸ hprevious))
        simp [hsame, hzero]

/-- `Long.valueOf` reads the members of a feed. -/
theorem mapM_valueOf {page : List (ℤ × Text)}
    (hids : ∀ post ∈ page, ∃ id : BlogId, post.2 = id.toText) :
    ∃ ids, (page.mapM fun tuple => Long.valueOf tuple.2) = some ids ∧
      ids.map Long.toText = page.map Prod.snd := by
  induction page with
  | nil => exact ⟨[], rfl, rfl⟩
  | cons post page ih =>
    obtain ⟨id, hid⟩ := hids post List.mem_cons_self
    obtain ⟨ids, hmap, htext⟩ := ih fun e he => hids e (List.mem_cons_of_mem post he)
    refine ⟨id :: ids, ?_, by rw [List.map_cons, List.map_cons, htext, hid]⟩
    rw [List.mapM_cons, hmap, hid, Long.valueOf_toText]
    rfl

/-! ## The calls -/

theorem mem_of_mem_resume {max : ℤ} {offset : ℕ} {post : ℤ × Text}
    (h : post ∈ resume Prod.fst max offset feed.newestFirst) : post ∈ feed.newestFirst :=
  List.mem_of_mem_filter (List.mem_of_mem_drop h)

theorem id_of_mem {post : ℤ × Text} (h : post ∈ feed.newestFirst) :
    ∃ id : BlogId, post.2 = id.toText := by
  refine feed.ids post.2 (List.mem_reverse.mp ?_)
  rw [← newestFirst_map_snd]
  exact List.mem_map_of_mem h

/-- A call that finds posts. -/
theorem scroll_succ (hpos : Positive feed) {max : ℤ} {offset : ℕ} {todo : List (ℤ × Text)}
    (hresume : resume Prod.fst max offset feed.newestFirst = todo) (hne : todo ≠ []) :
    ∃ pageIds : List BlogId, pageIds.map Long.toText = (todo.take 2).map Prod.snd ∧
      ∀ calls, scroll feed (calls + 1) max offset =
        (scroll feed calls (scrollCursor (todo.take 2)).1 (scrollCursor (todo.take 2)).2).map
          fun ids => pageIds ++ ids := by
  obtain ⟨pageIds, hmap, htext⟩ := mapM_valueOf fun post (hpost : post ∈ todo.take 2) =>
    id_of_mem (mem_of_mem_resume (hresume ▸ List.mem_of_mem_take hpost))
  have hpage : (todo.take 2).isEmpty = false := by
    cases todo with
    | nil => exact absurd rfl hne
    | cons post posts => rfl
  refine ⟨pageIds, htext, fun calls => ?_⟩
  rw [scroll, queryBlogOfFollow, revRangeByScore_eq hpos, hresume]
  simp only [hpage, Bool.false_eq_true, if_false, hmap]
  rfl

/-- A call that finds nothing. -/
theorem scroll_nil (hpos : Positive feed) {max : ℤ} {offset : ℕ}
    (hresume : resume Prod.fst max offset feed.newestFirst = []) : Visits feed max offset [] := by
  refine ⟨1, [], ?_, rfl⟩
  rw [scroll, queryBlogOfFollow, revRangeByScore_eq hpos, hresume]
  rfl

/-- What a scroll visits first. -/
theorem scroll_head (hpos : Positive feed) {max : ℤ} {offset : ℕ} {post : ℤ × Text}
    {posts : List (ℤ × Text)}
    (hresume : resume Prod.fst max offset feed.newestFirst = post :: posts)
    {calls : ℕ} {ids : List BlogId} (h : scroll feed calls max offset = some ids) :
    post.2 ∈ ids.map Long.toText := by
  obtain ⟨pageIds, htext, hscroll⟩ := scroll_succ hpos hresume (List.cons_ne_nil _ _)
  cases calls with
  | zero => cases h
  | succ calls =>
    rw [hscroll] at h
    obtain ⟨ids', -, rfl⟩ := Option.map_eq_some_iff.mp h
    rw [List.map_append, htext]
    exact List.mem_append_left _ (by simp)

/-- **One call, and the calls after it.** -/
theorem visits_page (hpos : Positive feed) (page rest : List (ℤ × Text))
    {before : List (ℤ × Text)} {max : ℤ} {offset : ℕ}
    (hfeed : feed.newestFirst = before ++ (page ++ rest))
    (hresume : resume Prod.fst max offset feed.newestFirst = page ++ rest)
    (hpage : (page ++ rest).take 2 = page) {last : ℤ × Text} (hlast : page.getLast? = some last) :
    Visits feed max offset (page ++ rest) ↔
      (∀ post ∈ before.getLast?, post.1 ≠ last.1) ∧
        Visits feed last.1 (page.countP fun post => decide (post.1 = last.1)) rest := by
  have hsorted := hfeed ▸ newestFirst_sorted feed
  have hpages := (List.pairwise_append.mp hsorted).2.1
  have hne : page ++ rest ≠ [] := by
    intro h
    rw [(List.append_eq_nil_iff.mp h).1] at hlast
    cases hlast
  obtain ⟨pageIds, htext, hscroll⟩ := scroll_succ hpos hresume hne
  have hcursor := scrollCursor_eq (List.pairwise_append.mp hpages).1
    (fun post hpost => hpos post (by simp [hfeed, hpost])) hlast
  rw [hpage] at htext hscroll
  simp only [hcursor] at hscroll
  have hclean : (∀ post ∈ before, last.1 < post.1) ↔ ∀ post ∈ before.getLast?, post.1 ≠ last.1 :=
    clean_iff hsorted (List.mem_append_left _ (List.mem_of_getLast? hlast))
  constructor
  · rintro ⟨calls, ids, hids, hvisited⟩
    cases calls with
    | zero => cases hids
    | succ calls =>
      rw [hscroll] at hids
      obtain ⟨ids', hids', rfl⟩ := Option.map_eq_some_iff.mp hids
      rw [List.map_append, List.map_append, htext, List.append_cancel_left_eq] at hvisited
      refine ⟨hclean.mp fun post hpost => ?_, calls, ids', hids', hvisited⟩
      by_contra hle
      -- the scroll goes on at a post it has visited
      obtain ⟨again, posts, hagain, hvisitedBefore⟩ := resume_unclean hsorted hlast hpost hle
      rw [← hfeed] at hagain
      have hrest := scroll_head hpos hagain hids'
      rw [hvisited] at hrest
      have hnodup := newestFirst_nodup feed
      rw [hfeed, ← List.append_assoc, List.map_append, List.nodup_append'] at hnodup
      exact hnodup.2.2 (List.mem_map_of_mem hvisitedBefore) hrest
  · rintro ⟨-, calls, ids, hids, hvisited⟩
    refine ⟨calls + 1, pageIds ++ ids, ?_, ?_⟩
    · rw [hscroll, hids]
      rfl
    · rw [List.map_append, List.map_append, htext, hvisited]

/-- After a page that no earlier page has the last time of, the client goes on where it ended. -/
theorem resume_page (page rest : List (ℤ × Text)) {before : List (ℤ × Text)}
    (hfeed : feed.newestFirst = before ++ (page ++ rest)) {last : ℤ × Text}
    (hlast : page.getLast? = some last) (h : ∀ post ∈ before.getLast?, post.1 ≠ last.1) :
    resume Prod.fst last.1 (page.countP fun post => decide (post.1 = last.1)) feed.newestFirst =
      rest := by
  have hsorted := hfeed ▸ newestFirst_sorted feed
  rw [hfeed]
  exact resume_clean hsorted hlast
    ((clean_iff hsorted (List.mem_append_left _ (List.mem_of_getLast? hlast))).mpr h)

theorem isChain_ends (before : List (ℤ × Text)) (time : ℤ) (times : List ℤ) :
    ((before.getLast?.map Prod.fst).toList ++ time :: times).IsChain (· ≠ ·) ↔
      (∀ post ∈ before.getLast?, post.1 ≠ time) ∧ (time :: times).IsChain (· ≠ ·) := by
  cases before.getLast? with
  | none => simp
  | some post => simp

/-- **The scroll from the end of a page.** -/
theorem visits_iff (hpos : Positive feed) (before todo : List (ℤ × Text)) {max : ℤ}
    {offset : ℕ} (hfeed : feed.newestFirst = before ++ todo)
    (hresume : resume Prod.fst max offset feed.newestFirst = todo) :
    Visits feed max offset todo ↔
      ((before.getLast?.map Prod.fst).toList ++ pageEnds (todo.map Prod.fst)).IsChain (· ≠ ·) := by
  match todo with
  | [] =>
    refine iff_of_true (scroll_nil hpos hresume) ?_
    cases before.getLast? <;> simp [pageEnds]
  | [post] =>
    rw [List.map_singleton, pageEnds, isChain_ends]
    refine (visits_page hpos [post] [] hfeed hresume rfl rfl).trans
      (and_congr_right fun h => iff_of_true ?_ (.singleton post.1))
    exact scroll_nil hpos (resume_page [post] [] hfeed rfl h)
  | post :: post' :: todo =>
    rw [List.map_cons, List.map_cons, pageEnds, isChain_ends]
    refine (visits_page hpos [post, post'] todo hfeed hresume rfl rfl).trans
      (and_congr_right fun h => ?_)
    have hnext := visits_iff hpos (before ++ [post, post']) todo
      (by rw [hfeed, List.append_assoc]; rfl)
      (resume_page [post, post'] todo hfeed rfl h)
    rw [hnext, List.getLast?_append]
    rfl

/-- **Scrolling.** A scroll from a time that no post is newer than visits every post once, newest
first, exactly if no two pages in a row end with posts of the same time, when the feed is cut into
pages of two. -/
theorem scroll_visits_iff {max : ℤ} (hpos : ∀ post ∈ feed.newestFirst, 0 < post.1)
    (hmax : ∀ post ∈ feed.newestFirst, post.1 ≤ max) :
    Visits feed max 0 feed.newestFirst ↔
      (pageEnds (feed.newestFirst.map Prod.fst)).IsChain (· ≠ ·) := by
  refine visits_iff hpos [] feed.newestFirst rfl ?_
  rw [resume, List.drop_zero]
  exact List.filter_eq_self.mpr fun post hpost => by simpa using hmax post hpost

/-- Four posts, two of them in one millisecond. -/
def fourPosts : Feed := (((Feed.empty.push 1 5).push 2 7).push 3 7).push 4 9

theorem scroll_visits_fourPosts : Visits fourPosts 9 0 fourPosts.newestFirst :=
  (scroll_visits_iff (show ∀ post ∈ fourPosts.newestFirst, 0 < post.1 by decide +kernel)
    (show ∀ post ∈ fourPosts.newestFirst, post.1 ≤ 9 by decide +kernel)).mpr
    (show (pageEnds (fourPosts.newestFirst.map Prod.fst)).IsChain (· ≠ ·) by decide +kernel)

/-- Three posts in one millisecond: the third, alone on its page, is followed by the second and the
third, and these by the third alone again. -/
def threeAtOnce : Feed := ((Feed.empty.push 1 5).push 2 5).push 3 5

theorem threeAtOnce_not_visited_once :
    ¬ ∀ (feed : Feed) (max : ℤ), (∀ post ∈ feed.newestFirst, 0 < post.1) →
      (∀ post ∈ feed.newestFirst, post.1 ≤ max) → Visits feed max 0 feed.newestFirst := by
  intro h
  have hpos : Positive threeAtOnce :=
    show ∀ post ∈ threeAtOnce.newestFirst, 0 < post.1 by decide +kernel
  have hvisits := h threeAtOnce 5 hpos
    (show ∀ post ∈ threeAtOnce.newestFirst, post.1 ≤ 5 by decide +kernel)
  have hends := (visits_iff hpos [] threeAtOnce.newestFirst rfl (by decide +kernel)).mp hvisits
  revert hends
  decide +kernel

end Hmdp.Scroll
