import Hmdp.Lib.SortedSet
import Hmdp.Model.Codec
import Mathlib.Data.Char

/-!
# The feed of followed users

`BlogServiceImpl.saveBlog` adds the id of a new blog, as text, with `System.currentTimeMillis` to
the sorted set `feed:<userId>` of each follower, and `queryBlogOfFollow` reads it two at a time. The
ids' rows are there, so the blogs of an answer are given as their ids, in the order
`ORDER BY FIELD` keeps. Scores are integers that a `double` holds.
-/

namespace Hmdp.Model

open Hmdp.Lib

/-- `tb_blog.id` -/
abbrev BlogId := Long

/-- `feed:<userId>`: its members are ids. -/
structure Feed where
  tuples : ZSet Text
  ids : ∀ member ∈ tuples.members, ∃ id : BlogId, member = id.toText

/-- `FEED_KEY + userId` does not exist. -/
def Feed.empty : Feed := ⟨ZSet.empty, nofun⟩

/-- The `ZADD` of `saveBlog`. -/
def Feed.push (feed : Feed) (id : BlogId) (now : ℤ) : Feed where
  tuples := feed.tuples.zadd now id.toText
  ids member hmember := by
    rcases ZSet.mem_zadd.mp hmember with rfl | h
    · exact ⟨id, rfl⟩
    · exact feed.ids member h

/-- The posts, newest first, with their times. -/
def Feed.newestFirst (feed : Feed) : List (ℤ × Text) :=
  feed.tuples.entries.reverse.map fun e => ofLex e

/-- The page a scroll query returns. -/
structure ScrollResult where
  list : List BlogId
  minTime : ℤ
  offset : ℕ
  deriving DecidableEq

/-- The loop over the page: `minTime` and `os`. -/
def scrollCursor (typedTuples : List (ℤ × Text)) : ℤ × ℕ :=
  typedTuples.foldl (fun (minTime, os) tuple =>
    if tuple.1 = minTime then (minTime, os + 1) else (tuple.1, 1)) (0, 1)

/-- `queryBlogOfFollow`; `none` where `Long.valueOf` throws, `some none` for the answer without
data. -/
def queryBlogOfFollow (feed : Feed) (max : ℤ) (offset : ℕ) : Option (Option ScrollResult) :=
  let typedTuples := feed.tuples.revRangeByScore 0 max offset 2
  if typedTuples.isEmpty then some none
  else
    (typedTuples.mapM fun tuple => Long.valueOf tuple.2).map fun ids =>
      some ⟨ids, (scrollCursor typedTuples).1, (scrollCursor typedTuples).2⟩

end Hmdp.Model
