import Hmdp.Model.Feed
import Mathlib.Data.Finset.Basic
import Mathlib.Logic.Function.Basic

/-!
# Likes and follows

`BlogServiceImpl.likeBlog` and `FollowServiceImpl.follow`, statement by statement over `tb_blog` and
`tb_follow` and the Redis sets beside them. A statement that fails is none of a call that does not
throw: it has no step. `tb_follow` has no unique key but its id. The members of `follows:<userId>`
are kept as ids.
-/

namespace Hmdp.Model

open Hmdp.Lib

/-- What likes and follows are kept in. -/
structure SocialStore where
  /-- `tb_blog.liked` -/
  liked : BlogId → Option ℕ
  /-- `blog:liked:<id>` -/
  likedBy : BlogId → ZSet Text
  /-- `user_id` and `follow_user_id` of the rows of `tb_follow` -/
  follows : List (UserId × UserId)
  /-- `follows:<userId>` -/
  followed : UserId → Finset UserId

/-- The likers of a blog change. -/
def SocialStore.setLikedBy (s : SocialStore) (id : BlogId) (members : ZSet Text) : SocialStore :=
  { s with likedBy := Function.update s.likedBy id members }

/-- The followed set of a user changes. -/
def SocialStore.setFollowed (s : SocialStore) (userId : UserId) (members : Finset UserId) :
    SocialStore :=
  { s with followed := Function.update s.followed userId members }

/-- Where a `likeBlog` stands: the statement that is next. -/
inductive LikePhase where
  | score
  | setSql (like : Bool)
  | zset (like : Bool)
  | returning
  deriving DecidableEq

/-- Where a `follow` stands. -/
inductive FollowPhase where
  /-- `save` or `remove` -/
  | database
  /-- `add` or `remove` -/
  | set
  | returning
  deriving DecidableEq

/-- `liked = liked + 1` or `liked = liked - 1` on an `int UNSIGNED`; `none` out of its range. -/
def setLiked (like : Bool) (liked : ℕ) : Option ℕ :=
  if like then if liked < 4294967295 then some (liked + 1) else none
  else if 0 < liked then some (liked - 1) else none

/-- The next statement of `likeBlog`; `now` is `System.currentTimeMillis`. -/
def SocialStore.likeBlog (s : SocialStore) (userId : UserId) (id : BlogId) (now : ℤ) :
    LikePhase → Option (SocialStore × LikePhase)
  | .score => some (s, .setSql (decide (userId.toText ∉ (s.likedBy id).members)))
  | .setSql like =>
    match s.liked id with
    | none => some (s, .returning)
    | some liked =>
      (setLiked like liked).map fun n =>
        ({ s with liked := Function.update s.liked id (some n) }, .zset like)
  | .zset like =>
    let likedBy := s.likedBy id
    let members := if like then likedBy.zadd now userId.toText else (likedBy.zrem [userId.toText]).2
    some (s.setLikedBy id members, .returning)
  | .returning => none

/-- The next statement of `follow`. -/
def SocialStore.follow (s : SocialStore) (userId followUserId : UserId) (isFollow : Bool) :
    FollowPhase → Option (SocialStore × FollowPhase)
  | .database =>
    if isFollow then some ({ s with follows := s.follows ++ [(userId, followUserId)] }, .set)
    else if (userId, followUserId) ∈ s.follows then
      some ({ s with follows := s.follows.filter (· ≠ (userId, followUserId)) }, .set)
    else some (s, .returning)
  | .set =>
    let followed := s.followed userId
    let members := if isFollow then insert followUserId followed else followed.erase followUserId
    some (s.setFollowed userId members, .returning)
  | .returning => none

theorem SocialStore.likeBlog_zset (s : SocialStore) (userId : UserId) (id : BlogId) (now : ℤ)
    (like : Bool) :
    s.likeBlog userId id now (.zset like) =
      some (s.setLikedBy id (if like then (s.likedBy id).zadd now userId.toText
        else ((s.likedBy id).zrem [userId.toText]).2), .returning) :=
  rfl

theorem SocialStore.follow_set (s : SocialStore) (userId followUserId : UserId)
    (isFollow : Bool) :
    s.follow userId followUserId isFollow .set =
      some (s.setFollowed userId (if isFollow then insert followUserId (s.followed userId)
        else (s.followed userId).erase followUserId), .returning) :=
  rfl

end Hmdp.Model
