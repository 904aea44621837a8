import Mathlib.Data.Finset.Basic

/-!
# Read/write locks

A lock is held by some readers or by one writer; a state with both cannot be built. The holders
are of any type (threads, sessions). `holds_exclusive` is what a writer relies on.
-/

namespace Hmdp.Lib

variable {α : Type*} [DecidableEq α]

/-- The two ways to hold it. -/
inductive LockMode where
  | read
  | write
  deriving DecidableEq

/-- Any number of readers, or one writer. -/
inductive RwLock (α : Type*) where
  | readers (holders : Finset α)
  | writer (holder : α)

namespace RwLock

/-- Nobody holds the lock. -/
def free : RwLock α := .readers ∅

/-- The caller holds the lock in the mode. -/
def Holds : RwLock α → LockMode → α → Prop
  | .readers holders, .read, a => a ∈ holders
  | .writer holder, .write, a => a = holder
  | .readers _, .write, _ => False
  | .writer _, .read, _ => False

/-- `none` where the caller would have to wait. -/
def acquire : RwLock α → LockMode → α → Option (RwLock α)
  | .readers holders, .read, a => some (.readers (insert a holders))
  | .readers holders, .write, a => if holders = ∅ then some (.writer a) else none
  | .writer _, _, _ => none

/-- The lock after the caller has given it up. -/
def release : RwLock α → α → RwLock α
  | .readers holders, a => .readers (holders.erase a)
  | .writer holder, a => if a = holder then free else .writer holder

variable {l l' : RwLock α} {m m' : LockMode} {a b : α}

theorem holds_of_acquire (h : l.acquire m a = some l') : l'.Holds m a := by
  cases l with
  | readers holders =>
    cases m with
    | read =>
      cases h
      exact Finset.mem_insert_self a holders
    | write =>
      simp only [acquire] at h
      split at h <;> cases h
      rfl
  | writer holder => cases h

/-- Who holds the lock keeps it when another acquires it. -/
theorem holds_acquire (h : l.acquire m a = some l') (hb : l.Holds m' b) : l'.Holds m' b := by
  cases l with
  | readers holders =>
    cases m' with
    | write => exact absurd hb id
    | read =>
      cases m with
      | read =>
        cases h
        exact Finset.mem_insert_of_mem hb
      | write =>
        simp only [acquire] at h
        split at h
        · rename_i hnone
          rw [hnone] at hb
          exact absurd hb (Finset.notMem_empty b)
        · cases h
  | writer holder => cases h

omit [DecidableEq α] in
/-- **A writer excludes everybody else.** -/
theorem holds_exclusive (ha : l.Holds .write a) (hb : l.Holds m b) : m = .write ∧ b = a := by
  cases l with
  | readers holders => exact absurd ha id
  | writer holder =>
    cases m with
    | read => exact absurd hb id
    | write => exact ⟨rfl, hb.trans ha.symm⟩

theorem holds_release (hne : b ≠ a) (hb : l.Holds m b) : (l.release a).Holds m b := by
  cases l with
  | readers holders =>
    cases m with
    | read => exact Finset.mem_erase.mpr ⟨hne, hb⟩
    | write => exact hb
  | writer holder =>
    cases m with
    | read => exact absurd hb id
    | write =>
      have hb : b = holder := hb
      have hkept : (writer holder).release a = writer holder :=
        if_neg fun h => hne (hb.trans h.symm)
      rw [hkept]
      exact hb

end RwLock

end Hmdp.Lib
