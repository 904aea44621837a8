import Mathlib.Data.List.Infix

/-!
# Histories

A history is the list of the events so far, newest first. In a justified history each event is
warranted by those before it; what a warrant needs may have held in an earlier history, and so it
is not lost when events follow.

* `Justified`: every event had its warrant when it happened.
* `Earlier`: what held once, and is not lost when events follow.
-/

namespace Hmdp.Lib

variable {ε : Type*}

/-- Each event is warranted by the events before it. -/
def Justified (warrants : List ε → ε → Prop) : List ε → Prop
  | [] => True
  | e :: h => warrants h e ∧ Justified warrants h

/-- It held of a history before, or of this one. -/
def Earlier (P : List ε → Prop) (h : List ε) : Prop := ∃ h₀, h₀ <:+ h ∧ P h₀

variable {warrants : List ε → ε → Prop} {P : List ε → Prop} {h : List ε} {e : ε}

theorem earlier_now (hP : P h) : Earlier P h := ⟨h, List.suffix_rfl, hP⟩

theorem earlier_cons (e : ε) (hP : Earlier P h) : Earlier P (e :: h) := by
  obtain ⟨h₀, hsuffix, hP⟩ := hP
  exact ⟨h₀, hsuffix.trans (List.suffix_cons e h), hP⟩

end Hmdp.Lib
