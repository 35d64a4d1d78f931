import Mathlib.Data.List.Basic
import Mathlib.Logic.Function.Basic

/-! # Broadcast

Parties that share a medium. What one of them sends, every other one has in its inbox, in the
order in which it was sent.
-/

namespace CanOpen

/-- What each party has been sent and has not taken yet, oldest first. -/
abbrev Inboxes (κ : Type u) (φ : Type v) := κ → List φ

namespace Inboxes

variable {κ : Type u} {φ : Type v} [DecidableEq κ]

/-- Send a frame to every party but the sender, if that is one of them. -/
def broadcast (inboxes : Inboxes κ φ) (sender : Option κ) (frame : φ) : Inboxes κ φ :=
  fun party => if sender = some party then inboxes party else inboxes party ++ [frame]

def broadcastAll (inboxes : Inboxes κ φ) (sender : Option κ) (frames : List φ) : Inboxes κ φ :=
  frames.foldl (fun inboxes frame => inboxes.broadcast sender frame) inboxes

theorem broadcast_sender (inboxes : Inboxes κ φ) (party : κ) (frame : φ) :
    inboxes.broadcast (some party) frame party = inboxes party :=
  if_pos rfl

theorem broadcast_other (inboxes : Inboxes κ φ) {sender : Option κ} {party : κ}
    (other : sender ≠ some party) (frame : φ) :
    inboxes.broadcast sender frame party = inboxes party ++ [frame] :=
  if_neg other

theorem broadcastAll_sender (inboxes : Inboxes κ φ) (party : κ) (frames : List φ) :
    inboxes.broadcastAll (some party) frames party = inboxes party := by
  induction frames generalizing inboxes with
  | nil => rfl
  | cons frame frames induction =>
      exact (induction (inboxes.broadcast (some party) frame)).trans
        (inboxes.broadcast_sender party frame)

theorem broadcastAll_other (inboxes : Inboxes κ φ) {sender : Option κ} {party : κ}
    (other : sender ≠ some party) (frames : List φ) :
    inboxes.broadcastAll sender frames party = inboxes party ++ frames := by
  induction frames generalizing inboxes with
  | nil => exact (List.append_nil _).symm
  | cons frame frames induction =>
      rw [List.append_cons, ← inboxes.broadcast_other other frame]
      exact induction (inboxes.broadcast sender frame)

end Inboxes

end CanOpen
