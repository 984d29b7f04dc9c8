import Mathlib.Order.Basic

/-- A channel that holds one value, and counts how often it has been sent to. -/
structure WatchChannel (α : Type*) where
  value : α
  version : ℕ := 0

namespace WatchChannel

variable {α : Type*}

/-- A receiver knows the last version that it has seen. -/
structure Receiver where
  seen : ℕ
deriving DecidableEq

/-- Nothing is sent when there is no receiver. -/
def send (channel : WatchChannel α) (receivers : ℕ) (value : α) : WatchChannel α :=
  if receivers = 0 then channel else ⟨value, channel.version + 1⟩

/-- A new receiver has seen what there is. -/
def subscribe (channel : WatchChannel α) : Receiver := ⟨channel.version⟩

/-- Whether there is something that a receiver has not seen. -/
def Changed (channel : WatchChannel α) (receiver : Receiver) : Prop :=
  receiver.seen ≠ channel.version

instance (channel : WatchChannel α) (receiver : Receiver) :
    Decidable (channel.Changed receiver) := inferInstanceAs (Decidable (_ ≠ _))

variable {channel : WatchChannel α} {receiver : Receiver} {receivers : ℕ} {value : α}

theorem not_changed_subscribe : ¬channel.Changed channel.subscribe := fun h => h rfl

theorem send_of_pos (h : 0 < receivers) :
    channel.send receivers value = ⟨value, channel.version + 1⟩ := by
  unfold send
  rw [if_neg (Nat.ne_of_gt h)]

theorem changed_send (h : 0 < receivers) (hseen : receiver.seen ≤ channel.version) :
    (channel.send receivers value).Changed receiver := by
  rw [send_of_pos h]
  exact Nat.ne_of_lt (Nat.lt_succ_of_le hseen)

theorem version_le_send : channel.version ≤ (channel.send receivers value).version := by
  unfold send
  split
  · exact Nat.le_refl _
  · exact Nat.le_succ _

end WatchChannel
