/-!
Reliable ordered channels of bounded capacity, and the law that what was sent is
what was received followed by what is still in the channel.
-/

structure Channel (Item : Type) where
  capacity : Nat
  content : List Item

namespace Channel

variable {Item : Type}

def send (channel : Channel Item) (data : List Item) : Option (Channel Item) :=
  if channel.content.length + data.length ≤ channel.capacity then
    some { channel with content := channel.content ++ data }
  else none

def receive [DecidableEq Item] (channel : Channel Item) (data : List Item) :
    Option (Channel Item) :=
  if data = channel.content.take data.length then
    some { channel with content := channel.content.drop data.length }
  else none

variable {channel next : Channel Item} {data sent received : List Item}

theorem send_eq (taken : channel.send data = some next) :
    next.content = channel.content ++ data ∧ next.capacity = channel.capacity ∧
      next.content.length ≤ next.capacity := by
  simp only [send] at taken
  split at taken
  · rename_i fits
    simp only [Option.some.injEq] at taken
    subst next
    exact ⟨rfl, rfl, by simpa using fits⟩
  · simp at taken

theorem receive_eq [DecidableEq Item] (taken : channel.receive data = some next) :
    channel.content = data ++ next.content ∧ next.capacity = channel.capacity := by
  simp only [receive] at taken
  split at taken
  · rename_i oldest
    simp only [Option.some.injEq] at taken
    subst next
    refine ⟨?_, rfl⟩
    calc channel.content
        = channel.content.take data.length ++ channel.content.drop data.length := by simp
      _ = data ++ channel.content.drop data.length := by rw [← oldest]
  · simp at taken

/-- Nothing is lost, repeated or reordered between the two ends. -/
def Carries (channel : Channel Item) (sent received : List Item) : Prop :=
  sent = received ++ channel.content

theorem Carries.send (carries : channel.Carries sent received)
    (taken : channel.send data = some next) : next.Carries (sent ++ data) received := by
  have appended := (send_eq taken).1
  unfold Carries at *
  rw [carries, appended, List.append_assoc]

theorem Carries.receive [DecidableEq Item] (carries : channel.Carries sent received)
    (taken : channel.receive data = some next) : next.Carries sent (received ++ data) := by
  have removed := (receive_eq taken).1
  unfold Carries at *
  rw [carries, removed, List.append_assoc]

theorem Carries.length (carries : channel.Carries sent received) :
    sent.length = received.length + channel.content.length := by
  rw [carries, List.length_append]

end Channel
