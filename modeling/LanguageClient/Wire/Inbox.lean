import LanguageClient.Bytes

namespace LanguageClient.Wire

/-- Frames that wait to be received, the oldest first. -/
structure Inbox where
  capacity : Nat
  frames : List Bytes := []
  closed : Bool := false
  dropped : Nat := 0
  capacity_pos : 0 < capacity := by omega

/-- What an attempt to receive gives. -/
inductive Received where
  | frame (body : Bytes)
  | timeout
  | closed
  deriving DecidableEq

namespace Inbox

/-- An empty inbox. It always has room for one frame. -/
def ofCapacity (capacity : Nat) : Inbox where
  capacity := max capacity 1

/-- Adds a frame and says whether nothing had to be discarded for it. -/
def push (inbox : Inbox) (frame : Bytes) : Bool × Inbox :=
  let excess := inbox.frames.length + 1 - inbox.capacity
  (excess = 0,
    { inbox with
      frames := inbox.frames.drop excess ++ [frame]
      dropped := inbox.dropped + excess })

def close (inbox : Inbox) : Inbox := { inbox with closed := true }

/-- Takes the oldest frame out. An empty inbox is either closed for good or makes one wait. -/
def receive (inbox : Inbox) : Received × Inbox :=
  match inbox.frames with
  | frame :: rest => (.frame frame, { inbox with frames := rest })
  | [] => (if inbox.closed then .closed else .timeout, inbox)

def drain (inbox : Inbox) : List Bytes × Inbox := (inbox.frames, { inbox with frames := [] })

def pushAll (inbox : Inbox) (frames : List Bytes) : Inbox :=
  frames.foldl (fun inbox frame => (inbox.push frame).2) inbox

theorem push_of_lt {inbox : Inbox} (h : inbox.frames.length < inbox.capacity) (frame : Bytes) :
    inbox.push frame = (true, { inbox with frames := inbox.frames ++ [frame] }) := by
  have hexcess : inbox.frames.length + 1 - inbox.capacity = 0 := by omega
  rw [push, hexcess]
  rfl

theorem push_of_eq {inbox : Inbox} {oldest : Bytes} {rest : List Bytes}
    (hframes : inbox.frames = oldest :: rest) (h : inbox.frames.length = inbox.capacity)
    (frame : Bytes) :
    inbox.push frame =
      (false, { inbox with frames := rest ++ [frame], dropped := inbox.dropped + 1 }) := by
  have hexcess : inbox.frames.length + 1 - inbox.capacity = 1 := by omega
  rw [push, hexcess, hframes]
  rfl

/-- How many frames are gone after more are added, one at a time. -/
def excess (inbox : Inbox) (more : Nat) : Nat := inbox.frames.length + more - inbox.capacity

theorem pushAll_eq {inbox : Inbox} (h : inbox.frames.length ≤ inbox.capacity)
    (frames : List Bytes) :
    inbox.pushAll frames =
      { inbox with
        frames := (inbox.frames ++ frames).drop (inbox.excess frames.length)
        dropped := inbox.dropped + inbox.excess frames.length } := by
  induction frames generalizing inbox with
  | nil =>
    have hnone : inbox.excess 0 = 0 := Nat.sub_eq_zero_of_le h
    rw [pushAll, List.foldl_nil, List.length_nil, hnone, List.append_nil]
    rfl
  | cons frame rest ih =>
    have hstep : inbox.pushAll (frame :: rest) = (inbox.push frame).2.pushAll rest := rfl
    rcases Nat.lt_or_eq_of_le h with hlt | heq
    · have hexcess : inbox.excess (rest.length + 1) =
          inbox.frames.length + 1 + rest.length - inbox.capacity := by
        rw [excess]
        omega
      rw [hstep, push_of_lt hlt, ih (by simpa using Nat.succ_le_of_lt hlt), List.length_cons, hexcess]
      simp [excess]
    · obtain ⟨oldest, others, hframes⟩ :=
        List.exists_cons_of_length_pos (heq ▸ inbox.capacity_pos)
      have hlength : (others ++ [frame]).length = inbox.capacity := by
        rw [← heq, hframes, List.length_append]
        rfl
      have hexcess : inbox.excess (rest.length + 1) = rest.length + 1 := by
        rw [excess]
        omega
      rw [hstep, push_of_eq hframes heq, ih (Nat.le_of_eq hlength), List.length_cons, hexcess]
      simp [excess, hframes, hlength, Nat.add_comm, Nat.add_left_comm]

end Inbox

end LanguageClient.Wire
