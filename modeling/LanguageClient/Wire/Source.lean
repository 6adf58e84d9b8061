import LanguageClient.Bytes

namespace LanguageClient.Wire

/-- Something that reads of a pipe meet. -/
inductive Arrival where
  | data (bytes : Bytes)
  | interruption
  | failure (reason : String)

/-- What is still to arrive, how many bytes the reads are granted at most, and how many reads were
made and bytes taken so far. -/
structure Source where
  pending : List Arrival
  grant : Nat → Nat := fun _ => 65536
  reads : Nat := 0
  taken : Nat := 0

/-- What one read gives. No bytes mean that the stream has ended. -/
inductive Read where
  | data (bytes : Bytes)
  | interrupted
  | failed (reason : String)

def Read.isEnd : Read → Bool
  | .data [] => true
  | _ => false

namespace Arrival

def size : Arrival → Nat
  | data bytes => bytes.length + 1
  | interruption => 1
  | failure _ => 1

def sizes : List Arrival → Nat
  | [] => 0
  | a :: rest => a.size + sizes rest

def bytes : Arrival → Bytes
  | data bytes => bytes
  | _ => []

end Arrival

namespace Source

/-- A bound on the reads that are left before the end. -/
def size (s : Source) : Nat := Arrival.sizes s.pending

def remaining (s : Source) : Bytes := s.pending.flatMap Arrival.bytes

/-- One read of at most `n` bytes. It takes at least one byte if there is one and any are granted,
never more than it is granted, and never bytes of two pieces. -/
def read (s : Source) (n : Nat) : Read × Source :=
  go s.pending
where
  go : List Arrival → Read × Source
    | [] => (.data [], { s with pending := [], reads := s.reads + 1 })
    | .interruption :: rest => (.interrupted, { s with pending := rest, reads := s.reads + 1 })
    | .failure reason :: rest =>
      (.failed reason, { s with pending := rest, reads := s.reads + 1 })
    | .data [] :: rest => go rest
    | .data (b :: bytes) :: rest =>
      if s.grant s.reads = 0 then
        (.data [], { s with pending := .data (b :: bytes) :: rest, reads := s.reads + 1 })
      else
        let count := min (n - 1) (s.grant s.reads - 1)
        let more := bytes.take count
        let left := bytes.drop count
        (.data (b :: more),
          { s with
            pending := if left.isEmpty then rest else .data left :: rest
            reads := s.reads + 1
            taken := s.taken + 1 + more.length })

theorem size_go_le (s : Source) (n : Nat) (pending : List Arrival) :
    (read.go s n pending).2.size ≤ Arrival.sizes pending ∧
      ((read.go s n pending).1.isEnd = false →
        (read.go s n pending).2.size < Arrival.sizes pending) := by
  induction pending with
  | nil => simp [read.go, size, Read.isEnd]
  | cons a rest ih =>
    cases a with
    | interruption => simp [read.go, size, Arrival.sizes, Arrival.size]
    | failure reason => simp [read.go, size, Arrival.sizes, Arrival.size]
    | data bytes =>
      cases bytes with
      | nil =>
        rw [read.go]
        simp only [Arrival.sizes]
        exact ⟨by omega, fun h => by have := ih.2 h; omega⟩
      | cons b bytes =>
        by_cases hg : s.grant s.reads = 0
        · simp [read.go, hg, size, Read.isEnd]
        have : (read.go s n (.data (b :: bytes) :: rest)).2.size <
            Arrival.sizes (.data (b :: bytes) :: rest) := by
          simp only [read.go, hg, size, Arrival.sizes, Arrival.size, List.length_cons, if_false]
          split
          · omega
          · simp only [Arrival.sizes, Arrival.size, List.length_drop]
            omega
        exact ⟨Nat.le_of_lt this, fun _ => this⟩

theorem size_read_le (s : Source) (n : Nat) : (s.read n).2.size ≤ s.size :=
  (size_go_le s n s.pending).1

theorem size_read_lt {s : Source} {n : Nat} (h : (s.read n).1.isEnd = false) :
    (s.read n).2.size < s.size :=
  (size_go_le s n s.pending).2 h

end Source

end LanguageClient.Wire
