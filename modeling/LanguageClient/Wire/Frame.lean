import LanguageClient.Text.Blank
import LanguageClient.Text.Utf8
import LanguageClient.Wire.Fault
import LanguageClient.Wire.Source

namespace LanguageClient.Wire.Frame

def headerLimit : Nat := 8192

def bodyLimit : Nat := 64 * 1024 * 1024

def lengthLabel : List Char := "Content-Length:".toList

def lineBreak : List Char := ['\r', '\n']

def header (length : Nat) : List Char :=
  lengthLabel ++ ' ' :: (Decimal.digits length ++ lineBreak ++ lineBreak)

/-- A body as a frame. -/
def encode (body : Bytes) : Bytes := Utf8.encode (header body.length) ++ body

def lines : List Char → List (List Char)
  | [] => [[]]
  | '\r' :: '\n' :: rest => [] :: lines rest
  | c :: rest =>
    match lines rest with
    | line :: others => (c :: line) :: others
    | [] => [[c]]

def afterLabel? (line : List Char) : Option (List Char) :=
  if lengthLabel.isPrefixOf line then some (line.drop lengthLabel.length) else none

/-- The length that a header gives. The first line with the label decides. -/
def contentLength (header : Bytes) : Except Fault Nat :=
  match Utf8.decode? header with
  | none => .error .invalidHeader
  | some text =>
    match (lines text.toList).findSome? afterLabel? with
    | none => .error .missingContentLength
    | some value =>
      match Decimal.readWord? 64 (Text.trim value) with
      | some length => .ok length
      | none => .error .invalidHeader

/-- Whether bytes, the newest first, end with an empty line. -/
def isTerminated : Bytes → Bool
  | 10 :: 13 :: 10 :: 13 :: _ => true
  | _ => false

/-- Reads bytes one by one up to and including an empty line, at most `room` of them. The bytes
seen so far come newest first. -/
def readHeader (seen : Bytes) (room : Nat) (s : Source) : Except Fault Bytes × Source :=
  if isTerminated seen then (.ok seen.reverse, s)
  else if room = 0 then (.error .invalidHeader, s)
  else
    match h : s.read 1 with
    | (.data (b :: _), rest) => readHeader (b :: seen) (room - 1) rest
    | (.data [], rest) => (.error .closed, rest)
    | (.interrupted, rest) => readHeader seen room rest
    | (.failed reason, rest) => (.error (.io reason), rest)
termination_by s.size
decreasing_by
  · have := Source.size_read_lt (s := s) (n := 1) (by simp [h, Read.isEnd])
    simpa [h] using this
  · have := Source.size_read_lt (s := s) (n := 1) (by simp [h, Read.isEnd])
    simpa [h] using this

/-- Reads exactly `left` bytes behind those seen so far, which come newest first. -/
def readBody (seen : Bytes) (left : Nat) (s : Source) : Except Fault Bytes × Source :=
  if left = 0 then (.ok seen.reverse, s)
  else
    match h : s.read left with
    | (.data (b :: bytes), rest) =>
      readBody ((b :: bytes).reverse ++ seen) (left - (bytes.length + 1)) rest
    | (.data [], rest) => (.error .closed, rest)
    | (.interrupted, rest) => readBody seen left rest
    | (.failed reason, rest) => (.error (.io reason), rest)
termination_by s.size
decreasing_by
  · have := Source.size_read_lt (s := s) (n := left) (by simp [h, Read.isEnd])
    simpa [h] using this
  · have := Source.size_read_lt (s := s) (n := left) (by simp [h, Read.isEnd])
    simpa [h] using this

/-- Reads one frame and gives its body. -/
def read (s : Source) : Except Fault Bytes × Source :=
  match readHeader [] headerLimit s with
  | (.error fault, rest) => (.error fault, rest)
  | (.ok header, rest) =>
    match contentLength header with
    | .error fault => (.error fault, rest)
    | .ok length =>
      if bodyLimit < length then (.error (.frameTooLarge length bodyLimit), rest)
      else readBody [] length rest

theorem size_readHeader_le (seen : Bytes) (room : Nat) (s : Source) :
    (readHeader seen room s).2.size ≤ s.size := by
  fun_induction readHeader seen room s with
  | case1 | case2 => simp
  | case3 seen room s _ _ b more rest h ih =>
    have := Source.size_read_le s 1
    rw [h] at this
    exact Nat.le_trans ih this
  | case4 seen room s _ _ rest h =>
    have := Source.size_read_le s 1
    rwa [h] at this
  | case5 seen room s _ _ rest h ih =>
    have := Source.size_read_le s 1
    rw [h] at this
    exact Nat.le_trans ih this
  | case6 seen room s _ _ reason rest h =>
    have := Source.size_read_le s 1
    rwa [h] at this

theorem size_readBody_le (seen : Bytes) (left : Nat) (s : Source) :
    (readBody seen left s).2.size ≤ s.size := by
  fun_induction readBody seen left s with
  | case1 => simp
  | case2 seen left s _ b bytes rest h ih =>
    have := Source.size_read_le s left
    rw [h] at this
    exact Nat.le_trans ih this
  | case3 seen left s _ rest h =>
    have := Source.size_read_le s left
    rwa [h] at this
  | case4 seen left s _ rest h ih =>
    have := Source.size_read_le s left
    rw [h] at this
    exact Nat.le_trans ih this
  | case5 seen left s _ reason rest h =>
    have := Source.size_read_le s left
    rwa [h] at this

theorem size_readHeader_lt {s : Source} (h : (readHeader [] headerLimit s).1 ≠ .error .closed) :
    (readHeader [] headerLimit s).2.size < s.size := by
  rw [readHeader, if_neg (by decide), if_neg (by decide)] at h ⊢
  split
  · rename_i b more rest hr
    have hlt := Source.size_read_lt (s := s) (n := 1) (by simp [hr, Read.isEnd])
    rw [hr] at hlt
    exact Nat.lt_of_le_of_lt (size_readHeader_le _ _ _) hlt
  · rename_i rest hr
    exact absurd (by split <;> simp_all) h
  · rename_i rest hr
    have hlt := Source.size_read_lt (s := s) (n := 1) (by simp [hr, Read.isEnd])
    rw [hr] at hlt
    exact Nat.lt_of_le_of_lt (size_readHeader_le _ _ _) hlt
  · rename_i reason rest hr
    have hlt := Source.size_read_lt (s := s) (n := 1) (by simp [hr, Read.isEnd])
    rwa [hr] at hlt

/-- A frame that is not read to the end of the stream uses up a part of it. -/
theorem size_read_lt {s : Source} (h : (read s).1 ≠ .error .closed) :
    (read s).2.size < s.size := by
  rw [read] at h ⊢
  split at h
  · rename_i fault rest hr
    have := size_readHeader_lt (s := s) (by rw [hr]; simpa using h)
    rwa [hr] at this
  · rename_i header rest hr
    have hlt := size_readHeader_lt (s := s) (by rw [hr]; simp)
    rw [hr] at hlt
    split
    · exact hlt
    · split
      · exact hlt
      · exact Nat.lt_of_le_of_lt (size_readBody_le _ _ _) hlt

end LanguageClient.Wire.Frame
