import LanguageClient.Document.Snapshot
import LanguageClient.Path

namespace LanguageClient.Workspace

structure CompletionRequest where
  id : Int
  path : Path
  line : UInt32
  character : UInt32

/-- Requests by id, one for each id. -/
structure Pending where
  requests : List CompletionRequest := []

namespace Pending

def insert (p : Pending) (request : CompletionRequest) : Pending :=
  ⟨request :: p.requests.filter (·.id ≠ request.id)⟩

def get? (p : Pending) (id : Int) : Option CompletionRequest := p.requests.find? (·.id = id)

def take (p : Pending) (id : Int) : Option CompletionRequest × Pending :=
  (p.get? id, ⟨p.requests.filter (·.id ≠ id)⟩)

def contains (p : Pending) (id : Int) : Bool := (p.get? id).isSome

def size (p : Pending) : Nat := p.requests.length

def isEmpty (p : Pending) : Bool := p.requests.isEmpty

end Pending

end LanguageClient.Workspace
