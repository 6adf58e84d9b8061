import LanguageClient.Suggest.Grade

namespace LanguageClient.Suggest

open Document (Cursor)

/-- The entries of a completion result, which is a list, an object that holds one, or null. -/
def entries? : Json → Option (List Json)
  | .arr entries => some entries
  | .obj members => match members.lookup "items" with
    | some (.arr entries) => some entries
    | _ => none
  | .null => some []
  | _ => none

/-- Takes an offer in: it replaces an earlier offer of the same completion if it sorts before it,
and it is added at the end if there is none. -/
def merge (item : Item) : List Item → List Item
  | [] => [item]
  | kept :: rest =>
    if kept.identity = item.identity then
      (if item.sortKey < kept.sortKey then item else kept) :: rest
    else kept :: merge item rest

/-- One item for each completion, in the order in which the completions were first offered. -/
def distinct (items : List Item) : List Item := items.foldl (fun kept item => merge item kept) []

structure Ranked where
  items : List Item
  selected : Nat

/-- The index of the first item whose label begins with the word, or zero. -/
def firstMatch (word : String) (items : List Item) : Nat :=
  (items.findIdx? fun item => beginsWith item.label word).getD 0

/-- The items to offer at a cursor for a server's entries, at most `limit` of them. -/
def rank (entries : List Json) (cursor : Cursor) (limit : Nat) : Ranked :=
  let relevant := (entries.map (Item.ofEntry · cursor)).filter (·.isRelevant cursor.place)
  let graded := (distinct relevant).map (Item.prioritize cursor.place cursor.word)
  let items := (graded.mergeSort fun a b => decide (a.sortKey ≤ b.sortKey)).take limit
  ⟨items, firstMatch cursor.word items⟩

end LanguageClient.Suggest
