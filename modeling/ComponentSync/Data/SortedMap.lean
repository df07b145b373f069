/-!
Maps from text keys, kept as a list of entries in increasing key order with no key twice. Keys
compare character by character, by code point, which is also the order of their UTF-8 bytes.
-/
namespace ComponentSync

/-- A map from text keys, its entries in increasing key order. -/
structure SortedMap (α : Type) where
  entries : List (String × α)
  deriving Repr, Inhabited

namespace SortedMap

variable {α : Type}

def empty : SortedMap α := ⟨[]⟩

/-- Puts `v` at `k` in an entry list, replacing the value already there. -/
def insertList (k : String) (v : α) : List (String × α) → List (String × α)
  | [] => [(k, v)]
  | (k', v') :: rest =>
    if k < k' then (k, v) :: (k', v') :: rest
    else if k = k' then (k, v) :: rest
    else (k', v') :: insertList k v rest

/-- Puts `v` at `k`, replacing the value already there. -/
def insert (m : SortedMap α) (k : String) (v : α) : SortedMap α :=
  ⟨insertList k v m.entries⟩

def get? (m : SortedMap α) (k : String) : Option α :=
  (m.entries.find? (·.1 == k)).map (·.2)

def contains (m : SortedMap α) (k : String) : Bool :=
  m.entries.any (·.1 == k)

def keys (m : SortedMap α) : List String :=
  m.entries.map (·.1)

def isEmpty (m : SortedMap α) : Bool :=
  m.entries.isEmpty

def erase (m : SortedMap α) (k : String) : SortedMap α :=
  ⟨m.entries.filter (·.1 != k)⟩

/-- The map of a list of pairs, a later pair winning over an earlier one with its key. -/
def ofList (pairs : List (String × α)) : SortedMap α :=
  pairs.foldl (fun m (k, v) => m.insert k v) empty

theorem get?_insert_self (m : SortedMap α) (k : String) (v : α) :
    (m.insert k v).get? k = some v := by
  obtain ⟨es⟩ := m
  simp only [insert, get?]
  induction es with
  | nil => simp [insertList]
  | cons e rest ih =>
    obtain ⟨k', v'⟩ := e
    simp only [insertList]
    by_cases h1 : k < k'
    · simp [h1]
    · by_cases h2 : k = k'
      · simp [h2]
      · simp only [h1, h2, if_false, List.find?_cons]
        have : (k' == k) = false := by simp; exact fun h => h2 h.symm
        simpa [this] using ih

end SortedMap

end ComponentSync
