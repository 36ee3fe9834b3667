import StorageAtlas.Text.Basic

/-!
Mappings from names to values that keep the order in which the names came.
Giving a name a new value leaves it in its place.
-/

namespace StorageAtlas

structure OrderedMap (α : Type) where
  pairs : List (Text × α) := []
  deriving DecidableEq, Repr

abbrev Attributes := OrderedMap Text

namespace OrderedMap

variable {α : Type}

def empty : OrderedMap α := ⟨[]⟩

def putInto (name : Text) (value : α) : List (Text × α) → List (Text × α)
  | [] => [(name, value)]
  | (n, v) :: r => if n = name then (n, value) :: r else (n, v) :: putInto name value r

def put (m : OrderedMap α) (name : Text) (value : α) : OrderedMap α :=
  ⟨putInto name value m.pairs⟩

def get? (m : OrderedMap α) (name : Text) : Option α := m.pairs.lookup name

def names (m : OrderedMap α) : List Text := m.pairs.map Prod.fst

def isEmpty (m : OrderedMap α) : Bool := m.pairs.isEmpty

/-- Puts the pairs in, one after the other. -/
def putAll (m : OrderedMap α) (pairs : List (Text × α)) : OrderedMap α :=
  pairs.foldl (fun m (name, value) => m.put name value) m

def update (m other : OrderedMap α) : OrderedMap α := m.putAll other.pairs

def ofList (pairs : List (Text × α)) : OrderedMap α := empty.putAll pairs

/-- Puts a start before each name. -/
def prepend (start : Text) (m : OrderedMap α) : OrderedMap α :=
  ofList (m.pairs.map fun (name, value) => (start ++ name, value))

def filterNames (p : Text → Bool) (m : OrderedMap α) : OrderedMap α :=
  ⟨m.pairs.filter fun (name, _) => p name⟩

theorem names_put (m : OrderedMap α) (name : Text) (value : α) :
    (m.put name value).names = if name ∈ m.names then m.names else m.names ++ [name] := by
  obtain ⟨pairs⟩ := m
  simp only [put, names]
  induction pairs with
  | nil => simp [putInto]
  | cons p r ih =>
    obtain ⟨k, v⟩ := p
    by_cases hk : k = name
    · subst hk; simp [putInto]
    · have hk' : name ≠ k := fun e => hk e.symm
      simp only [putInto, hk, ↓reduceIte, List.map_cons, ih, List.mem_cons, hk', false_or]
      by_cases h : name ∈ r.map Prod.fst <;> simp [h]

end OrderedMap
end StorageAtlas
