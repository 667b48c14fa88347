import NotebookCleaning.Json.Basic

/-!
# Which cell metadata to keep

A `FieldSet` is a set of field names, kept in ascending order of their code points. A
`MetadataPolicy` says which fields of a cell's metadata survive.
-/

namespace NotebookCleaning

structure FieldSet where
  fields : List String
  ascending : fields.Pairwise (· < ·)
  deriving DecidableEq

namespace FieldSet

def empty : FieldSet := ⟨[], .nil⟩

/-- Puts a name in its place unless it is there. -/
def place (f : String) : List String → List String
  | [] => [f]
  | g :: gs => if f < g then f :: g :: gs else if f = g then g :: gs else g :: place f gs

theorem mem_place {f g : String} {fs : List String} : g ∈ place f fs ↔ g = f ∨ g ∈ fs := by
  induction fs with
  | nil => simp [place]
  | cons h hs ih =>
    simp only [place]
    split
    · simp
    · split
      · next heq => subst heq; simp
      · simp only [List.mem_cons, ih]
        exact or_left_comm

theorem place_ascending {f : String} {fs : List String} (hfs : fs.Pairwise (· < ·)) :
    (place f fs).Pairwise (· < ·) := by
  induction fs with
  | nil => simp [place]
  | cons g gs ih =>
    have hgs := List.pairwise_cons.mp hfs
    simp only [place]
    split
    · next hlt =>
      refine List.pairwise_cons.mpr ⟨fun h hh => ?_, hfs⟩
      rcases List.mem_cons.mp hh with rfl | hmem
      · exact hlt
      · exact String.lt_trans hlt (hgs.1 h hmem)
    · next hlt =>
      split
      · exact hfs
      · next hne =>
        refine List.pairwise_cons.mpr ⟨fun h hh => ?_, ih hgs.2⟩
        rcases mem_place.mp hh with rfl | hmem
        · exact Std.lt_of_le_of_ne (String.not_lt.mp hlt) fun heq => hne heq.symm
        · exact hgs.1 h hmem

def insert (f : String) (s : FieldSet) : FieldSet := ⟨place f s.fields, place_ascending s.ascending⟩

def ofList (fs : List String) : FieldSet := fs.foldl (fun s f => s.insert f) empty

def contains (s : FieldSet) (f : String) : Bool := s.fields.contains f

theorem mem_foldl_insert {f : String} {fs : List String} {s : FieldSet} :
    f ∈ (fs.foldl (fun s f => s.insert f) s).fields ↔ f ∈ s.fields ∨ f ∈ fs := by
  induction fs generalizing s with
  | nil => simp
  | cons g gs ih =>
    rw [List.foldl_cons, ih]
    simp only [insert, mem_place, List.mem_cons]
    rw [or_assoc, or_left_comm]

@[simp]
theorem mem_ofList {f : String} {fs : List String} : f ∈ (ofList fs).fields ↔ f ∈ fs := by
  simp [ofList, mem_foldl_insert, empty]

end FieldSet

inductive MetadataPolicy where
  | strip
  | preserveAll
  | preserve (fields : FieldSet)
  deriving DecidableEq

namespace MetadataPolicy

def keeps : MetadataPolicy → String → Bool
  | strip, _ => false
  | preserveAll, _ => true
  | preserve fields, f => fields.contains f

/-- The policy of a request for fields. No request keeps nothing, and a request that names no field
keeps everything. -/
def ofRequest : Option (List String) → MetadataPolicy
  | none => strip
  | some [] => preserveAll
  | some fs => preserve (.ofList fs)

def toJson : MetadataPolicy → Json
  | strip => .obj [("mode", .str "strip")]
  | preserveAll => .obj [("mode", .str "preserve_all")]
  | preserve fields =>
    .obj [("mode", .str "preserve"), ("fields", .arr (fields.fields.map .str))]

end MetadataPolicy

end NotebookCleaning
