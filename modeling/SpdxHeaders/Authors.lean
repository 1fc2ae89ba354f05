import SpdxHeaders.Text.Basic

/-!
# Author lists

The authors of all converted files, in order and each once, and the markdown that lists them. The
entries come in batches, which a registry collects.
-/

namespace SpdxHeaders.Authors

/-- Leaves one of each run of equal texts. -/
def dropRepeats : List Text → List Text
  | a :: b :: ts => if a = b then dropRepeats (b :: ts) else a :: dropRepeats (b :: ts)
  | ts => ts

/-- The author list of entries: sorted, and each entry once. -/
def ofEntries (entries : List Text) : List Text :=
  dropRepeats (Text.sort entries)

/-- The entries that were collected so far. -/
structure Registry where
  entries : List Text := []
  deriving DecidableEq, Repr

namespace Registry

/-- Adds a batch of entries behind those collected before. -/
def extend (r : Registry) (batch : List Text) : Registry :=
  ⟨r.entries ++ batch⟩

/-- The author list of what was collected. The collection can go on. -/
def finalize (r : Registry) : List Text :=
  ofEntries r.entries

end Registry

/-- The markdown that lists authors. -/
def markdown (authors : List Text) : Text :=
  "# Authors\n\n".toList ++ authors.flatMap fun a => "- ".toList ++ a ++ ['\n']

end SpdxHeaders.Authors
