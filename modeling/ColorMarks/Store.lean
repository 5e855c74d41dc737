import ColorMarks.Diagnostic.Basic
import ColorMarks.Ordered

/-!
# The diagnostics store

The findings last published for each document. A document with no findings is not in the store.
-/

namespace ColorMarks

/-- Findings by document, in ascending order of the addresses. -/
structure Store where
  entries : List (String × List Diagnostic) := []
  deriving DecidableEq, Repr

namespace Store

/-- No documents. -/
def empty : Store := ⟨[]⟩

/-- The store with the findings of a document replaced. -/
def update (s : Store) (uri : String) (diagnostics : List Diagnostic) : Store :=
  if diagnostics.isEmpty then ⟨Ordered.erase uri s.entries⟩
  else ⟨Ordered.insert uri diagnostics s.entries⟩

/-- The findings of a document. -/
def get? (s : Store) (uri : String) : Option (List Diagnostic) := s.entries.lookup uri

/-- The number of documents. -/
def size (s : Store) : Nat := s.entries.length

/-- All documents, in ascending order of the addresses. -/
def snapshot (s : Store) : Snapshot := s.entries

end Store

end ColorMarks
