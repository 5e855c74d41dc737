import ColorMarks.Host.Uri

/-!
# Document selectors

Which documents a server is told about: those that pass one of a list of filters.
-/

namespace ColorMarks

/-- A filter by scheme and language; what it does not name may be anything. -/
structure DocumentFilter where
  scheme : Option String
  language : Option String
  deriving DecidableEq, Repr

namespace DocumentFilter

/-- Whether a document passes the filter. -/
def accepts (f : DocumentFilter) (uri language : String) : Bool :=
  f.scheme.all (fun s => Uri.scheme? uri == some s) && f.language.all (· == language)

end DocumentFilter

/-- Filters of which a document has to pass one. -/
abbrev Selector := List DocumentFilter

namespace Selector

/-- Local plain text. -/
def default : Selector := [⟨some Uri.fileScheme, some "plaintext"⟩]

/-- Whether a document passes one of the filters. -/
def accepts (s : Selector) (uri language : String) : Bool := s.any fun f => f.accepts uri language

end Selector

end ColorMarks
