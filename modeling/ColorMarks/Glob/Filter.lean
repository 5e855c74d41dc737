import ColorMarks.Glob.Match

/-!
# Watch filters

Which files are watched: those whose path matches one of a list of patterns.
-/

namespace ColorMarks

/-- A pattern that could not be read. -/
structure WatchError where
  pattern : String
  cause : Glob.PatternError
  deriving DecidableEq, Repr

/-- The text of the error. -/
def WatchError.message (e : WatchError) : String :=
  "invalid watch pattern '" ++ e.pattern ++ "': " ++ e.cause.describe e.pattern

/-- Patterns with their parts. -/
structure WatchFilter where
  globs : List (String × List Glob.Part)
  deriving Repr

namespace WatchFilter

/-- The filter of some patterns, or the first pattern that could not be read. -/
def ofPatterns (patterns : List String) : Except WatchError WatchFilter := do
  let globs ← patterns.mapM fun p =>
    match Glob.parts? p with
    | .ok parts => .ok (p, parts)
    | .error cause => .error ⟨p, cause⟩
  return ⟨globs⟩

/-- The pattern of the files that are watched by default. -/
def defaultPattern : String := "**/.clientrc"

/-- The filter with the default pattern alone. -/
def default : WatchFilter :=
  ⟨[(defaultPattern, .leading :: ".clientrc".toList.map .literal)]⟩

/-- The patterns of the filter. -/
def patterns (f : WatchFilter) : List String := f.globs.map Prod.fst

/-- Whether a path is watched. -/
def accepts (f : WatchFilter) (path : String) : Bool :=
  f.globs.any fun g => Glob.isMatch g.2 path

end WatchFilter

end ColorMarks
