import ColorMarks.Highlight.Style

/-!
# The style cache

One style per color key, in the order in which the keys first got one. A style stays until the whole
cache is cleared.
-/

namespace ColorMarks

/-- The keys in order of their first style, and the style of each. -/
structure StyleCache where
  order : List String := []
  styles : List (String × Style) := []
  deriving DecidableEq, Repr

namespace StyleCache

/-- A cache without styles. -/
def empty : StyleCache := ⟨[], []⟩

/-- The style of a key. -/
def get? (c : StyleCache) (key : String) : Option Style := c.styles.lookup key

/-- Whether a key has a style. -/
def contains (c : StyleCache) (key : String) : Bool := (c.get? key).isSome

/-- The cache with the first style of a key. -/
def add (c : StyleCache) (key : String) (style : Style) : StyleCache :=
  ⟨c.order ++ [key], (key, style) :: c.styles⟩

/-- Keys and styles, in the order of the keys. -/
def toList (c : StyleCache) : List (String × Style) :=
  c.order.filterMap fun key => (c.get? key).map fun style => (key, style)

/-- The number of keys. -/
def size (c : StyleCache) : Nat := c.order.length

/-- Whether no key has a style. -/
def isEmpty (c : StyleCache) : Bool := c.order.isEmpty

/--
The cache after a key was asked for: a key without a style gets one from `create`, which takes the
state of whoever gives out styles. The flag tells whether that happened.
-/
def getOrCreate (c : StyleCache) (key : String) (options : StyleOptions)
    (create : StyleOptions → σ → Style × σ) (s : σ) : StyleCache × Bool × σ :=
  if c.contains key then (c, false, s)
  else
    let (style, s) := create options s
    (c.add key style, true, s)

end StyleCache

end ColorMarks
