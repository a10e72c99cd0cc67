/-!
# Headings

The four ways an animal can face.
-/

namespace CatAndMouse

/-- A point of the compass. -/
inductive Heading where
  | north
  | south
  | east
  | west
deriving DecidableEq

namespace Heading

/-- All headings, in the order in which they are listed. -/
def all : List Heading := [.north, .south, .east, .west]

/-- The word for the heading. -/
def word : Heading → String
  | .north => "north"
  | .south => "south"
  | .east => "east"
  | .west => "west"

/-- The initial of the heading. -/
def initial : Heading → String
  | .north => "N"
  | .south => "S"
  | .east => "E"
  | .west => "W"

end Heading

end CatAndMouse
