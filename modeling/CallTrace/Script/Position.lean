/-!
# Places in a script

Lines are counted from one, and so are the characters of a line. Place zero of a line is in front of
its first character.
-/

namespace CallTrace.Script

/-- A place in a script. -/
structure Position where
  line : Nat := 1
  column : Nat := 0
  deriving DecidableEq, Repr

namespace Position

/-- The greatest number of a line or column that is told apart. -/
def limit : Nat := 65535

/-- The place so many characters further on in the line. -/
def forward (position : Position) (count : Nat) : Position :=
  { position with column := min limit (position.column + count) }

/-- The place of the next character of the line. -/
def next (position : Position) : Position := position.forward 1

/-- The place in front of the next line. -/
def nextLine (position : Position) : Position := ⟨min limit (position.line + 1), 0⟩

/-- The wording of a place. -/
def shown (position : Position) : String :=
  "line " ++ toString position.line ++ ", position " ++ toString position.column

end Position

end CallTrace.Script
