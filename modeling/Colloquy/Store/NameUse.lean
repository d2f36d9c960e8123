/-!
# New names

What a store takes a new name for. Names may be random or, where all is fixed in advance, numbers.
-/

namespace Colloquy

/-- What a new name is for. -/
inductive NameUse where
  /-- A session. -/
  | session
  /-- A message. -/
  | message
  deriving DecidableEq, Repr

/-- The n-th name for something. -/
def NameUse.numbered : NameUse → Nat → String
  | .session, n => "#" ++ toString n
  | .message, n => "m" ++ toString n

/-- How many names were made for each use. -/
structure NameCount where
  /-- Names of sessions. -/
  sessions : Nat
  /-- Names of messages. -/
  messages : Nat
  deriving DecidableEq, Repr

namespace NameCount

/-- No names. -/
def zero : NameCount :=
  ⟨0, 0⟩

/-- The number of names for a use. -/
def of (count : NameCount) : NameUse → Nat
  | .session => count.sessions
  | .message => count.messages

/-- The next name for a use. -/
def next (count : NameCount) (use : NameUse) : String :=
  use.numbered (count.of use)

/-- One more name for a use. -/
def after (count : NameCount) : NameUse → NameCount
  | .session => { count with sessions := count.sessions + 1 }
  | .message => { count with messages := count.messages + 1 }

end NameCount

end Colloquy
