/-!
# Log formats

Logs are written for people or for programs. The name of the format comes from the surroundings of
a program, so every text names one.
-/

namespace LedgerWire

/-- How logs are written. -/
inductive LogFormat where
  /-- For people. -/
  | pretty
  /-- For programs, one JSON object a line. -/
  | json
deriving DecidableEq, Repr

/-- The format that a text names: JSON under its own name in either case, otherwise the format for
people. No character outside ASCII has a lower-case form with a letter of that name, so ASCII case
is enough. -/
def LogFormat.ofText (text : String) : LogFormat :=
  if text.toLower = "json" then .json else .pretty

end LedgerWire
