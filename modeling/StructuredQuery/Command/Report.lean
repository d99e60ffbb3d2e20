/-!
# Reports

A report of a failed command: what was being done, and below it the causes, one behind
the other.  Several causes are numbered, and the further lines of a cause are set in
under its first.
-/

namespace StructuredQuery

/-- A message and its causes, the nearest one first. -/
structure Report where
  message : String
  causes : List String
  deriving DecidableEq, Repr

namespace Report

/-- A text with `margin` in front of each line after the first. -/
def hang (margin text : String) : String :=
  String.intercalate ("\n" ++ margin) ((text.splitOn "\n"))

/-- A cause with its number. -/
def numbered (index : Nat) (cause : String) : String :=
  let number := String.ofList (Nat.toDigits 10 index)
  "\n" ++ String.ofList (List.replicate (5 - number.length) ' ') ++ number ++ ": "
    ++ hang "       " cause

/-- The causes below a message. -/
def causesText : List String → String
  | [] => ""
  | [cause] => "\n\nCaused by:\n    " ++ hang "    " cause
  | causes => "\n\nCaused by:" ++ String.join (causes.zipIdx.map fun (cause, i) => numbered i cause)

/-- The text of a report. -/
def text (report : Report) : String :=
  "Error: " ++ report.message ++ causesText report.causes

end Report

end StructuredQuery
