import Espalier.Helper

/-!
# Log events

What a compilation tells about its progress. An event has a level and a line of text.
-/

namespace Espalier

/-- How much an event matters. -/
inductive LogLevel where
  | debug
  | warning
  deriving DecidableEq, Repr

/-- Something worth telling. -/
inductive LogEvent where
  /-- A helper was asked for the first time. -/
  | helperNeeded (helper : Helper)
  /-- Source was generated from a template. -/
  | generated (fragments helpers : Nat)
  /-- The render function was built. -/
  | rendered
  /-- The render function was compressed. -/
  | compressed
  /-- The declarations of a scope were merged into one. -/
  | merged (count : Nat) (names : List String)
  /-- A scope had too few declarations to merge; a warning if the user asked for warnings. -/
  | unmerged (count : Nat) (warn : Bool)
  deriving DecidableEq, Repr

/-- The level of an event. -/
def LogEvent.level : LogEvent → LogLevel
  | .unmerged _ true => .warning
  | _ => .debug

/-- The text of an event. -/
def LogEvent.message : LogEvent → String
  | .helperNeeded .iterate => "Emitting iteration helper"
  | .helperNeeded .merge => "Emitting attribute-merge helper"
  | .generated fragments helpers =>
    "Generated " ++ toString fragments ++ " fragments, " ++ toString helpers ++ " helper(s)"
  | .rendered => "Rectified intermediate program"
  | .compressed => "Compressed rectified program"
  | .merged count names =>
    "hoist_vars: merged " ++ toString count ++ " var statements ("
      ++ String.intercalate ", " names ++ ")"
  | .unmerged count _ =>
    "hoist_vars: " ++ toString count ++ " var statement(s) in scope, nothing to merge"

end Espalier
