import Espalier.Marker
import Espalier.Scan.Span
import Espalier.Text.Quoted

/-!
# Interpolated text

A template text mixes literal characters with expressions: the value of `#{…}` is output as text and
the value of `!{…}` as raw markup. A backslash before a marker makes it literal. `interpolate` gives
the segments in order; each carries the source of an expression, a literal run as a string literal.
-/

namespace Espalier

open Espalier.Text Espalier.Scan

/-- How a segment's value is output. -/
inductive SegmentKind where
  | text
  | raw
  deriving DecidableEq, Repr

/-- One piece of an interpolated text: an expression to output. -/
structure Segment where
  kind : SegmentKind
  source : String
  deriving DecidableEq, Repr

/-- The reserved name that outputs segments of a kind. -/
def SegmentKind.marker : SegmentKind → String
  | .text => Marker.text
  | .raw => Marker.raw

/-- The call that outputs a segment. -/
def Segment.outputCall (s : Segment) : String :=
  Marker.call s.kind.marker [s.source]

namespace Interpolation

/-- The character opens an interpolation when a brace follows. -/
def kind? : Char → Option SegmentKind
  | '#' => some .text
  | '!' => some .raw
  | _ => none

/-- The segment of a literal run, which is kept in reverse; an empty run has none. -/
def literal (pending : List Char) : List Segment :=
  if pending.isEmpty then [] else [⟨.text, String.ofList (quotedChars pending.reverse)⟩]

/-- How a text continues at a given place. -/
inductive Lead where
  /-- An escaped marker, and what follows its brace. -/
  | escaped (mark : Char) (rest : List Char)
  /-- A marker, and what follows its brace. -/
  | opened (kind : SegmentKind) (rest : List Char)
  /-- Any other character. -/
  | other (c : Char) (rest : List Char)
  | done

/-- Look at the start of a text for a marker. -/
def lead : List Char → Lead
  | [] => .done
  | '\x5c' :: mark :: '\x7b' :: rest =>
    if (kind? mark).isSome then .escaped mark rest else .other '\x5c' (mark :: '\x7b' :: rest)
  | mark :: '\x7b' :: rest =>
    match kind? mark with
    | some kind => .opened kind rest
    | none => .other mark ('\x7b' :: rest)
  | c :: rest => .other c rest

/-- What follows the place that was looked at, if anything does. -/
def Lead.rest? : Lead → Option (List Char)
  | .escaped _ rest => some rest
  | .opened _ rest => some rest
  | .other _ rest => some rest
  | .done => none

/-- Looking at a place passes at least one character. -/
theorem length_rest_lead_lt {cs rest : List Char} (h : (lead cs).rest? = some rest) :
    rest.length < cs.length := by
  unfold lead at h
  split at h
  · simp [Lead.rest?] at h
  · split at h
    all_goals
      simp only [Lead.rest?, Option.some.injEq] at h
      subst h
      simp only [List.length_cons]
      omega
  · split at h
    all_goals
      simp only [Lead.rest?, Option.some.injEq] at h
      subst h
      simp only [List.length_cons]
      omega
  · simp only [Lead.rest?, Option.some.injEq] at h
    subst h
    simp

/-- The segments of a text from `position` on, and the fault that stops them. `pending` is the
literal run before it, in reverse. -/
def segmentsFrom (size : Nat) (pending : List Char) (position : Nat) (cs : List Char) :
    List Segment × Option Fault :=
  match h : lead cs with
  | .done => (literal pending, none)
  | .other c rest => segmentsFrom size (c :: pending) (position + 1) rest
  | .escaped mark rest => segmentsFrom size ('\x7b' :: mark :: pending) (position + 3) rest
  | .opened kind rest =>
    match hc : closedBy "\x7d" size (position + 2) rest with
    | .error fault => ([], some fault)
    | .ok cut =>
      have : cut.rest.length < rest.length := by
        rw [closedBy_append hc]
        simp
        omega
      if (strip cut.body).isEmpty then ([], some ⟨.blank, position⟩)
      else
        let after := segmentsFrom size [] (position + 3 + cut.body.length) cut.rest
        (literal pending ++ ⟨kind, String.ofList cut.body⟩ :: after.1, after.2)
termination_by cs.length
decreasing_by
  · exact length_rest_lead_lt (by rw [h]; rfl)
  · exact length_rest_lead_lt (by rw [h]; rfl)
  · have passed : rest.length < cs.length := length_rest_lead_lt (by rw [h]; rfl)
    omega

end Interpolation

/-- The segments of a text in order, and the fault that stopped them if there is one. -/
def interpolate (text : String) : List Segment × Option Fault :=
  Interpolation.segmentsFrom text.length [] 0 text.toList

end Espalier
