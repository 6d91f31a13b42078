import Espalier.Proofs.Interpolation.Pieces
import Espalier.Proofs.Scan.Enclosed
import Espalier.Template.Generate

/-!
# The calls that output interpolated text

Every segment of an interpolated text is put between the parentheses of a call. An expression was
found before a brace and a literal run is written as a string; both are balanced, so that neither
reaches past the parenthesis that closes its call. Main statement: `emitText_outputCalls`.
-/

namespace Espalier

open Espalier.Text Espalier.Scan

namespace Interpolation

theorem balanced_literal {pending : List Char} {segment : Segment} (h : segment ∈ literal pending) :
    Balanced true segment.source.toList := by
  unfold literal at h
  split at h
  case isTrue => cases h
  case isFalse =>
    rw [List.mem_singleton.1 h, String.toList_ofList]
    exact balanced_quotedChars _

/-- The source of every segment is balanced, those before a fault included. -/
theorem balanced_segmentsFrom {size : Nat} {cs pending : List Char} {position : Nat}
    {segment : Segment} (h : segment ∈ (segmentsFrom size pending position cs).1) :
    Balanced true segment.source.toList := by
  induction hlength : cs.length using Nat.strongRecOn generalizing cs pending position with
  | ind n ih =>
    subst hlength
    have hleads := leads_lead cs
    generalize hlead : lead cs = found at hleads
    cases hleads with
    | done =>
      rw [segmentsFrom_done hlead] at h
      exact balanced_literal h
    | @other c rest _ =>
      rw [segmentsFrom_other hlead] at h
      exact ih _ (Nat.lt_succ_self _) h rfl
    | escaped kind rest =>
      rw [segmentsFrom_escaped hlead] at h
      exact ih _ (by simp; omega) h rfl
    | opened kind rest =>
      rw [segmentsFrom_opened hlead] at h
      split at h
      case h_1 => cases h
      case h_2 cut hcut =>
        obtain ⟨hrest, -, hbalanced⟩ := closedBy_brace_iff.1 hcut
        split at h
        case isTrue => cases h
        case isFalse =>
          have hshorter : cut.rest.length < (kind.mark :: '\x7b' :: rest).length := by
            rw [hrest]
            simp
            omega
          rcases List.mem_append.1 h with hliteral | hexpr
          · exact balanced_literal hliteral
          · rcases List.mem_cons.1 hexpr with rfl | hafter
            · rw [String.toList_ofList]
              exact hbalanced
            · exact ih _ hshorter hafter rfl

end Interpolation

theorem Segment.outputCall_eq (segment : Segment) :
    segment.outputCall = segment.kind.marker ++ "(" ++ segment.source ++ ")" := by
  rw [outputCall, Marker.call, String.intercalate_singleton]

/-- A text is output by one call for each of its segments. The reading that begins behind the
parenthesis of a call gives the segment's source and stops at the last character of the call,
whatever stands behind the call. -/
theorem emitText_outputCalls (text : String) (h : (interpolate text).2 = none) :
    (∀ s : Emission, Template.emitText text s
      = .ok (s.emit ((interpolate text).1.map fun segment => segment.outputCall ++ ";\n"))) ∧
    ∀ segment ∈ (interpolate text).1,
      segment.outputCall = segment.kind.marker ++ "(" ++ segment.source ++ ")" ∧
      ∀ tail : String,
        expressionAt (segment.outputCall ++ tail) (segment.kind.marker ++ "(").length ")"
          = .ok ⟨(segment.kind.marker ++ "(").length, segment.outputCall.length - 1,
              segment.source⟩ := by
  refine ⟨fun s => ?_, fun segment hsegment => ⟨segment.outputCall_eq, fun tail => ?_⟩⟩
  · have hpair : interpolate text = ((interpolate text).1, none) := by rw [← h]
    rw [Template.emitText, hpair]
  · have hlast : segment.outputCall.length - 1
        = (segment.kind.marker ++ "(").length + segment.source.length := by
      rw [segment.outputCall_eq, String.length_append, String.length_append]
      exact Nat.add_sub_cancel ..
    rw [hlast, segment.outputCall_eq]
    exact (expressionAt_paren_iff _ segment.source tail).2
      (Interpolation.balanced_segmentsFrom hsegment)

/-- Quotes, comments, brackets and regular expressions in a text stay inside their calls. -/
theorem emitText_outputCalls_mixed :
    (interpolate "a'(#\x7b\x22)\x22 /* ) */ + /[)]/\x7d").2 = none ∧
    ∀ tail : String, expressionAt ("ǃtext＿(\x22)\x22 /* ) */ + /[)]/)" ++ tail) 7 ")"
      = .ok ⟨7, 26, "\x22)\x22 /* ) */ + /[)]/"⟩ := by
  have hscan : interpolate "a'(#\x7b\x22)\x22 /* ) */ + /[)]/\x7d"
      = ([⟨.text, "\x22a'(\x22"⟩, ⟨.text, "\x22)\x22 /* ) */ + /[)]/"⟩], none) := by
    decide +kernel
  have hnone : (interpolate "a'(#\x7b\x22)\x22 /* ) */ + /[)]/\x7d").2 = none := by rw [hscan]
  refine ⟨hnone, fun tail => ?_⟩
  exact ((emitText_outputCalls _ hnone).2 ⟨.text, "\x22)\x22 /* ) */ + /[)]/"⟩
    (by rw [hscan]; simp)).2 tail

end Espalier
