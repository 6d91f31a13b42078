import Espalier.Proofs.Scan.Completion

/-!
# The expression before a closing bracket

`upToUnmatched_eq_some_iff` puts the two directions together: the machine cuts a text at a bracket
exactly when what stands before the bracket is balanced. Main statement: `expressionAt_spec`, which
characterises the spans that `expressionAt` gives, and what they depend on.
-/

namespace Espalier.Scan

/-- A closing bracket outside all frames is unmatched. -/
theorem upToUnmatched_closer {size position : Nat} {operand : Bool} {c : Char} {cs : List Char}
    (h : isCloser c = true) :
    upToUnmatched size ⟨.code, [], operand⟩ position (c :: cs) = .ok (some ⟨[], c, cs⟩) := by
  obtain rfl | rfl | rfl := closer_cases h <;> rfl

theorem upToUnmatched_eq_some_iff {size position : Nat} {cs : List Char} {cut : Cut} :
    upToUnmatched size {} position cs = .ok (some cut) ↔
      cs = cut.body ++ cut.closer :: cut.rest ∧ isCloser cut.closer = true ∧
        Balanced true cut.body := by
  constructor
  · intro h
    obtain ⟨hcloser, hbalanced⟩ := completes_of_upToUnmatched (s := {}) trivial h
    exact ⟨upToUnmatched_append h, hcloser, hbalanced⟩
  · rintro ⟨hcs, hcloser, hbalanced⟩
    have hstack : ([] : List Frame).head? ≠ some .template := nofun
    obtain ⟨operand', hpasses⟩ := hbalanced.passes hcloser hstack position
    rw [hcs, hpasses, upToUnmatched_closer hcloser]
    simp [withFront]

/-- The first unmatched bracket has to be the one that the caller waits for. -/
theorem closedBy_eq_ok_iff {closer : String} {size position : Nat} {cs : List Char} {cut : Cut} :
    closedBy closer size position cs = .ok cut ↔
      upToUnmatched size {} position cs = .ok (some cut) ∧ closer.toList = [cut.closer] := by
  unfold closedBy
  split
  case h_1 h => simp [h]
  case h_2 h => simp [h]
  case h_3 found h =>
    rw [h]
    split
    case isTrue heq =>
      constructor
      · rintro ⟨⟩
        exact ⟨rfl, heq⟩
      · rintro ⟨⟨⟩, -⟩
        rfl
    case isFalse hne =>
      constructor
      · rintro ⟨⟩
      · rintro ⟨⟨⟩, heq⟩
        exact absurd heq hne

/-- The characters of a source from `start` up to `stop`, which is left out. -/
def slice (source : String) (start stop : Nat) : List Char :=
  (source.toList.drop start).take (stop - start)

/-- An expression that begins at `start` ends before the `closer` at `stop`. -/
structure EndsAt (source : String) (start : Nat) (closer : Char) (stop : Nat) : Prop where
  start_le : start ≤ stop
  stop_lt : stop < source.length
  closer_at : source.toList[stop]? = some closer
  balanced : Balanced true (slice source start stop)

theorem EndsAt.drop_eq {source : String} {start stop : Nat} {closer : Char}
    (h : EndsAt source start closer stop) :
    source.toList.drop start
      = slice source start stop ++ closer :: source.toList.drop (stop + 1) := by
  have hcloser : source.toList.drop stop = closer :: source.toList.drop (stop + 1) := by
    obtain ⟨hlt, heq⟩ := List.getElem?_eq_some_iff.1 h.closer_at
    rw [List.drop_eq_getElem_cons hlt, heq]
  have hdrop : (source.toList.drop start).drop (stop - start) = source.toList.drop stop := by
    rw [List.drop_drop, Nat.add_sub_cancel' h.start_le]
  rw [slice, ← hcloser, ← hdrop, List.take_append_drop]

theorem EndsAt.length_slice {source : String} {start stop : Nat} {closer : Char}
    (h : EndsAt source start closer stop) : (slice source start stop).length = stop - start := by
  have hlt := h.stop_lt
  have hle := h.start_le
  rw [slice, List.length_take, List.length_drop, String.length_toList]
  omega

/-- A cut of the source after `start` gives the end of an expression. -/
theorem EndsAt.of_drop_eq {source : String} {start : Nat} {body rest : List Char} {closer : Char}
    (hdrop : source.toList.drop start = body ++ closer :: rest) (hbalanced : Balanced true body) :
    EndsAt source start closer (start + body.length) ∧
      slice source start (start + body.length) = body := by
  have hslice : slice source start (start + body.length) = body := by
    rw [slice, hdrop, Nat.add_sub_cancel_left, List.take_left]
  have hat : source.toList[start + body.length]? = some closer := by
    rw [← List.getElem?_drop, hdrop]
    simp
  obtain ⟨hlt, -⟩ := List.getElem?_eq_some_iff.1 hat
  refine ⟨⟨Nat.le_add_right .., String.length_toList ▸ hlt, hat, ?_⟩, hslice⟩
  rw [hslice]
  exact hbalanced

/-- The machine finds the end of an expression. -/
theorem EndsAt.cut {source : String} {start stop : Nat} {closer : Char}
    (h : EndsAt source start closer stop) (hcloser : isCloser closer = true) :
    upToUnmatched source.length {} start (source.toList.drop start)
      = .ok (some ⟨slice source start stop, closer, source.toList.drop (stop + 1)⟩) :=
  upToUnmatched_eq_some_iff.2 ⟨h.drop_eq, hcloser, h.balanced⟩

/-- An expression ends in at most one place. -/
theorem EndsAt.unique {source : String} {start stop stop' : Nat} {c c' : Char}
    (h : EndsAt source start c stop) (h' : EndsAt source start c' stop') (hc : isCloser c = true)
    (hc' : isCloser c' = true) : stop = stop' := by
  have hcut := (h.cut hc).symm.trans (h'.cut hc')
  simp only [Except.ok.injEq, Option.some.injEq, Cut.mk.injEq] at hcut
  have hlength := congrArg List.length hcut.1
  rw [h.length_slice, h'.length_slice] at hlength
  have hle := h.start_le
  have hle' := h'.start_le
  omega

/-- The end of an expression depends on nothing but the characters up to it. -/
theorem EndsAt.congr {source source' : String} {start stop : Nat} {closer : Char}
    (h : EndsAt source start closer stop)
    (hsame : ∀ i, start ≤ i → i ≤ stop → source'.toList[i]? = source.toList[i]?) :
    EndsAt source' start closer stop ∧ slice source' start stop = slice source start stop := by
  have hslice : slice source' start stop = slice source start stop := by
    apply List.ext_getElem?
    intro i
    simp only [slice, List.getElem?_take, List.getElem?_drop]
    split
    case isTrue hi => exact hsame _ (Nat.le_add_right ..) (by omega)
    case isFalse => rfl
  have hat : source'.toList[stop]? = some closer := by
    rw [hsame stop h.start_le (Nat.le_refl stop), h.closer_at]
  obtain ⟨hlt, -⟩ := List.getElem?_eq_some_iff.1 hat
  refine ⟨⟨h.start_le, String.length_toList ▸ hlt, hat, ?_⟩, hslice⟩
  rw [hslice]
  exact h.balanced

/-- The spans of expressions, for any closing text. -/
theorem expressionAt_eq_ok_iff {source : String} {start : Nat} {closer : String} {span : Span} :
    expressionAt source start closer = .ok span ↔
      ∃ c stop, closer = String.singleton c ∧ isCloser c = true ∧ EndsAt source start c stop ∧
        span = ⟨start, stop, String.ofList (slice source start stop)⟩ := by
  constructor
  · intro h
    unfold expressionAt at h
    split at h
    case h_1 => cases h
    case h_2 cut hcut =>
      cases h
      obtain ⟨hfound, hcloser⟩ := closedBy_eq_ok_iff.1 hcut
      obtain ⟨hdrop, hiscloser, hbalanced⟩ := upToUnmatched_eq_some_iff.1 hfound
      obtain ⟨hends, hslice⟩ := EndsAt.of_drop_eq hdrop hbalanced
      refine ⟨cut.closer, _, ?_, hiscloser, hends, ?_⟩
      · rw [← String.toList_inj, hcloser, String.toList_singleton]
      · rw [hslice]
  · rintro ⟨c, stop, rfl, hcloser, hends, rfl⟩
    have hcut : closedBy (String.singleton c) source.length start (source.toList.drop start)
        = .ok ⟨slice source start stop, c, source.toList.drop (stop + 1)⟩ :=
      closedBy_eq_ok_iff.2 ⟨hends.cut hcloser, String.toList_singleton c⟩
    rw [expressionAt, hcut]
    simp only [hends.length_slice, Nat.add_sub_cancel' hends.start_le]

/-- A text is read up to the bracket behind it exactly when it is balanced. -/
theorem expressionAt_enclosed_iff (front body after : String) {closer : Char}
    (hcloser : isCloser closer = true) :
    expressionAt (front ++ body ++ String.singleton closer ++ after) front.length
        (String.singleton closer) = .ok ⟨front.length, front.length + body.length, body⟩ ↔
      Balanced true body.toList := by
  rw [expressionAt_eq_ok_iff]
  constructor
  · rintro ⟨c, stop, -, -, hends, hspan⟩
    have hbody : body = String.ofList (slice _ front.length stop) := congrArg Span.text hspan
    rw [hbody, String.toList_ofList]
    exact hends.balanced
  · intro hbalanced
    have hdrop : (front ++ body ++ String.singleton closer ++ after).toList.drop front.length
        = body.toList ++ closer :: after.toList := by
      simp [← String.length_toList]
    obtain ⟨hends, hslice⟩ := EndsAt.of_drop_eq hdrop hbalanced
    rw [String.length_toList] at hends hslice
    exact ⟨closer, _, rfl, hcloser, hends, by rw [hslice, String.ofList_toList]⟩

/-- The brackets that can close an expression. -/
def closers : List Char :=
  [')', ']', '\x7d']

theorem mem_closers {c : Char} : c ∈ closers ↔ isCloser c = true := by
  simp [closers, isCloser, or_assoc]

/-- The expression that begins at `start` is the balanced text up to the first unmatched bracket.
For each of the three brackets there is a span exactly when such an end exists, the end is unique
and the span is the text up to it; no other closing text gives a span. A span depends on nothing but
the characters from `start` up to its end, and the result as a whole on nothing before `start`. -/
theorem expressionAt_spec (source : String) (start : Nat) (hstart : start ≤ source.length) :
    (∀ closer ∈ closers,
      (∀ span, expressionAt source start (String.singleton closer) = .ok span ↔
        ∃ stop, EndsAt source start closer stop ∧
          span = ⟨start, stop, String.ofList (slice source start stop)⟩) ∧
      ∀ stop stop', EndsAt source start closer stop → EndsAt source start closer stop' →
        stop = stop') ∧
    (∀ closer : String, (∀ c ∈ closers, closer ≠ String.singleton c) →
      ∀ span, expressionAt source start closer ≠ .ok span) ∧
    (∀ closer span source', expressionAt source start closer = .ok span →
      (∀ i, start ≤ i → i ≤ span.stop → source'.toList[i]? = source.toList[i]?) →
      expressionAt source' start closer = .ok span) ∧
    ∀ closer source', start ≤ source'.length →
      source'.toList.drop start = source.toList.drop start →
      expressionAt source' start closer = expressionAt source start closer := by
  refine ⟨fun closer hcloser => ⟨fun span => ?_, fun stop stop' h h' => ?_⟩, ?_, ?_, ?_⟩
  · rw [mem_closers] at hcloser
    rw [expressionAt_eq_ok_iff]
    constructor
    · rintro ⟨c, stop, heq, -, hends, hspan⟩
      obtain rfl : closer = c := String.singleton_inj.1 heq
      exact ⟨stop, hends, hspan⟩
    · rintro ⟨stop, hends, hspan⟩
      exact ⟨closer, stop, rfl, hcloser, hends, hspan⟩
  · rw [mem_closers] at hcloser
    exact h.unique h' hcloser hcloser
  · intro closer hclosers span h
    obtain ⟨c, -, heq, hc, -⟩ := expressionAt_eq_ok_iff.1 h
    exact hclosers c (mem_closers.2 hc) heq
  · intro closer span source' h hsame
    obtain ⟨c, stop, heq, hc, hends, rfl⟩ := expressionAt_eq_ok_iff.1 h
    obtain ⟨hends', hslice⟩ := hends.congr hsame
    exact expressionAt_eq_ok_iff.2 ⟨c, stop, heq, hc, hends', by rw [hslice]⟩
  · intro closer source' hstart' hdrop
    have hlength : source'.length = source.length := by
      have h := congrArg List.length hdrop
      simp only [List.length_drop, String.length_toList] at h
      omega
    rw [expressionAt, expressionAt, hdrop, hlength]

/-- A bracket inside a regular expression closes nothing. -/
theorem expressionAt_regex :
    2 ≤ "#\x7b/[\x7d]/g\x7d.".length ∧
    expressionAt "#\x7b/[\x7d]/g\x7d." 2 "\x7d" = .ok ⟨2, 8, "/[\x7d]/g"⟩ := by
  refine ⟨by decide, ?_⟩
  have hregex : RegexText false ['[', '\x7d', ']', '/'] :=
    .openClass (.classChar (by decide) (by decide) (by decide) (.closeClass .close))
  have hbalanced : Balanced true ['/', '[', '\x7d', ']', '/', 'g'] :=
    .regex rfl hregex (show ['g'].all isFlag by decide) .nil
  exact (((expressionAt_spec _ 2 (by decide)).1 '\x7d' (by decide)).1 _).2
    ⟨8, ⟨by decide, by decide, by decide, hbalanced⟩, by decide⟩

end Espalier.Scan
