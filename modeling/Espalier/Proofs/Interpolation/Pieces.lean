import Espalier.Interpolation
import Espalier.Proofs.Scan.Expression
import Espalier.Proofs.Template.Structural

/-!
# The grammar of interpolated text

An interpolated text is made of pieces: literal runs, escaped markers and expressions. `WellFormed`
says which lists of pieces stand for a text: a run holds no marker and is not cut in two, and no
run ends in a backslash that would escape the marker behind it. `segments` is what a list of pieces
is output as.

What stands at the start of a text (`lead`) decides the first piece, up to the length of a literal
run. So a list of pieces is built one look at a time (`exists_wellFormed`) and taken apart in the
same way (`WellFormed.of_plain`, `WellFormed.of_escaped`, `WellFormed.of_opened`), and the segments
follow by induction on the text. Main statement: `interpolate_spec`.
-/

namespace Espalier

open Espalier.Text Espalier.Scan

/-- The character before the brace of a marker. -/
def SegmentKind.mark : SegmentKind → Char
  | .text => '#'
  | .raw => '!'

namespace Interpolation

/-! ## Pieces -/

/-- A piece of an interpolated text. -/
inductive Piece where
  | literal (text : List Char)
  /-- A marker behind a backslash. -/
  | escape (kind : SegmentKind)
  | expr (kind : SegmentKind) (body : List Char)

/-- The text of a piece as it is written. -/
def Piece.raw : Piece → List Char
  | .literal text => text
  | .escape kind => ['\x5c', kind.mark, '\x7b']
  | .expr kind body => kind.mark :: '\x7b' :: (body ++ ['\x7d'])

/-- The text that pieces make up. -/
def rawText (pieces : List Piece) : List Char :=
  pieces.flatMap Piece.raw

/-- A run is not empty and holds no marker. A body is not blank and is read, up to the brace behind
it, as one expression. -/
def Piece.Valid : Piece → Prop
  | .literal text => text ≠ [] ∧ Template.opensInterpolation text = false
  | .escape _ => True
  | .expr _ body => strip body ≠ [] ∧
      expressionAt (String.ofList (body ++ ['\x7d'])) 0 "\x7d"
        = .ok ⟨0, body.length, String.ofList body⟩

/-- The pieces may stand one behind the other. -/
def Piece.Before : Piece → Piece → Prop
  | .literal _, .literal _ => False
  | .literal text, .expr _ _ => text.getLast? ≠ some '\x5c'
  | _, _ => True

/-- Pieces that make up an interpolated text. -/
inductive WellFormed : List Piece → Prop
  | nil : WellFormed []
  | cons {p : Piece} {pieces : List Piece} : p.Valid → (∀ q ∈ pieces.head?, p.Before q) →
      WellFormed pieces → WellFormed (p :: pieces)

/-! ## What pieces are output as -/

/-- The piece is output as it is shown, without being evaluated. -/
def Piece.isLiteral : Piece → Bool
  | .literal _ | .escape _ => true
  | .expr _ _ => false

/-- What a piece adds to a run of literal text: an escaped marker loses its backslash. -/
def Piece.shown : Piece → List Char
  | .literal text => text
  | .escape kind => [kind.mark, '\x7b']
  | .expr _ _ => []

/-- The segments of pieces: one for each expression, and one for each maximal run of others. -/
def segments : List Piece → List Segment
  | [] => []
  | .expr kind body :: pieces => ⟨kind, String.ofList body⟩ :: segments pieces
  | p :: pieces =>
    have : (pieces.dropWhile Piece.isLiteral).length < pieces.length + 1 :=
      Nat.lt_succ_of_le (List.dropWhile_suffix _).length_le
    ⟨.text, quote (String.ofList ((p :: pieces.takeWhile Piece.isLiteral).flatMap Piece.shown))⟩
      :: segments (pieces.dropWhile Piece.isLiteral)
termination_by pieces => pieces.length

/-! ## Looking at the start of a text -/

theorem kind?_eq_some_iff {mark : Char} {kind : SegmentKind} :
    kind? mark = some kind ↔ mark = kind.mark := by
  constructor
  · intro h
    unfold kind? at h
    split at h <;> cases h <;> rfl
  · rintro rfl
    cases kind <;> rfl

/-- No marker stands at the start of the text, nor an escaped one. -/
structure Plain (c : Char) (rest : List Char) : Prop where
  not_opened : ∀ kind : SegmentKind, c = kind.mark → rest.head? ≠ some '\x7b'
  not_escaped : ∀ (kind : SegmentKind) (tail : List Char), c = '\x5c' →
    rest ≠ kind.mark :: '\x7b' :: tail

/-- What looking at the start of a text finds. -/
inductive Leads : List Char → Lead → Prop
  | done : Leads [] .done
  | escaped (kind : SegmentKind) (rest : List Char) :
      Leads ('\x5c' :: kind.mark :: '\x7b' :: rest) (.escaped kind.mark rest)
  | opened (kind : SegmentKind) (rest : List Char) :
      Leads (kind.mark :: '\x7b' :: rest) (.opened kind rest)
  | other {c : Char} {rest : List Char} : Plain c rest → Leads (c :: rest) (.other c rest)

theorem leads_lead (cs : List Char) : Leads cs (lead cs) := by
  unfold lead
  split
  case h_1 => exact .done
  case h_2 mark rest =>
    split
    case isTrue hkind =>
      obtain ⟨kind, hkind⟩ := Option.isSome_iff_exists.1 hkind
      rw [kind?_eq_some_iff.1 hkind]
      exact .escaped kind rest
    case isFalse hkind =>
      refine .other ⟨fun kind hmark => ?_, fun kind tail _ htail => ?_⟩
      · cases kind <;> cases hmark
      · cases htail
        exact hkind (by rw [kind?_eq_some_iff.2 rfl]; rfl)
  case h_3 mark rest hescape =>
    split
    case h_1 kind hkind =>
      rw [kind?_eq_some_iff.1 hkind]
      exact .opened kind rest
    case h_2 hkind =>
      refine .other ⟨fun kind hmark => ?_, fun kind tail _ htail => ?_⟩
      · rw [kind?_eq_some_iff.2 hmark] at hkind
        cases hkind
      · cases kind <;> cases htail
  case h_4 c rest hescape hopen =>
    refine .other ⟨fun kind hmark hhead => ?_, fun kind tail hslash htail => ?_⟩
    · obtain ⟨tail, rfl⟩ : ∃ tail, rest = '\x7b' :: tail := by
        cases rest with
        | nil => cases hhead
        | cons d tail => exact ⟨tail, by cases hhead; rfl⟩
      exact hopen tail rfl
    · subst hslash htail
      exact hescape _ _ rfl rfl

/-! ## One more literal character -/

/-- Pieces behind one more literal character. -/
def prepend (c : Char) : List Piece → List Piece
  | .literal text :: pieces => .literal (c :: text) :: pieces
  | pieces => .literal [c] :: pieces

theorem prepend_of_not_literal {c : Char} {pieces : List Piece}
    (h : ∀ text, pieces.head? ≠ some (.literal text)) :
    prepend c pieces = .literal [c] :: pieces := by
  unfold prepend
  split
  case h_1 text _ => exact absurd rfl (h text)
  case h_2 => rfl

@[simp] theorem rawText_cons (p : Piece) (pieces : List Piece) :
    rawText (p :: pieces) = p.raw ++ rawText pieces := rfl

theorem rawText_prepend (c : Char) (pieces : List Piece) :
    rawText (prepend c pieces) = c :: rawText pieces := by
  unfold prepend
  split <;> rfl

/-! ## Runs of literal text -/

theorem mark_injective {kind kind' : SegmentKind} (h : kind.mark = kind'.mark) : kind = kind' := by
  cases kind <;> cases kind' <;> first | rfl | cases h

theorem opensInterpolation_cons_eq_false {c : Char} {cs : List Char} :
    Template.opensInterpolation (c :: cs) = false ↔
      (∀ kind : SegmentKind, c = kind.mark → cs.head? ≠ some '\x7b') ∧
        Template.opensInterpolation cs = false := by
  have hmark : (c == '#' || c == '!') = true ↔ ∃ kind : SegmentKind, c = kind.mark := by
    rw [Bool.or_eq_true, beq_iff_eq, beq_iff_eq]
    constructor
    · rintro (rfl | rfl)
      · exact ⟨.text, rfl⟩
      · exact ⟨.raw, rfl⟩
    · rintro ⟨_ | _, rfl⟩
      · exact .inl rfl
      · exact .inr rfl
  rw [Template.opensInterpolation, Bool.or_eq_false_iff, Bool.and_eq_false_imp, hmark]
  simp only [beq_eq_false_iff_ne, forall_exists_index]

/-- No run follows a run. -/
theorem WellFormed.not_literal {text : List Char} {pieces : List Piece}
    (h : WellFormed (.literal text :: pieces)) (text' : List Char) :
    pieces.head? ≠ some (.literal text') := by
  cases h with
  | cons _ hbefore _ => exact fun hhead => hbefore _ hhead

/-- What follows a run begins with a backslash or with a marker. -/
theorem WellFormed.head?_rawText {text : List Char} {pieces : List Piece}
    (h : WellFormed (.literal text :: pieces)) : (rawText pieces).head? ≠ some '\x7b' := by
  match pieces, h.not_literal with
  | [], _ => nofun
  | .literal text' :: _, hliteral => exact absurd rfl (hliteral text')
  | .escape _ :: _, _ => nofun
  | .expr .text _ :: _, _ | .expr .raw _ :: _, _ => nofun

/-- A run that ends in a backslash is followed by no marker. -/
theorem WellFormed.rawText_ne {text tail : List Char} {pieces : List Piece} {kind : SegmentKind}
    (h : WellFormed (.literal text :: pieces)) (hslash : text.getLast? = some '\x5c') :
    rawText pieces ≠ kind.mark :: '\x7b' :: tail := by
  intro hraw
  match pieces, h with
  | [], _ => cases hraw
  | .literal text' :: _, h => exact h.not_literal text' rfl
  | .escape _ :: _, _ => cases kind <;> cases hraw
  | .expr _ _ :: _, .cons _ hbefore _ => exact hbefore _ rfl hslash

/-- Taking a character off a longer run. -/
theorem WellFormed.tail {c : Char} {text : List Char} {pieces : List Piece}
    (h : WellFormed (.literal (c :: text) :: pieces)) (htext : text ≠ []) :
    WellFormed (.literal text :: pieces) := by
  cases h with
  | cons hvalid hbefore hpieces =>
    refine .cons ⟨htext, (opensInterpolation_cons_eq_false.1 hvalid.2).2⟩ ?_ hpieces
    intro q hq
    have hlast := hbefore q hq
    cases q with
    | literal | escape => exact hlast
    | expr => rwa [Piece.Before, List.getLast?_cons_of_ne_nil htext] at hlast

/-! ## Building pieces -/

theorem WellFormed.prepend {c : Char} {pieces : List Piece} (h : WellFormed pieces)
    (hplain : Plain c (rawText pieces)) : WellFormed (prepend c pieces) := by
  have hsingle : Piece.Valid (.literal [c]) :=
    ⟨nofun, opensInterpolation_cons_eq_false.2 ⟨nofun, rfl⟩⟩
  match pieces, h with
  | [], _ => exact .cons hsingle nofun .nil
  | .escape _ :: _, h =>
    refine .cons hsingle ?_ h
    rintro _ ⟨⟩
    trivial
  | .expr kind body :: rest, h =>
    refine .cons hsingle ?_ h
    rintro _ ⟨⟩ hslash
    exact hplain.not_escaped kind _ (Option.some.inj hslash) rfl
  | .literal text :: rest, .cons hvalid hbefore hrest =>
    obtain ⟨htext, hopens⟩ := hvalid
    have hhead : (rawText (.literal text :: rest)).head? = text.head? := by
      obtain ⟨d, ds, rfl⟩ := List.exists_cons_of_ne_nil htext
      rfl
    refine .cons ⟨nofun, opensInterpolation_cons_eq_false.2 ⟨fun kind hmark => ?_, hopens⟩⟩ ?_ hrest
    · exact hhead ▸ hplain.not_opened kind hmark
    · intro q hq
      have hlast := hbefore q hq
      cases q with
      | literal | escape => exact hlast
      | expr => rwa [Piece.Before, List.getLast?_cons_of_ne_nil htext]

/-! ## Bodies -/

theorem closedBy_brace_iff {size position : Nat} {cs : List Char} {cut : Cut} :
    closedBy "\x7d" size position cs = .ok cut ↔
      cs = cut.body ++ '\x7d' :: cut.rest ∧ cut.closer = '\x7d' ∧ Balanced true cut.body := by
  rw [closedBy_eq_ok_iff, upToUnmatched_eq_some_iff]
  constructor
  · rintro ⟨⟨hcs, -, hbalanced⟩, hcloser⟩
    have hbrace : cut.closer = '\x7d' := by
      simpa using hcloser.symm
    exact ⟨hbrace ▸ hcs, hbrace, hbalanced⟩
  · rintro ⟨hcs, hbrace, hbalanced⟩
    rw [hbrace]
    exact ⟨⟨hcs, rfl, hbalanced⟩, rfl⟩

/-- A text before a brace is read as one expression exactly when it is balanced. -/
theorem expressionAt_brace_iff {body : List Char} :
    expressionAt (String.ofList (body ++ ['\x7d'])) 0 "\x7d"
      = .ok ⟨0, body.length, String.ofList body⟩ ↔ Balanced true body := by
  have hsource : String.ofList (body ++ ['\x7d'])
      = "" ++ String.ofList body ++ String.singleton '\x7d' ++ "" := by
    simp
  have henclosed := expressionAt_enclosed_iff "" (String.ofList body) ""
    (show isCloser '\x7d' = true from rfl)
  rw [String.length_empty, Nat.zero_add, String.length_ofList, String.toList_ofList] at henclosed
  rw [hsource]
  exact henclosed

/-! ## Taking pieces apart -/

section
variable {pieces : List Piece} {rest : List Char}

theorem WellFormed.of_plain {c : Char} (h : WellFormed pieces) (hraw : rawText pieces = c :: rest)
    (hplain : Plain c rest) :
    ∃ others, WellFormed others ∧ rawText others = rest ∧
      pieces = Interpolation.prepend c others := by
  match pieces, h with
  | [], _ => cases hraw
  | .escape kind :: _, _ =>
    cases hraw
    exact absurd rfl (hplain.not_escaped kind _ rfl)
  | .expr kind _ :: _, _ =>
    cases hraw
    exact absurd rfl (hplain.not_opened kind rfl)
  | .literal [] :: _, .cons hvalid _ _ => exact absurd rfl hvalid.1
  | .literal [d] :: others, h =>
    cases hraw
    refine ⟨others, ?_, rfl, (prepend_of_not_literal h.not_literal).symm⟩
    cases h with
    | cons _ _ hothers => exact hothers
  | .literal (d :: e :: text) :: others, h =>
    cases hraw
    exact ⟨.literal (e :: text) :: others, h.tail nofun, rfl, rfl⟩

theorem WellFormed.of_escaped {kind : SegmentKind} (h : WellFormed pieces)
    (hraw : rawText pieces = '\x5c' :: kind.mark :: '\x7b' :: rest) :
    ∃ others, WellFormed others ∧ rawText others = rest ∧ pieces = .escape kind :: others := by
  match pieces, h with
  | [], _ => cases hraw
  | .escape kind' :: others, .cons _ _ hothers =>
    simp only [rawText_cons, Piece.raw, List.cons_append, List.nil_append, List.cons.injEq] at hraw
    obtain ⟨-, hmark, -, hrest⟩ := hraw
    exact ⟨others, hothers, hrest, by rw [mark_injective hmark]⟩
  | .expr kind' _ :: _, _ => cases kind' <;> cases hraw
  | .literal [] :: _, .cons hvalid _ _ => exact absurd rfl hvalid.1
  | .literal [d] :: others, h =>
    simp only [rawText_cons, Piece.raw, List.cons_append, List.nil_append, List.cons.injEq] at hraw
    obtain ⟨rfl, hrest⟩ := hraw
    exact absurd hrest (h.rawText_ne rfl)
  | .literal [d, e] :: others, h =>
    simp only [rawText_cons, Piece.raw, List.cons_append, List.nil_append, List.cons.injEq] at hraw
    obtain ⟨-, -, hrest⟩ := hraw
    exact absurd (by rw [hrest]; rfl) h.head?_rawText
  | .literal (d :: e :: f :: text) :: others, .cons hvalid _ _ =>
    simp only [rawText_cons, Piece.raw, List.cons_append, List.cons.injEq] at hraw
    obtain ⟨-, rfl, rfl, -⟩ := hraw
    have hopens := (opensInterpolation_cons_eq_false.1 hvalid.2).2
    exact absurd rfl ((opensInterpolation_cons_eq_false.1 hopens).1 kind rfl)

theorem WellFormed.of_opened {kind : SegmentKind} (h : WellFormed pieces)
    (hraw : rawText pieces = kind.mark :: '\x7b' :: rest) :
    ∃ body others, Piece.Valid (.expr kind body) ∧ WellFormed others ∧
      rest = body ++ '\x7d' :: rawText others ∧ pieces = .expr kind body :: others := by
  match pieces, h with
  | [], _ => cases hraw
  | .escape _ :: _, _ => cases kind <;> cases hraw
  | .expr kind' body :: others, .cons hvalid _ hothers =>
    simp only [rawText_cons, Piece.raw, List.cons_append, List.append_assoc, List.nil_append,
      List.cons.injEq] at hraw
    obtain ⟨hmark, -, hrest⟩ := hraw
    obtain rfl := mark_injective hmark
    exact ⟨body, others, hvalid, hothers, hrest.symm, rfl⟩
  | .literal [] :: _, .cons hvalid _ _ => exact absurd rfl hvalid.1
  | .literal [d] :: others, h =>
    simp only [rawText_cons, Piece.raw, List.cons_append, List.nil_append, List.cons.injEq] at hraw
    exact absurd (by rw [hraw.2]; rfl) h.head?_rawText
  | .literal (d :: e :: text) :: others, .cons hvalid _ _ =>
    simp only [rawText_cons, Piece.raw, List.cons_append, List.cons.injEq] at hraw
    obtain ⟨rfl, rfl, -⟩ := hraw
    exact absurd rfl ((opensInterpolation_cons_eq_false.1 hvalid.2).1 kind rfl)

end

/-! ## The steps of the scan -/

section
variable {size position : Nat} {pending cs rest : List Char}

theorem segmentsFrom_done (h : lead cs = .done) :
    segmentsFrom size pending position cs = (literal pending, none) := by
  rw [segmentsFrom]
  split <;> rename_i heq <;> cases h.symm.trans heq
  rfl

theorem segmentsFrom_other {c : Char} (h : lead cs = .other c rest) :
    segmentsFrom size pending position cs
      = segmentsFrom size (c :: pending) (position + 1) rest := by
  rw [segmentsFrom]
  split <;> rename_i heq <;> cases h.symm.trans heq
  rfl

theorem segmentsFrom_escaped {mark : Char} (h : lead cs = .escaped mark rest) :
    segmentsFrom size pending position cs
      = segmentsFrom size ('\x7b' :: mark :: pending) (position + 3) rest := by
  rw [segmentsFrom]
  split <;> rename_i heq <;> cases h.symm.trans heq
  rfl

theorem segmentsFrom_opened {kind : SegmentKind} (h : lead cs = .opened kind rest) :
    segmentsFrom size pending position cs =
      match closedBy "\x7d" size (position + 2) rest with
      | .error fault => ([], some fault)
      | .ok cut =>
        if (strip cut.body).isEmpty then ([], some ⟨.blank, position⟩)
        else
          let after := segmentsFrom size [] (position + 3 + cut.body.length) cut.rest
          (literal pending ++ ⟨kind, String.ofList cut.body⟩ :: after.1, after.2) := by
  rw [segmentsFrom]
  split <;> rename_i heq <;> cases h.symm.trans heq
  split <;> rename_i hcut <;> simp only [hcut]

end

/-! ## The whole scan -/

/-- The literal text that pieces begin with. -/
def leadingText (pieces : List Piece) : List Char :=
  (pieces.takeWhile Piece.isLiteral).flatMap Piece.shown

/-- The segments of pieces that stand behind a pending run. -/
def segmentsAfter (pending : List Char) (pieces : List Piece) : List Segment :=
  literal ((leadingText pieces).reverse ++ pending) ++ segments (pieces.dropWhile Piece.isLiteral)

theorem segmentsAfter_done (pending : List Char) : segmentsAfter pending [] = literal pending := by
  rw [segmentsAfter, leadingText, List.dropWhile_nil, segments]
  exact List.append_nil _

theorem segmentsAfter_prepend (pending : List Char) (c : Char) (pieces : List Piece) :
    segmentsAfter pending (prepend c pieces) = segmentsAfter (c :: pending) pieces := by
  have hleading : leadingText (prepend c pieces) = c :: leadingText pieces := by
    unfold prepend
    split <;> rfl
  have hdrop : (prepend c pieces).dropWhile Piece.isLiteral
      = pieces.dropWhile Piece.isLiteral := by
    unfold prepend
    split <;> rfl
  rw [segmentsAfter, segmentsAfter, hleading, hdrop, List.reverse_cons, List.append_assoc]
  rfl

theorem segmentsAfter_escape (pending : List Char) (kind : SegmentKind) (pieces : List Piece) :
    segmentsAfter pending (.escape kind :: pieces)
      = segmentsAfter ('\x7b' :: kind.mark :: pending) pieces := by
  have hleading : leadingText (.escape kind :: pieces)
      = kind.mark :: '\x7b' :: leadingText pieces := rfl
  rw [segmentsAfter, segmentsAfter, hleading, List.reverse_cons, List.reverse_cons,
    List.append_assoc, List.append_assoc]
  rfl

theorem segmentsAfter_expr (pending : List Char) (kind : SegmentKind) (body : List Char)
    (pieces : List Piece) : segmentsAfter pending (.expr kind body :: pieces)
      = literal pending ++ ⟨kind, String.ofList body⟩ :: segments pieces := by
  have hdrop : (Piece.expr kind body :: pieces).dropWhile Piece.isLiteral
      = .expr kind body :: pieces := rfl
  rw [segmentsAfter, hdrop, segments]
  rfl

theorem segmentsAfter_nil {pieces : List Piece} (h : WellFormed pieces) :
    segmentsAfter [] pieces = segments pieces := by
  have hrun : ∀ {text : List Char}, text ≠ [] →
      literal (text.reverse ++ []) = [⟨.text, quote (String.ofList text)⟩] := by
    intro text htext
    simp [literal, htext, quote]
  match pieces, h with
  | [], _ => rfl
  | .expr _ _ :: _, _ => rfl
  | .escape kind :: rest, _ =>
    have htext : leadingText (.escape kind :: rest) ≠ [] := nofun
    rw [segmentsAfter, hrun htext, segments]
    · rfl
    · nofun
  | .literal text :: rest, .cons hvalid _ _ =>
    have htext : leadingText (.literal text :: rest) ≠ [] := by
      obtain ⟨c, cs, rfl⟩ := List.exists_cons_of_ne_nil hvalid.1
      nofun
    rw [segmentsAfter, hrun htext, segments]
    · rfl
    · nofun

theorem WellFormed.eq_nil {pieces : List Piece} (h : WellFormed pieces)
    (hraw : rawText pieces = []) : pieces = [] := by
  match pieces, h with
  | [], _ => rfl
  | .literal [] :: _, .cons hvalid _ _ => exact absurd rfl hvalid.1

/-- The scan of well-formed pieces gives their segments. -/
theorem segmentsFrom_rawText {size : Nat} {pieces : List Piece} (h : WellFormed pieces) :
    ∀ (pending : List Char) (position : Nat),
      segmentsFrom size pending position (rawText pieces)
        = (segmentsAfter pending pieces, none) := by
  generalize hraw : rawText pieces = cs
  induction hlength : cs.length using Nat.strongRecOn generalizing cs pieces with
  | ind n ih =>
    subst hlength
    intro pending position
    have hleads := leads_lead cs
    generalize hlead : lead cs = found at hleads
    -- the look at the start of the text decides the first piece
    cases hleads with
    | done =>
      obtain rfl := h.eq_nil hraw
      rw [segmentsFrom_done hlead, segmentsAfter_done]
    | @other c rest hplain =>
      obtain ⟨others, hothers, rfl, rfl⟩ := h.of_plain hraw hplain
      rw [segmentsFrom_other hlead, ih _ (Nat.lt_succ_self _) hothers _ rfl rfl,
        segmentsAfter_prepend]
    | escaped kind rest =>
      obtain ⟨others, hothers, rfl, rfl⟩ := h.of_escaped hraw
      rw [segmentsFrom_escaped hlead, ih _ (by simp; omega) hothers _ rfl rfl,
        segmentsAfter_escape]
    | opened kind rest =>
      obtain ⟨body, others, hvalid, hothers, rfl, rfl⟩ := h.of_opened hraw
      have hcut : closedBy "\x7d" size (position + 2) (body ++ '\x7d' :: rawText others)
          = .ok ⟨body, '\x7d', rawText others⟩ :=
        closedBy_brace_iff.2 ⟨rfl, rfl, expressionAt_brace_iff.1 hvalid.2⟩
      have hblank : ¬(strip body).isEmpty = true := fun hempty =>
        hvalid.1 (List.isEmpty_iff.1 hempty)
      rw [segmentsFrom_opened hlead, hcut]
      simp only [if_neg hblank]
      rw [ih _ (by simp; omega) hothers _ rfl rfl, segmentsAfter_nil hothers, segmentsAfter_expr]

/-- A text that is scanned to its end is made of well-formed pieces. -/
theorem exists_wellFormed {size : Nat} {cs : List Char} {pending : List Char} {position : Nat}
    (h : (segmentsFrom size pending position cs).2 = none) :
    ∃ pieces, WellFormed pieces ∧ rawText pieces = cs := by
  induction hlength : cs.length using Nat.strongRecOn generalizing cs pending position with
  | ind n ih =>
    subst hlength
    have hleads := leads_lead cs
    generalize hlead : lead cs = found at hleads
    cases hleads with
    | done => exact ⟨[], .nil, rfl⟩
    | @other c rest hplain =>
      rw [segmentsFrom_other hlead] at h
      obtain ⟨others, hothers, rfl⟩ := ih _ (Nat.lt_succ_self _) h rfl
      exact ⟨prepend c others, hothers.prepend hplain, rawText_prepend c others⟩
    | escaped kind rest =>
      rw [segmentsFrom_escaped hlead] at h
      obtain ⟨others, hothers, rfl⟩ := ih _ (by simp; omega) h rfl
      exact ⟨.escape kind :: others, .cons trivial (fun _ _ => trivial) hothers, rfl⟩
    | opened kind rest =>
      rw [segmentsFrom_opened hlead] at h
      split at h
      case h_1 => cases h
      case h_2 cut hcut =>
        obtain ⟨hrest, -, hbalanced⟩ := closedBy_brace_iff.1 hcut
        split at h
        case isTrue => cases h
        case isFalse hblank =>
          have hshorter : cut.rest.length < (kind.mark :: '\x7b' :: rest).length := by
            rw [hrest]
            simp
            omega
          obtain ⟨others, hothers, hraw⟩ := ih _ hshorter h rfl
          refine ⟨.expr kind cut.body :: others, .cons ⟨?_, ?_⟩ (fun _ _ => trivial) hothers, ?_⟩
          · exact fun hnil => hblank (List.isEmpty_iff.2 hnil)
          · exact expressionAt_brace_iff.2 hbalanced
          · rw [rawText_cons, Piece.raw, hraw, hrest]
            simp

/-- A text is made of well-formed pieces in one way at most. -/
theorem WellFormed.unique {pieces pieces' : List Piece} (h : WellFormed pieces)
    (h' : WellFormed pieces') (hraw : rawText pieces = rawText pieces') : pieces = pieces' := by
  generalize hcs : rawText pieces' = cs at hraw
  induction hlength : cs.length using Nat.strongRecOn generalizing cs pieces pieces' with
  | ind n ih =>
    subst hlength
    have hleads := leads_lead cs
    generalize lead cs = found at hleads
    cases hleads with
    | done => rw [h.eq_nil hraw, h'.eq_nil hcs]
    | @other c rest hplain =>
      obtain ⟨others, hothers, hrest, rfl⟩ := h.of_plain hraw hplain
      obtain ⟨others', hothers', hrest', rfl⟩ := h'.of_plain hcs hplain
      rw [ih _ (Nat.lt_succ_self _) hothers hothers' _ hrest' hrest rfl]
    | escaped kind rest =>
      obtain ⟨others, hothers, hrest, rfl⟩ := h.of_escaped hraw
      obtain ⟨others', hothers', hrest', rfl⟩ := h'.of_escaped hcs
      rw [ih _ (by simp; omega) hothers hothers' _ hrest' hrest rfl]
    | opened kind rest =>
      obtain ⟨body, others, hvalid, hothers, hrest, rfl⟩ := h.of_opened hraw
      obtain ⟨body', others', hvalid', hothers', hrest', rfl⟩ := h'.of_opened hcs
      -- an expression ends in one place only
      have hcut : closedBy "\x7d" 0 0 rest = .ok ⟨body, '\x7d', rawText others⟩ :=
        closedBy_brace_iff.2 ⟨hrest, rfl, expressionAt_brace_iff.1 hvalid.2⟩
      have hcut' : closedBy "\x7d" 0 0 rest = .ok ⟨body', '\x7d', rawText others'⟩ :=
        closedBy_brace_iff.2 ⟨hrest', rfl, expressionAt_brace_iff.1 hvalid'.2⟩
      have hsame := hcut.symm.trans hcut'
      simp only [Except.ok.injEq, Cut.mk.injEq, true_and] at hsame
      obtain ⟨rfl, hraw'⟩ := hsame
      rw [ih _ (by simp [hrest']; omega) hothers hothers' _ rfl hraw' rfl]

end Interpolation

open Interpolation

/-- A text is scanned without a fault exactly when it is made of well-formed pieces. The pieces are
then unique, and the segments are theirs. -/
theorem interpolate_spec (text : String) :
    ((interpolate text).2 = none ↔
      ∃ pieces, WellFormed pieces ∧ text.toList = rawText pieces) ∧
    ∀ pieces, WellFormed pieces → text.toList = rawText pieces →
      (interpolate text).1 = segments pieces ∧
      ∀ pieces', WellFormed pieces' → text.toList = rawText pieces' → pieces' = pieces := by
  have hscan : ∀ pieces, WellFormed pieces → text.toList = rawText pieces →
      interpolate text = (segments pieces, none) := by
    intro pieces h hraw
    rw [interpolate, hraw, segmentsFrom_rawText h, segmentsAfter_nil h]
  refine ⟨⟨fun h => ?_, ?_⟩, fun pieces h hraw => ⟨?_, fun pieces' h' hraw' => ?_⟩⟩
  · obtain ⟨pieces, hpieces, hraw⟩ := exists_wellFormed h
    exact ⟨pieces, hpieces, hraw.symm⟩
  · rintro ⟨pieces, h, hraw⟩
    rw [hscan pieces h hraw]
  · rw [hscan pieces h hraw]
  · exact h'.unique h (hraw'.symm.trans hraw)

end Espalier
