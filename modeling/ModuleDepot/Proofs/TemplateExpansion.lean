import Mathlib.Data.List.Basic
import ModuleDepot.Origin.Template
import ModuleDepot.Proofs.JsonText

/-!
A template as what it says: pieces, read once from left to right, some of which stand for a
segment or for the version. Filling in all of them at once is what an expansion is meant to
be. The expansion that is done exchanges one mark after another in the whole text, and comes
to the same as long as every mark that it finds is a piece of the template.
-/

namespace ModuleDepot

namespace Text

variable {old new : List Char}

/-- A text is exchanged to its end, however much is left to go. -/
theorem replaceAll_go_congr (nonempty : old ≠ []) {fuel other : Nat} {text : List Char}
    (enough : text.length ≤ fuel) (enough' : text.length ≤ other) :
    replaceAll.go old new fuel text = replaceAll.go old new other text := by
  induction fuel generalizing other text with
  | zero =>
      obtain rfl := List.length_eq_zero_iff.mp (Nat.le_zero.mp enough)
      cases other <;> rfl
  | succ fuel ih =>
      cases text with
      | nil => cases other <;> rfl
      | cons c rest =>
          obtain ⟨other, rfl⟩ := Nat.exists_eq_add_one.mpr (Nat.lt_of_lt_of_le (by simp) enough')
          rw [List.length_cons, Nat.add_le_add_iff_right] at enough enough'
          dsimp only [replaceAll.go]
          split
          · next after begins =>
              have shape := List.isPrefixOf?_eq_some_iff_append_eq.mp begins
              have size := congrArg List.length shape
              rw [List.length_append, List.length_cons] at size
              have positive := List.length_pos_iff.mpr nonempty
              have same : replaceAll.go old new fuel after = replaceAll.go old new other after :=
                ih (by omega) (by omega)
              rw [same]
          · rw [ih enough enough']

theorem replaceAll_eq_go (nonempty : old ≠ []) (text : List Char) :
    replaceAll old new text = replaceAll.go old new text.length text := by
  cases old with
  | nil => exact absurd rfl nonempty
  | cons c rest => rfl

theorem replaceAll_nil (nonempty : old ≠ []) : replaceAll old new [] = [] := by
  rw [replaceAll_eq_go nonempty]
  rfl

theorem replaceAll_append_self (nonempty : old ≠ []) (rest : List Char) :
    replaceAll old new (old ++ rest) = new ++ replaceAll old new rest := by
  have begins : old.isPrefixOf? (old ++ rest) = some rest :=
    List.isPrefixOf?_eq_some_iff_append_eq.mpr rfl
  rw [replaceAll_eq_go nonempty, replaceAll_eq_go nonempty]
  obtain ⟨c, tail, rfl⟩ := List.exists_cons_of_ne_nil nonempty
  rw [List.cons_append] at begins ⊢
  rw [List.length_cons, replaceAll.go, begins]
  dsimp only
  rw [replaceAll_go_congr nonempty (by simp) (Nat.le_refl _)]

theorem replaceAll_cons (nonempty : old ≠ []) {c : Char} {rest : List Char}
    (other : ¬ old <+: c :: rest) :
    replaceAll old new (c :: rest) = c :: replaceAll old new rest := by
  have begins : old.isPrefixOf? (c :: rest) = none := by
    cases found : old.isPrefixOf? (c :: rest) with
    | none => rfl
    | some after => exact absurd ⟨after, List.isPrefixOf?_eq_some_iff_append_eq.mp found⟩ other
  rw [replaceAll_eq_go nonempty, replaceAll_eq_go nonempty, List.length_cons, replaceAll.go,
    begins]

/-- Where nothing to exchange begins, the text stays. -/
theorem replaceAll_append (nonempty : old ≠ []) {text rest : List Char}
    (clear : ∀ before after, text = before ++ after → after ≠ [] → ¬ old <+: after ++ rest) :
    replaceAll old new (text ++ rest) = text ++ replaceAll old new rest := by
  induction text with
  | nil => rfl
  | cons c text ih =>
      have later := ih fun before after shape => clear (c :: before) after (by rw [shape]; rfl)
      have here : ¬ old <+: c :: (text ++ rest) := clear [] (c :: text) rfl (by simp)
      rw [List.cons_append, replaceAll_cons nonempty here, later, List.cons_append]

end Text

namespace Template

/-- A piece of a template: a placeholder, or any other character. -/
inductive Piece where
  | segment (n : Nat)
  | version
  | plain (c : Char)
deriving DecidableEq

namespace Piece

/-- The piece as the template has it. -/
def written : Piece → List Char
  | segment n => segmentMark n
  | version => versionMark
  | plain c => [c]

/-- The piece when the segments with numbers above `n` have been filled in. -/
def filledAbove (segments : List (List Char)) (n : Nat) : Piece → List Char
  | segment m => if n < m then segments.getD (m - 1) [] else segmentMark m
  | version => versionMark
  | plain c => [c]

/-- The piece when all placeholders have been filled in. -/
def filled (segments : List (List Char)) (known : List Char) : Piece → List Char
  | segment n => segments.getD (n - 1) []
  | version => known
  | plain c => [c]

end Piece

/-- The position among `count` segments that digits stand for. It is written without a zero in
front. -/
def position? (count : Nat) (digits : List Char) : Option Nat :=
  (List.range' 1 count).find? fun n => Nat.toDigits 10 n = digits

/-- The placeholder that begins here. All digits behind `ELEM` belong to its number. -/
def placeholder? (count : Nat) (text : List Char) : Option Piece :=
  match "ELEM".toList.isPrefixOf? text with
  | some rest => (position? count (rest.takeWhile Char.isDigit)).map .segment
  | none => (versionMark.isPrefixOf? text).map fun _ => .version

/-- Reads a template for `count` segments, after some characters that belong to the piece
before. -/
def readAfter (count : Nat) : Nat → List Char → List Piece
  | _, [] => []
  | skipped + 1, _ :: rest => readAfter count skipped rest
  | 0, c :: rest =>
      match placeholder? count (c :: rest) with
      | some piece => piece :: readAfter count (piece.written.length - 1) rest
      | none => .plain c :: readAfter count 0 rest

/-- Reads a template for `count` segments. -/
def read (count : Nat) (text : List Char) : List Piece := readAfter count 0 text

/-- The template with all its placeholders filled in at once. -/
def substituted (template : String) (segments : List String) (version : String) : String :=
  String.ofList <| (read segments.length template.toList).flatMap
    (Piece.filled (segments.map String.toList) (Version.addressable version).toList)

/-! ## Reading -/

theorem position?_eq_some_iff {count n : Nat} {digits : List Char} :
    position? count digits = some n ↔ 0 < n ∧ n ≤ count ∧ Nat.toDigits 10 n = digits := by
  unfold position?
  constructor
  · intro found
    have written := List.find?_some found
    have member := List.mem_of_find?_eq_some found
    rw [List.mem_range'_1] at member
    exact ⟨by omega, by omega, of_decide_eq_true written⟩
  · rintro ⟨positive, within, rfl⟩
    cases found : (List.range' 1 count).find? fun m => Nat.toDigits 10 m = Nat.toDigits 10 n with
    | none =>
        have absent := List.find?_eq_none.mp found n (List.mem_range'_1.mpr (by omega))
        simp at absent
    | some m =>
        have same : Nat.toDigits 10 m = Nat.toDigits 10 n := by
          simpa using List.find?_some found
        rw [← Json.decimalValue_toDigits n, ← same, Json.decimalValue_toDigits]

variable {count : Nat}

/-- The two ways in which a placeholder begins. -/
theorem placeholder_cases {text : List Char} {piece : Piece}
    (found : placeholder? count text = some piece) :
    (∃ n rest, piece = .segment n ∧ text = "ELEM".toList ++ rest ∧
        position? count (rest.takeWhile Char.isDigit) = some n) ∨
      piece = .version ∧ ∃ rest, text = versionMark ++ rest := by
  unfold placeholder? at found
  split at found
  · next rest begins =>
      obtain ⟨n, place, rfl⟩ := Option.map_eq_some_iff.mp found
      exact Or.inl
        ⟨n, rest, rfl, (List.isPrefixOf?_eq_some_iff_append_eq.mp begins).symm, place⟩
  · obtain ⟨rest, begins, rfl⟩ := Option.map_eq_some_iff.mp found
    exact Or.inr ⟨rfl, rest, (List.isPrefixOf?_eq_some_iff_append_eq.mp begins).symm⟩

/-- What a placeholder is read from is the placeholder as it is written. -/
theorem written_of_placeholder {text : List Char} {piece : Piece}
    (found : placeholder? count text = some piece) : ∃ rest, text = piece.written ++ rest := by
  rcases placeholder_cases found with ⟨n, rest, rfl, rfl, place⟩ | ⟨rfl, rest, rfl⟩
  · obtain ⟨-, -, digits⟩ := position?_eq_some_iff.mp place
    refine ⟨rest.dropWhile Char.isDigit, ?_⟩
    rw [Piece.written, segmentMark, digits, List.append_assoc, List.takeWhile_append_dropWhile]
  · exact ⟨rest, rfl⟩

theorem bounds_of_placeholder {text : List Char} {n : Nat}
    (found : placeholder? count text = some (.segment n)) : 0 < n ∧ n ≤ count := by
  rcases placeholder_cases found with ⟨m, rest, same, -, place⟩ | ⟨same, -⟩
  · cases same
    obtain ⟨positive, within, -⟩ := position?_eq_some_iff.mp place
    exact ⟨positive, within⟩
  · cases same

theorem ne_plain_of_placeholder {text : List Char} {piece : Piece}
    (found : placeholder? count text = some piece) (c : Char) : piece ≠ .plain c := by
  rcases placeholder_cases found with ⟨n, rest, rfl, -⟩ | ⟨rfl, -⟩ <;> exact Piece.noConfusion

theorem readAfter_eq (skipped : Nat) (text : List Char) :
    readAfter count skipped text = read count (text.drop skipped) := by
  induction text generalizing skipped with
  | nil => simp [read, readAfter]
  | cons c rest ih =>
      cases skipped with
      | zero => rfl
      | succ skipped => exact ih skipped

theorem read_placeholder {piece : Piece} {rest : List Char}
    (found : placeholder? count (piece.written ++ rest) = some piece)
    (nonempty : piece.written ≠ []) :
    read count (piece.written ++ rest) = piece :: read count rest := by
  obtain ⟨c, mark, shape⟩ := List.exists_cons_of_ne_nil nonempty
  rw [shape, List.cons_append] at found ⊢
  rw [read, readAfter, found]
  dsimp only
  rw [readAfter_eq, shape, List.length_cons, Nat.add_sub_cancel, List.drop_left]

theorem read_plain {c : Char} {rest : List Char} (none : placeholder? count (c :: rest) = none) :
    read count (c :: rest) = .plain c :: read count rest := by
  rw [read, readAfter, none]
  rfl

theorem written_ne_nil (piece : Piece) : piece.written ≠ [] := by
  cases piece with
  | segment n => exact fun empty => Nat.toDigits_ne_nil (List.append_eq_nil_iff.mp empty).2
  | version =>
      rw [Piece.written]
      decide
  | plain c => exact List.cons_ne_nil c []

/-- A template is read piece by piece. A piece is a placeholder where one begins, and otherwise a
character. -/
theorem read_induction (count : Nat) {motive : List Char → Prop} (nil : motive [])
    (placeholder : ∀ piece rest, placeholder? count (piece.written ++ rest) = some piece →
      motive rest → motive (piece.written ++ rest))
    (plain : ∀ c rest, placeholder? count (c :: rest) = none → motive rest → motive (c :: rest))
    (text : List Char) : motive text := by
  induction size : text.length using Nat.strongRecOn generalizing text with
  | ind size ih =>
      cases text with
      | nil => exact nil
      | cons c rest =>
          cases found : placeholder? count (c :: rest) with
          | none => exact plain c rest found (ih _ (by simp [← size]) rest rfl)
          | some piece =>
              obtain ⟨after, shape⟩ := written_of_placeholder found
              rw [shape] at found size ⊢
              refine placeholder piece after found (ih _ ?_ after rfl)
              have longer := List.length_pos_iff.mpr (written_ne_nil piece)
              rw [← size, List.length_append]
              omega

/-- Nothing of the template is lost in reading. -/
theorem flatMap_written_read (count : Nat) (text : List Char) :
    (read count text).flatMap Piece.written = text := by
  induction text using read_induction count with
  | nil => rfl
  | placeholder piece rest found ih =>
      rw [read_placeholder found (written_ne_nil piece), List.flatMap_cons, ih]
  | plain c rest none ih => rw [read_plain none, List.flatMap_cons, ih]; rfl

/-! ## Filling in -/

/-- Wherever a placeholder's mark stands in the text that the pieces show, that placeholder is
there. -/
def MarkedBy (mark : Piece) (shown : Piece → List Char) (pieces : List Piece) : Prop :=
  ∀ before after, pieces.flatMap shown = before ++ mark.written ++ after →
    ∃ front back, pieces = front ++ mark :: back ∧ front.flatMap shown = before

/-- Every mark that is found while a template is expanded is a placeholder of the template: a
segment's when the segments with higher numbers have been filled in, and the version's when all
segments have. -/
def ReadAsWritten (template : String) (segments : List String) : Prop :=
  let pieces := read segments.length template.toList
  let texts := segments.map String.toList
  (∀ n, 0 < n → n ≤ segments.length → MarkedBy (.segment n) (Piece.filledAbove texts n) pieces) ∧
    MarkedBy .version (Piece.filledAbove texts 0) pieces

section

variable {mark p : Piece} {shown : Piece → List Char} {pieces : List Piece}

theorem MarkedBy.of_cons (own : shown mark = mark.written)
    (marked : MarkedBy mark shown (p :: pieces)) : MarkedBy mark shown pieces := by
  intro before after stands
  obtain ⟨front, back, split, shows⟩ := marked (shown p ++ before) after (by
    simp only [List.flatMap_cons, stands, List.append_assoc])
  cases front with
  | nil =>
      obtain ⟨rfl, -⟩ := List.cons.inj split
      have empty := List.append_eq_nil_iff.mp shows.symm
      exact absurd (own ▸ empty.1) (written_ne_nil p)
  | cons q front =>
      obtain ⟨rfl, rfl⟩ := List.cons.inj split
      exact ⟨front, back, rfl, List.append_cancel_left shows⟩

/-- A mark that began within another piece would have to be a placeholder before its end. -/
theorem MarkedBy.none_within {before after : List Char}
    (marked : MarkedBy mark shown (p :: pieces)) (other : p ≠ mark)
    (shape : shown p = before ++ after) (left : after ≠ []) :
    ¬ mark.written <+: after ++ pieces.flatMap shown := by
  rintro ⟨beyond, stands⟩
  obtain ⟨front, back, split, shows⟩ := marked before beyond (by
    rw [List.flatMap_cons, shape, List.append_assoc, ← stands, List.append_assoc])
  cases front with
  | nil => exact other (List.cons.inj split).1
  | cons q front =>
      obtain ⟨rfl, -⟩ := List.cons.inj split
      have size := congrArg List.length shows
      rw [List.flatMap_cons, shape, List.length_append, List.length_append] at size
      have positive := List.length_pos_iff.mpr left
      omega

/-- Exchanging a placeholder's mark exchanges that placeholder, if the mark stands nowhere else. -/
theorem replaceAll_flatMap (mark : Piece) (next : Piece → List Char)
    (own : shown mark = mark.written) (others : ∀ p ∈ pieces, p ≠ mark → next p = shown p)
    (marked : MarkedBy mark shown pieces) :
    Text.replaceAll mark.written (next mark) (pieces.flatMap shown) = pieces.flatMap next := by
  have nonempty := written_ne_nil mark
  induction pieces with
  | nil => exact Text.replaceAll_nil nonempty
  | cons p rest ih =>
      have rests := ih (fun q member => others q (List.mem_cons_of_mem p member))
        (marked.of_cons own)
      rw [List.flatMap_cons, List.flatMap_cons, ← rests]
      by_cases same : p = mark
      · rw [same, own, Text.replaceAll_append_self nonempty]
      · rw [others p List.mem_cons_self same]
        exact Text.replaceAll_append nonempty fun _ _ shape left =>
          marked.none_within same shape left

end

theorem segment_of_mem_read {count n : Nat} {text : List Char}
    (member : .segment n ∈ read count text) : 0 < n ∧ n ≤ count := by
  induction text using read_induction count with
  | nil => cases member
  | placeholder piece rest found ih =>
      rw [read_placeholder found (written_ne_nil piece)] at member
      rcases List.mem_cons.mp member with rfl | later
      · exact bounds_of_placeholder found
      · exact ih later
  | plain c rest none ih =>
      rw [read_plain none] at member
      rcases List.mem_cons.mp member with here | later
      · cases here
      · exact ih later

/-- Filling in the segments one after another, from the last to the first. -/
theorem fillSegments_flatMap {texts : List (List Char)} {pieces : List Piece} {n : Nat}
    (marked : ∀ m, 0 < m → m ≤ n → MarkedBy (.segment m) (Piece.filledAbove texts m) pieces) :
    fillSegments texts n (pieces.flatMap (Piece.filledAbove texts n)) =
      pieces.flatMap (Piece.filledAbove texts 0) := by
  induction n with
  | zero => rfl
  | succ n ih =>
      have step : Text.replaceAll (segmentMark (n + 1)) (texts.getD n [])
          (pieces.flatMap (Piece.filledAbove texts (n + 1))) =
          pieces.flatMap (Piece.filledAbove texts n) := by
        have own : Piece.filledAbove texts n (.segment (n + 1)) = texts.getD n [] := by
          simp [Piece.filledAbove]
        rw [← own]
        refine replaceAll_flatMap (.segment (n + 1)) (Piece.filledAbove texts n) ?_ ?_
          (marked (n + 1) (by omega) (by omega))
        · simp [Piece.filledAbove, Piece.written]
        · intro p _ other
          cases p with
          | segment m =>
              have apart : m ≠ n + 1 := fun same => other (same ▸ rfl)
              have side : n < m ↔ n + 1 < m := by omega
              simp only [Piece.filledAbove, side]
          | version => rfl
          | plain c => rfl
      rw [fillSegments, step]
      exact ih fun m positive within => marked m positive (by omega)

/-- An expansion that meets no mark but the template's own placeholders fills them all in at
once. -/
theorem expandTemplate_eq {template : String} {segments : List String} (version : String)
    (clear : ReadAsWritten template segments) :
    expandTemplate template segments version = substituted template segments version := by
  obtain ⟨onSegments, onVersion⟩ := clear
  have start : (read segments.length template.toList).flatMap
      (Piece.filledAbove (segments.map String.toList) segments.length) = template.toList := by
    refine Eq.trans ?_ (flatMap_written_read segments.length template.toList)
    refine List.flatMap_congr fun p member => ?_
    cases p with
    | segment n =>
        have within := (segment_of_mem_read member).2
        simp [Piece.filledAbove, Piece.written, Nat.not_lt.mpr within]
    | version | plain => rfl
  have last : Text.replaceAll versionMark (Version.addressable version).toList
      ((read segments.length template.toList).flatMap
        (Piece.filledAbove (segments.map String.toList) 0)) =
      (read segments.length template.toList).flatMap
        (Piece.filled (segments.map String.toList) (Version.addressable version).toList) := by
    refine replaceAll_flatMap .version
      (Piece.filled (segments.map String.toList) (Version.addressable version).toList) rfl
      (fun p member other => ?_) onVersion
    cases p with
    | segment n =>
        have positive := (segment_of_mem_read member).1
        simp [Piece.filledAbove, Piece.filled, positive]
    | version => exact absurd rfl other
    | plain c => rfl
  unfold expandTemplate substituted
  dsimp only
  rw [← last, ← fillSegments_flatMap onSegments, start]

end Template

end ModuleDepot
