import Mathlib.Data.List.Infix
import ModuleDepot.Proofs.TemplateExpansion

/-!
Templates whose placeholders stand apart: beside a placeholder there is only a character that
no mark holds. In such a template no mark can arise across the border of what is filled in,
so it is expanded at once for all segments that hold no mark themselves, as long as no
number in it is cut short.
-/

namespace ModuleDepot

namespace Template

/-- A character of some mark. -/
def isMarkChar (c : Char) : Bool := c.isDigit || "ELMVRSION".toList.contains c

/-- Whether of two neighbours a placeholder is beside a character that no mark holds. -/
def clearOf : Piece → Piece → Bool
  | .plain _, .plain _ => true
  | .plain c, _ => !isMarkChar c
  | _, .plain c => !isMarkChar c
  | _, _ => false

/-- Placeholders stand apart. -/
def Apart (pieces : List Piece) : Prop := pieces.IsChain fun p q => clearOf p q = true
deriving Decidable

/-- What it takes that an expansion meets no mark but the template's own placeholders: they stand
apart, what begins like a segment's mark is a placeholder, and no segment holds a mark. -/
structure Spaced (template : String) (segments : List String) : Prop where
  apart : Apart (read segments.length template.toList)
  reached : ∀ n after, 0 < n → n ≤ segments.length → segmentMark n <+: after →
    after <:+ template.toList → (placeholder? segments.length after).isSome = true
  unmarked : ∀ s ∈ segments, ¬ "ELEM".toList <:+: s.toList ∧ ¬ versionMark <:+: s.toList

variable {count : Nat} {text : List Char} {mark : Piece} {shown : Piece → List Char}

theorem isMarkChar_of_mem {c : Char} (member : c ∈ mark.written) (other : ∀ c, mark ≠ .plain c) :
    isMarkChar c = true := by
  cases mark with
  | segment n =>
      rcases List.mem_append.mp member with letter | digit
      · have letters : "ELEM".toList.all isMarkChar = true := by decide
        exact List.all_eq_true.mp letters c letter
      · simp [isMarkChar, Json.isDigit_of_mem c digit]
  | version =>
      have letters : versionMark.all isMarkChar = true := by decide
      exact List.all_eq_true.mp letters c member
  | plain c => exact absurd rfl (other c)

/-- Beside a placeholder there is a character that no mark holds. -/
theorem plain_of_apart {p q : Piece} (other : ∀ c, p ≠ .plain c) (clear : clearOf p q = true) :
    ∃ c, q = .plain c ∧ isMarkChar c = false := by
  cases p with
  | plain c => exact absurd rfl (other c)
  | segment n | version =>
      cases q with
      | plain c => exact ⟨c, rfl, by simpa [clearOf] using clear⟩
      | segment m | version => cases clear

theorem plain_of_plain_apart {c : Char} {q : Piece} (first : isMarkChar c = true)
    (clear : clearOf (.plain c) q = true) : ∃ d, q = .plain d := by
  cases q with
  | plain d => exact ⟨d, rfl⟩
  | segment m | version => simp [clearOf, first] at clear

/-- Characters of marks that are shown behind such a character stand in the template itself. -/
theorem spelled_of_shown (plain : ∀ c, shown (.plain c) = [c]) {c : Char} {letters : List Char}
    {after : List Char} (first : isMarkChar c = true)
    (others : ∀ d ∈ letters, isMarkChar d = true)
    (apart : Apart (.plain c :: read count text))
    (stands : (read count text).flatMap shown = letters ++ after) :
    ∃ beyond, text = letters ++ beyond := by
  induction letters generalizing c text with
  | nil => exact ⟨text, rfl⟩
  | cons d letters ih =>
      cases text with
      | nil => cases stands
      | cons e rest =>
          cases found : placeholder? count (e :: rest) with
          | some piece =>
              obtain ⟨rest', shape⟩ := written_of_placeholder found
              rw [shape] at found apart
              rw [read_placeholder found (written_ne_nil piece)] at apart
              obtain ⟨x, same⟩ := plain_of_plain_apart first (List.isChain_cons_cons.mp apart).1
              exact absurd same (ne_plain_of_placeholder found x)
          | none =>
              rw [read_plain found] at apart stands
              rw [List.flatMap_cons, plain] at stands
              obtain ⟨rfl, later⟩ := List.cons.inj stands
              obtain ⟨beyond, rfl⟩ := ih (others e List.mem_cons_self)
                (fun x member => others x (List.mem_cons_of_mem e member))
                (List.isChain_cons_cons.mp apart).2 later
              exact ⟨beyond, rfl⟩

/-- Behind a placeholder nothing is shown that a mark begins with. -/
theorem shown_behind_placeholder (plain : ∀ c, shown (.plain c) = [c]) {p : Piece}
    {pieces : List Piece} {d : Char} {after : List Char} (other : ∀ c, p ≠ .plain c)
    (apart : Apart (p :: pieces)) (stands : pieces.flatMap shown = d :: after) :
    isMarkChar d = false := by
  cases pieces with
  | nil => cases stands
  | cons q pieces =>
      obtain ⟨c, rfl, unused⟩ := plain_of_apart other (List.isChain_cons_cons.mp apart).1
      rw [List.flatMap_cons, plain] at stands
      obtain ⟨rfl, -⟩ := List.cons.inj stands
      exact unused

/-- A mark that begins in the first piece has to be that piece. -/
theorem markedBy_cons {p : Piece} {pieces : List Piece} (later : MarkedBy mark shown pieces)
    (here : ∀ before begun after, shown p = before ++ begun → begun ≠ [] →
      mark.written ++ after = begun ++ pieces.flatMap shown → p = mark ∧ before = []) :
    MarkedBy mark shown (p :: pieces) := by
  intro before after stands
  rw [List.flatMap_cons, List.append_assoc] at stands
  rcases List.append_eq_append_iff.mp stands with ⟨between, rfl, behind⟩ | ⟨begun, front, rest⟩
  · rw [← List.append_assoc] at behind
    obtain ⟨front, back, rfl, shows⟩ := later between after behind
    exact ⟨p :: front, back, rfl, by rw [List.flatMap_cons, shows]⟩
  · by_cases empty : begun = []
    · rw [empty, List.nil_append] at rest
      obtain ⟨front', back, rfl, shows⟩ := later [] after (by rw [← rest, List.nil_append])
      refine ⟨p :: front', back, rfl, ?_⟩
      rw [List.flatMap_cons, shows, front, empty, List.append_nil, List.append_nil]
    · obtain ⟨rfl, rfl⟩ := here before begun after front empty rest
      exact ⟨[], pieces, rfl, rfl⟩

/-- A mark that begins in a placeholder ends there: the character behind belongs to no mark. -/
theorem mark_in_placeholder (plain : ∀ c, shown (.plain c) = [c]) (other : ∀ c, mark ≠ .plain c)
    {p : Piece} {pieces : List Piece} (no : ∀ c, p ≠ .plain c) (apart : Apart (p :: pieces))
    {begun after : List Char} (stands : mark.written ++ after = begun ++ pieces.flatMap shown) :
    ∃ more, begun = mark.written ++ more := by
  rcases List.append_eq_append_iff.mp stands with ⟨more, whole, -⟩ | ⟨left, whole, behind⟩
  · exact ⟨more, whole⟩
  · cases left with
    | nil => exact ⟨[], by rw [whole, List.append_nil, List.append_nil]⟩
    | cons d left =>
        have member : d ∈ mark.written := by simp [whole]
        have unused := shown_behind_placeholder plain no apart behind
        rw [isMarkChar_of_mem member other] at unused
        cases unused

/-- A mark that begins with a plain character stands in the template. -/
theorem mark_in_plain (plain : ∀ c, shown (.plain c) = [c]) (other : ∀ c, mark ≠ .plain c)
    {c : Char} {rest after : List Char} (apart : Apart (.plain c :: read count rest))
    (stands : mark.written ++ after = c :: (read count rest).flatMap shown) :
    ∃ beyond, c :: rest = mark.written ++ beyond := by
  have letters : ∀ d ∈ mark.written, isMarkChar d = true :=
    fun d member => isMarkChar_of_mem member other
  obtain ⟨d, tail, shape⟩ := List.exists_cons_of_ne_nil (written_ne_nil mark)
  rw [shape, List.cons_append] at stands
  obtain ⟨rfl, behind⟩ := List.cons.inj stands
  rw [shape] at letters ⊢
  obtain ⟨beyond, rfl⟩ := spelled_of_shown plain (letters d List.mem_cons_self)
    (fun x member => letters x (List.mem_cons_of_mem d member)) apart behind.symm
  exact ⟨beyond, rfl⟩

/-- In a template whose placeholders stand apart, a mark is found only at its placeholder if what is
filled in does not hold it and the template spells it nowhere else. -/
theorem markedBy_of_apart (plain : ∀ c, shown (.plain c) = [c]) (other : ∀ c, mark ≠ .plain c)
    (inside : ∀ p before after, (∀ c, p ≠ .plain c) → p ∈ read count text →
      shown p = before ++ mark.written ++ after → p = mark ∧ before = [])
    (spelled : ∀ before after, text = before ++ mark.written ++ after →
      (placeholder? count (mark.written ++ after)).isSome = true)
    (apart : Apart (read count text)) : MarkedBy mark shown (read count text) := by
  induction text using read_induction count with
  | nil =>
      intro before after stands
      have empty := List.append_eq_nil_iff.mp stands.symm
      exact absurd (List.append_eq_nil_iff.mp empty.1).2 (written_ne_nil mark)
  | placeholder p rest found ih =>
      have no := ne_plain_of_placeholder found
      rw [read_placeholder found (written_ne_nil p)] at inside apart ⊢
      have later : MarkedBy mark shown (read count rest) := ih
        (fun q before after no member => inside q before after no (List.mem_cons_of_mem p member))
        (fun before after shape => spelled (p.written ++ before) after (by
          rw [shape]; simp only [List.append_assoc]))
        apart.of_cons
      refine markedBy_cons later fun before begun after front _ stands => ?_
      obtain ⟨more, rfl⟩ := mark_in_placeholder plain other no apart stands
      exact inside p before more no List.mem_cons_self (by rw [front, List.append_assoc])
  | plain c rest none ih =>
      rw [read_plain none] at inside apart ⊢
      have later : MarkedBy mark shown (read count rest) := ih
        (fun q before after no member => inside q before after no (List.mem_cons_of_mem _ member))
        (fun before after shape => spelled (c :: before) after (by rw [shape]; rfl))
        apart.of_cons
      refine markedBy_cons later fun before begun after front begins stands => ?_
      have whole : begun = [c] := by
        rw [plain] at front
        rcases List.append_eq_singleton_iff.mp front.symm with ⟨-, whole⟩ | ⟨-, empty⟩
        · exact whole
        · exact absurd empty begins
      rw [whole] at stands
      -- Where the mark stands in the template, a placeholder would have been read.
      obtain ⟨beyond, shape⟩ := mark_in_plain plain other apart stands
      have known := spelled [] beyond shape
      rw [← shape, none] at known
      cases known

/-! ## What is filled in -/

variable {template : String} {segments : List String} {n : Nat}

/-- What a read segment is filled in with is one of the segments. -/
theorem segment_filled {m : Nat}
    (member : .segment m ∈ read segments.length template.toList) (above : n < m) :
    ∃ s ∈ segments, Piece.filledAbove (segments.map String.toList) n (.segment m) = s.toList := by
  obtain ⟨positive, within⟩ := segment_of_mem_read member
  have inside : m - 1 < segments.length := by omega
  refine ⟨segments[m - 1], List.getElem_mem inside, ?_⟩
  simp [Piece.filledAbove, above, inside]

/-- Of the marks that are not longer, a segment's mark is in its own only. -/
theorem segmentMark_within {m : Nat} {before after : List Char} (below : m ≤ n)
    (holds : segmentMark m = before ++ segmentMark n ++ after) : m = n ∧ before = [] := by
  have size := congrArg List.length holds
  simp only [segmentMark, List.length_append] at size
  have shorter : (Nat.toDigits 10 m).length ≤ (Nat.toDigits 10 n).length := by
    have present : 0 < (Nat.toDigits 10 n).length := List.length_pos_iff.mpr Nat.toDigits_ne_nil
    rw [Nat.length_toDigits_le_iff (by decide) present]
    exact Nat.lt_of_le_of_lt below
      ((Nat.length_toDigits_le_iff (by decide) present).mp (Nat.le_refl _))
  obtain rfl : before = [] := List.length_eq_zero_iff.mp (by omega)
  obtain rfl : after = [] := List.length_eq_zero_iff.mp (by rw [List.length_nil] at size; omega)
  rw [List.append_nil, List.nil_append] at holds
  have digits := List.append_cancel_left holds
  exact ⟨by rw [← Json.decimalValue_toDigits m, digits, Json.decimalValue_toDigits], rfl⟩

theorem versionMark_without_segment {before after : List Char} :
    versionMark ≠ before ++ segmentMark n ++ after := by
  intro holds
  have letter : 'M' ∈ before ++ segmentMark n ++ after := by simp [segmentMark]
  rw [← holds] at letter
  exact absurd letter (by decide)

theorem placeholder?_versionMark (after : List Char) :
    placeholder? count (versionMark ++ after) = some .version := rfl

theorem Spaced.segment_marked (spaced : Spaced template segments) (positive : 0 < n)
    (within : n ≤ segments.length) :
    MarkedBy (.segment n) (Piece.filledAbove (segments.map String.toList) n)
      (read segments.length template.toList) := by
  refine markedBy_of_apart (fun c => rfl) (fun c => Piece.noConfusion) ?_ ?_ spaced.apart
  · intro p before after no member holds
    cases p with
    | plain c => exact absurd rfl (no c)
    | version => exact absurd holds versionMark_without_segment
    | segment m =>
        by_cases above : n < m
        · obtain ⟨s, listed, filled⟩ := segment_filled member above
          have begins : "ELEM".toList <:+: before ++ segmentMark n ++ after :=
            ⟨before, Nat.toDigits 10 n ++ after, by simp [segmentMark]⟩
          rw [← Piece.written, ← holds, filled] at begins
          exact absurd begins (spaced.unmarked s listed).1
        · rw [Piece.filledAbove, if_neg above] at holds
          obtain ⟨rfl, rfl⟩ := segmentMark_within (Nat.not_lt.mp above) holds
          exact ⟨rfl, rfl⟩
  · intro before after stands
    exact spaced.reached n (segmentMark n ++ after) positive within ⟨after, rfl⟩
      ⟨before, by rw [stands, List.append_assoc]; rfl⟩

theorem Spaced.version_marked (spaced : Spaced template segments) :
    MarkedBy .version (Piece.filledAbove (segments.map String.toList) 0)
      (read segments.length template.toList) := by
  refine markedBy_of_apart (fun c => rfl) (fun c => Piece.noConfusion) ?_ ?_ spaced.apart
  · intro p before after no member holds
    cases p with
    | plain c => exact absurd rfl (no c)
    | version =>
        have size := congrArg List.length holds
        rw [Piece.filledAbove, Piece.written, List.length_append, List.length_append] at size
        exact ⟨rfl, List.length_eq_zero_iff.mp (by omega)⟩
    | segment m =>
        obtain ⟨s, listed, filled⟩ := segment_filled member (segment_of_mem_read member).1
        have begins : versionMark <:+: s.toList := ⟨before, after, by rw [← filled, holds]; rfl⟩
        exact absurd begins (spaced.unmarked s listed).2
  · intro before after _
    rw [Piece.written, placeholder?_versionMark]
    rfl

/-- An expansion fills in all placeholders at once unless it takes other text for one: the beginning
of a number that no segment has, a mark in what was filled in before, or one across its border.
It takes no other text for one where placeholders stand apart, numbers are not cut short and
segments hold no mark. -/
theorem expansion_at_once_unless_misread (template : String) (segments : List String)
    (version : String) :
    (ReadAsWritten template segments →
      expandTemplate template segments version = substituted template segments version) ∧
    (Spaced template segments → ReadAsWritten template segments) :=
  ⟨expandTemplate_eq version, fun spaced =>
    ⟨fun _ positive within => spaced.segment_marked positive within, spaced.version_marked⟩⟩

theorem expansion_at_once_standard :
    Spaced "ELEM1/ELEM2/-/archive/VERSION/ELEM2-VERSION.zip" ["group", "proj"] ∧
      expandTemplate "ELEM1/ELEM2/-/archive/VERSION/ELEM2-VERSION.zip" ["group", "proj"] "v1.4.0" =
        substituted "ELEM1/ELEM2/-/archive/VERSION/ELEM2-VERSION.zip" ["group", "proj"]
          "v1.4.0" := by
  have places : ∀ after ∈
      "ELEM1/ELEM2/-/archive/VERSION/ELEM2-VERSION.zip".toList.tails, ∀ n ∈ List.range' 1 2,
      segmentMark n <+: after → (placeholder? 2 after).isSome = true := by decide +kernel
  have spaced : Spaced "ELEM1/ELEM2/-/archive/VERSION/ELEM2-VERSION.zip" ["group", "proj"] :=
    { apart := by decide +kernel
      reached := fun n after positive within begins ends =>
        places after ((List.mem_tails after _).mpr ends) n
          (List.mem_range'_1.mpr ⟨positive, Nat.lt_succ_of_le within⟩) begins
      unmarked := by decide +kernel }
  obtain ⟨atOnce, clear⟩ := expansion_at_once_unless_misread
    "ELEM1/ELEM2/-/archive/VERSION/ELEM2-VERSION.zip" ["group", "proj"] "v1.4.0"
  exact ⟨spaced, atOnce (clear spaced)⟩

/-- With two segments `ELEM12` is no placeholder, but the beginning of it is taken for one. A
segment that is named like a placeholder is taken for it. -/
theorem number_cut_short_and_text_read_again :
    substituted "ELEM12/ELEM2" ["team", "lib"] "v1.0.0" = "ELEM12/lib" ∧
    expandTemplate "ELEM12/ELEM2" ["team", "lib"] "v1.0.0" = "team2/lib" ∧
    substituted "ELEM1/ELEM2" ["team", "VERSION"] "v1.0.0" = "team/VERSION" ∧
    expandTemplate "ELEM1/ELEM2" ["team", "VERSION"] "v1.0.0" = "team/v1.0.0" := by
  decide +kernel

end Template

end ModuleDepot
