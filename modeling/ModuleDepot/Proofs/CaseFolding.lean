import ModuleDepot.Proofs.ModulePaths

/-!
The escape as a bijection. It is defined on the texts without `!`, its values are the texts
that spell every capital by a mark, and reading back is its inverse from there. As no escape
holds a capital, escapes that a file system without cases would take for one another are the
same escape.
-/

namespace ModuleDepot

namespace EscapedPath

/-- Texts without capitals in which every mark stands before a small letter. -/
structure Folded (text : List Char) : Prop where
  small : ∀ c ∈ text, c.isUpper = false
  marked : ∀ i, text[i]? = some '!' → ∃ c, text[i + 1]? = some c ∧ c.isLower = true

variable {c : Char} {text rest folded : List Char}

theorem small_of_lower (lower : c.isLower = true) : c.isUpper = false ∧ c ≠ '!' := by
  constructor
  · cases upper : c.isUpper with
    | false => rfl
    | true =>
      have both : (decide (97 ≤ c.val) && decide (c.val ≤ 122)) = true := lower
      have low : 97 ≤ c.val ∧ c.val ≤ 122 := by simpa using both
      have high : 65 ≤ c.val ∧ c.val ≤ 90 := of_decide_eq_true upper
      have absurd_bounds : (97 : UInt32) ≤ 90 := UInt32.le_trans low.1 high.2
      exact absurd absurd_bounds (by decide)
  · rintro rfl
    exact absurd lower (by decide)

theorem folded_nil : Folded [] := by
  constructor
  · simp
  · simp

-- A mark takes the letter behind it along, which is no mark itself.
theorem folded_mark_cons : Folded ('!' :: c :: rest) ↔ c.isLower = true ∧ Folded rest := by
  constructor
  · intro whole
    constructor
    · simpa using whole.marked 0
    · constructor
      · intro d member
        apply whole.small
        simp [member]
      · intro i found
        exact whole.marked (i + 2) found
  · rintro ⟨lower, tail⟩
    obtain ⟨small, other⟩ := small_of_lower lower
    constructor
    · intro d member
      simp only [List.mem_cons] at member
      rcases member with rfl | rfl | later
      · decide
      · exact small
      · exact tail.small d later
    · intro i found
      match i with
      | 0 => simpa using lower
      | 1 => simp [other] at found
      | i + 2 => exact tail.marked i found

theorem not_folded_mark : ¬ Folded ['!'] := by
  intro whole
  simpa using whole.marked 0

theorem folded_cons (plain : c ≠ '!') :
    Folded (c :: rest) ↔ c.isUpper = false ∧ Folded rest := by
  constructor
  · intro whole
    constructor
    · exact whole.small c (by simp)
    · constructor
      · intro d member
        apply whole.small
        simp [member]
      · intro i found
        exact whole.marked (i + 1) found
  · rintro ⟨small, tail⟩
    constructor
    · intro d member
      simp only [List.mem_cons] at member
      rcases member with rfl | later
      · exact small
      · exact tail.small d later
    · intro i found
      match i with
      | 0 => simp [plain] at found
      | i + 1 => exact tail.marked i found

/-- The texts that can be read back. -/
theorem restoreCase_succeeds_iff : (∃ plain, restoreCase text = .ok plain) ↔ Folded text := by
  have mapped : ∀ (f : List Char → List Char) (read : Except Fault (List Char)),
      (∃ plain, read.map f = .ok plain) ↔ ∃ plain, read = .ok plain := by
    intro f read
    cases read <;> simp [Except.map]
  fun_induction restoreCase text with
  | case1 => simp [folded_nil]
  | case2 next rest lower ih =>
    rw [mapped, folded_mark_cons, and_iff_right lower]
    exact ih
  | case3 next rest other => simp [folded_mark_cons, other]
  | case4 rest alone =>
    cases rest with
    | nil => simp [not_folded_mark]
    | cons next rest => exact absurd rfl (alone next rest rfl)
  | case5 c rest _ plain upper => simp [folded_cons plain, upper]
  | case6 c rest _ plain small ih =>
    rw [mapped, folded_cons plain, and_iff_right (by simpa using small)]
    exact ih

/-- The texts that can be escaped. -/
theorem foldCase_succeeds_iff : (∃ folded, foldCase? text = some folded) ↔ '!' ∉ text := by
  induction text with
  | nil => simp [foldCase?]
  | cons c rest ih =>
    by_cases mark : c = '!'
    · simp [foldCase?, mark]
    · by_cases upper : c.isUpper = true
      · simp [foldCase?, mark, upper, ih, Ne.symm mark]
      · simp [foldCase?, mark, upper, ih, Ne.symm mark]

theorem Folded.toLower (small : Folded text) : text.map Char.toLower = text := by
  have kept : ∀ c ∈ text, c.toLower = c := by
    intro c member
    exact dif_neg (of_decide_eq_false (small.small c member))
  exact (List.map_congr_left kept).trans (List.map_id text)

theorem toLower_escape {text escaped : String} (written : escape text = .ok escaped) :
    escaped.toLower = escaped := by
  have read := restoreCase_of_foldCase _ _ ((escape_eq_ok_iff _ _).mp written)
  have small : Folded escaped.toList := restoreCase_succeeds_iff.mp ⟨_, read⟩
  have letters : (escaped.map Char.toLower).toList = escaped.toList := by
    rw [String.toList_map]
    exact small.toLower
  exact String.toList_inj.mp letters

/-- Escaping and reading back undo each other between the texts without `!` and the folded ones,
which keep apart what differs in more than the case of letters. -/
theorem escape_bijective :
    (∀ text, (∃ escaped, escape text = .ok escaped) ↔ '!' ∉ text.toList) ∧
      (∀ text escaped, escape text = .ok escaped → unescape escaped = .ok text) ∧
      (∀ escaped text, unescape escaped = .ok text → escape text = .ok escaped) ∧
      (∀ escaped, (∃ text, unescape escaped = .ok text) ↔ Folded escaped.toList) ∧
      ∀ text other escaped escaped', escape text = .ok escaped → escape other = .ok escaped' →
        escaped.toLower = escaped'.toLower → text = other := by
  refine ⟨?_, ?_, ?_, ?_, ?_⟩
  · intro text
    rw [← foldCase_succeeds_iff]
    constructor
    · rintro ⟨escaped, written⟩
      exact ⟨escaped.toList, (escape_eq_ok_iff _ _).mp written⟩
    · rintro ⟨folded, written⟩
      exact ⟨String.ofList folded, (escape_eq_ok_iff _ _).mpr (by simpa using written)⟩
  · intro text escaped written
    exact (unescape_eq_ok_iff _ _).mpr written
  · intro escaped text read
    exact (unescape_eq_ok_iff _ _).mp read
  · intro escaped
    rw [← restoreCase_succeeds_iff]
    constructor
    · rintro ⟨text, read⟩
      have written := (unescape_eq_ok_iff _ _).mp read
      exact ⟨_, restoreCase_of_foldCase _ _ ((escape_eq_ok_iff _ _).mp written)⟩
    · rintro ⟨plain, read⟩
      exact ⟨String.ofList plain, by rw [unescape, read]⟩
  · intro text other escaped escaped' written written' same
    rw [toLower_escape written, toLower_escape written'] at same
    subst same
    exact escape_injective _ _ _ written written'

theorem escape_bijective_capital :
    unescape "github.com/!azure" = .ok "github.com/Azure" ∧
      escape "github.com/Azure" = .ok "github.com/!azure" ∧
      ("github.com/Azure" : String) ≠ "github.com/azure" := by
  have written : escape "github.com/Azure" = .ok "github.com/!azure" := rfl
  have read := escape_bijective.2.1 _ _ written
  exact ⟨read, escape_bijective.2.2.1 _ _ read, by decide⟩

end EscapedPath

end ModuleDepot
