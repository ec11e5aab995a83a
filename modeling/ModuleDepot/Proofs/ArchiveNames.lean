import ModuleDepot.Proofs.ArchiveKeys
import ModuleDepot.Proofs.FileWalks
import ModuleDepot.Proofs.PathComponents

/-!
The steps of an archive's key. The escape goes through a path step by step, so two keys have
the same names exactly if the paths have that they were made from.
-/

namespace ModuleDepot

open FileTree (IsName names steps)

namespace EscapedPath

/-- What a character is written as, apart from the mark itself. -/
def foldChar (c : Char) : List Char := if c.isUpper then ['!', c.toLower] else [c]

theorem eq_flatMap_of_foldCase {text folded : List Char} (escaped : foldCase? text = some folded) :
    folded = text.flatMap foldChar ∧ '!' ∉ text := by
  induction text generalizing folded with
  | nil =>
    obtain rfl : [] = folded := by simpa [foldCase?] using escaped
    exact ⟨rfl, List.not_mem_nil⟩
  | cons c rest ih =>
    unfold foldCase? at escaped
    by_cases mark : c = '!'
    · simp [mark] at escaped
    · by_cases upper : c.isUpper = true
      · rw [if_neg mark, if_pos upper, Option.map_eq_some_iff] at escaped
        obtain ⟨tail, inner, rfl⟩ := escaped
        obtain ⟨rfl, absent⟩ := ih inner
        simp [foldChar, upper, absent, Ne.symm mark]
      · rw [if_neg mark, if_neg upper, Option.map_eq_some_iff] at escaped
        obtain ⟨tail, inner, rfl⟩ := escaped
        obtain ⟨rfl, absent⟩ := ih inner
        simp [foldChar, upper, absent, Ne.symm mark]

theorem foldCase_of_unmarked {text : List Char} (absent : '!' ∉ text) :
    foldCase? text = some (text.flatMap foldChar) := by
  induction text with
  | nil => rfl
  | cons c rest ih =>
    obtain ⟨other, later⟩ := not_or.mp (mt List.mem_cons.mpr absent)
    unfold foldCase?
    rw [if_neg (Ne.symm other), ih later]
    by_cases upper : c.isUpper = true <;> simp [foldChar, upper]

def foldStep (step : String) : String := String.ofList (step.toList.flatMap foldChar)

theorem foldStep_injective {a b : String} (first : '!' ∉ a.toList) (second : '!' ∉ b.toList)
    (same : foldStep a = foldStep b) : a = b := by
  have texts := congrArg String.toList same
  simp only [foldStep, String.toList_ofList] at texts
  have left := restoreCase_of_foldCase _ _ (foldCase_of_unmarked first)
  have right := restoreCase_of_foldCase _ _ (foldCase_of_unmarked second)
  rw [texts, right] at left
  exact String.toList_inj.mp (Except.ok.inj left).symm

theorem slash_not_mem_fold {text : List Char} (absent : '/' ∉ text) :
    '/' ∉ text.flatMap foldChar := by
  intro mem
  obtain ⟨c, among, inside⟩ := List.mem_flatMap.mp mem
  unfold foldChar at inside
  split at inside
  · next upper =>
    have lower := (lower_of_upper c upper).1
    rcases List.mem_cons.mp inside with mark | letter
    · exact absurd mark (by decide)
    · rw [← List.mem_singleton.mp letter] at lower
      exact absurd lower (by decide)
  · exact absent (List.mem_singleton.mp inside ▸ among)

theorem steps_fold (text : List Char) :
    steps (String.ofList (text.flatMap foldChar)) = (steps (String.ofList text)).map foldStep := by
  obtain ⟨dir, last, split⟩ := Archive.exists_last_component text
  obtain ⟨whole, parts⟩ := Archive.components_eq_iff.mp split
  have closed : ∀ dir : List (List Char), (Archive.closed dir).flatMap foldChar =
      Archive.closed (dir.map (·.flatMap foldChar)) := by
    intro dir
    induction dir with
    | nil => rfl
    | cons part rest ih =>
      have slash : foldChar '/' = ['/'] := by decide
      simp [ih, slash]
  have folded : Archive.components (text.flatMap foldChar) =
      dir.map (·.flatMap foldChar) ++ [last.flatMap foldChar] := by
    rw [Archive.components_eq_iff]
    refine ⟨by rw [whole, List.flatMap_append, closed], fun p mem => ?_⟩
    have among : p ∈ (dir ++ [last]).map (·.flatMap foldChar) := by
      rwa [List.map_append, List.map_singleton]
    obtain ⟨part, inside, rfl⟩ := List.mem_map.mp among
    exact slash_not_mem_fold (parts part inside)
  unfold steps
  rw [String.toList_ofList, String.toList_ofList]
  change (Archive.components _).map _ = ((Archive.components _).map _).map _
  rw [folded, split]
  simp [foldStep]

theorem mem_of_mem_step {path step : String} {c : Char} (mem : step ∈ steps path)
    (inside : c ∈ step.toList) : c ∈ path.toList := by
  obtain ⟨dir, last, split⟩ := Archive.exists_last_component path.toList
  obtain ⟨whole, -⟩ := Archive.components_eq_iff.mp split
  obtain ⟨part, among, rfl⟩ := List.mem_map.mp mem
  rw [String.toList_ofList] at inside
  rw [whole, List.mem_append]
  change part ∈ Archive.components path.toList at among
  rw [split] at among
  rcases List.mem_append.mp among with early | late
  · exact .inl (List.mem_flatMap.mpr ⟨part, early, List.mem_append_left _ inside⟩)
  · exact .inr (List.mem_singleton.mp late ▸ inside)

theorem names_fold {path : List String} (unmarked : ∀ step ∈ path, '!' ∉ step.toList) :
    names (path.map foldStep) = (names path).map foldStep := by
  have kept : ∀ step ∈ path, ∀ t : String, '!' ∉ t.toList → foldStep t = t →
      (foldStep step = t ↔ step = t) := by
    intro step mem t plain own
    refine ⟨fun same => ?_, fun same => same ▸ own⟩
    exact foldStep_injective (unmarked step mem) plain (same.trans own.symm)
  unfold names
  rw [List.filter_map]
  congr 1
  apply List.filter_congr
  intro step mem
  simp only [Function.comp_apply, ne_eq, kept step mem "" (by decide) (by decide),
    kept step mem "." (by decide) (by decide)]

theorem names_escape {text escaped : String} (done : escape text = .ok escaped) :
    names (steps escaped) = (names (steps text)).map foldStep ∧
      ∀ step ∈ steps text, '!' ∉ step.toList := by
  obtain ⟨folded, absent⟩ := eq_flatMap_of_foldCase ((escape_eq_ok_iff text escaped).mp done)
  have unmarked : ∀ step ∈ steps text, '!' ∉ step.toList :=
    fun step mem inside => absent (mem_of_mem_step mem inside)
  have split := steps_fold text.toList
  rw [← folded, String.ofList_toList, String.ofList_toList] at split
  exact ⟨by rw [split, names_fold unmarked], unmarked⟩

theorem map_foldStep_injective {as bs : List String} (inA : ∀ n ∈ as, '!' ∉ n.toList)
    (inB : ∀ n ∈ bs, '!' ∉ n.toList) (same : as.map foldStep = bs.map foldStep) : as = bs := by
  induction as generalizing bs with
  | nil => exact (List.map_eq_nil_iff.mp same.symm).symm
  | cons n as ih =>
    cases bs with
    | nil => cases same
    | cons m bs =>
      obtain ⟨head, tail⟩ := List.cons.inj same
      rw [foldStep_injective (inA n List.mem_cons_self) (inB m List.mem_cons_self) head,
        ih (fun n mem => inA n (List.mem_cons_of_mem _ mem))
          (fun m mem => inB m (List.mem_cons_of_mem _ mem)) tail]

theorem names_escape_iff {a b x y : String} (first : escape a = .ok x) (second : escape b = .ok y) :
    names (steps x) = names (steps y) ↔ names (steps a) = names (steps b) := by
  obtain ⟨left, unmarkedA⟩ := names_escape first
  obtain ⟨right, unmarkedB⟩ := names_escape second
  rw [left, right]
  refine ⟨fun same => ?_, fun same => by rw [same]⟩
  exact map_foldStep_injective (fun n mem => unmarkedA n (List.mem_filter.mp mem).1)
    (fun n mem => unmarkedB n (List.mem_filter.mp mem).1) same

theorem escape_append {text escaped ending : String} (done : escape text = .ok escaped)
    (plain : foldCase? ending.toList = some ending.toList) :
    escape (text ++ ending) = .ok (escaped ++ ending) := by
  obtain ⟨folded, absent⟩ := eq_flatMap_of_foldCase ((escape_eq_ok_iff text escaped).mp done)
  obtain ⟨same, absent'⟩ := eq_flatMap_of_foldCase plain
  have unmarked : '!' ∉ (text ++ ending).toList := by
    rw [String.toList_append, List.mem_append]
    exact not_or.mpr ⟨absent, absent'⟩
  rw [escape_eq_ok_iff, foldCase_of_unmarked unmarked, String.toList_append, String.toList_append,
    List.flatMap_append, ← folded, ← same]

end EscapedPath

/-! ## The steps of a key -/

namespace FileTree

theorem steps_slash (before after : List Char) :
    steps (String.ofList (before ++ '/' :: after)) =
      steps (String.ofList before) ++ steps (String.ofList after) := by
  simp only [steps, String.toList_ofList, List.splitOn_append_cons_self, List.map_append]

/-- The last step of a text with an ending is a name, if the ending is long enough. -/
theorem steps_ending (text ending : String) (plain : '/' ∉ ending.toList)
    (long : 2 < ending.length) :
    ∃ above name, steps (text ++ ending) = above ++ [name] ∧ IsName name := by
  obtain ⟨above, last, split⟩ := Archive.exists_last_component text.toList
  obtain ⟨whole, parts⟩ := Archive.components_eq_iff.mp split
  have longer : Archive.components (text ++ ending).toList = above ++ [last ++ ending.toList] := by
    rw [Archive.components_eq_iff, String.toList_append, whole, List.append_assoc]
    refine ⟨rfl, fun p mem => ?_⟩
    rcases List.mem_append.mp mem with early | late
    · exact parts p (List.mem_append_left _ early)
    · rw [List.mem_singleton.mp late, List.mem_append]
      exact not_or.mpr ⟨parts last (by simp), plain⟩
  refine ⟨above.map String.ofList, String.ofList (last ++ ending.toList), ?_, ?_⟩
  · change (Archive.components (text ++ ending).toList).map String.ofList = _
    rw [longer, List.map_append, List.map_singleton]
  · apply isName_of_long
    simp
    omega

end FileTree

namespace Coordinate

/-- The steps of a key are those of its two halves, with a mark between them. -/
theorem steps_archiveKey (source version : String) :
    steps (source ++ "/@v/" ++ version ++ ".zip") =
      steps source ++ "@v" :: steps (version ++ ".zip") := by
  have shape : source ++ "/@v/" ++ version ++ ".zip" =
      String.ofList
        (source.toList ++ '/' :: ("@v".toList ++ '/' :: (version ++ ".zip").toList)) := by
    rw [← String.toList_inj, String.toList_ofList]
    simp
  have mark : steps "@v" = ["@v"] := by decide
  rw [shape, FileTree.steps_slash, FileTree.steps_slash, String.ofList_toList, String.ofList_toList,
    String.ofList_toList, mark]
  rfl

theorem append_mark_inj {α : Type} {mark : α} {a a' b b' : List α} (first : mark ∉ a)
    (second : mark ∉ a') : a ++ mark :: b = a' ++ mark :: b' ↔ a = a' ∧ b = b' := by
  induction a generalizing a' with
  | nil =>
    cases a' with
    | nil => simp
    | cons x xs => simp [(not_or.mp (mt List.mem_cons.mpr second)).1]
  | cons x xs ih =>
    obtain ⟨other, later⟩ := not_or.mp (mt List.mem_cons.mpr first)
    cases a' with
    | nil => simp [Ne.symm other]
    | cons y ys =>
      obtain ⟨-, later'⟩ := not_or.mp (mt List.mem_cons.mpr second)
      simp [ih later later', and_assoc]

/-- The names of a key tell those of the source and those of the version apart, since no accepted
source has the mark that stands between them. -/
theorem names_archiveKey_iff {c d : Coordinate} (first : c.Accepted) (second : d.Accepted)
    {key key' : String} (written : c.archiveKey = .ok key) (written' : d.archiveKey = .ok key') :
    names (steps key) = names (steps key') ↔ names (steps c.source) = names (steps d.source) ∧
      names (steps (c.version ++ ".zip")) = names (steps (d.version ++ ".zip")) := by
  obtain ⟨source, version, escS, escV, rfl⟩ := (archiveKey_eq_ok_iff c key).mp written
  obtain ⟨source', version', escS', escV', rfl⟩ := (archiveKey_eq_ok_iff d key').mp written'
  have parts : ∀ source version : String, names (steps (source ++ "/@v/" ++ version ++ ".zip")) =
      names (steps source) ++ "@v" :: names (steps (version ++ ".zip")) := by
    intro source version
    rw [steps_archiveKey, FileTree.names_append, FileTree.names_name (by decide)]
  have unmarked : ∀ {c : Coordinate} {source : String}, c.Accepted →
      EscapedPath.escape c.source = .ok source → "@v" ∉ names (steps source) := by
    intro c source accepted escaped mem
    have absent := EscapedPath.absent_of_foldCase _ _
      ((EscapedPath.escape_eq_ok_iff _ _).mp escaped) accepted.unmarked.1
    exact absent (EscapedPath.mem_of_mem_step (List.mem_filter.mp mem).1 (by decide))
  rw [parts, parts, append_mark_inj (unmarked first escS) (unmarked second escS'),
    EscapedPath.names_escape_iff escS escS',
    EscapedPath.names_escape_iff (EscapedPath.escape_append escV (by decide))
      (EscapedPath.escape_append escV' (by decide))]

/-- The path of a coordinate is written without steps that stand for nothing. -/
def Direct (c : Coordinate) : Prop :=
  ∀ step ∈ steps c.source ++ steps (c.version ++ ".zip"), step ≠ "" ∧ step ≠ "."

instance (c : Coordinate) : Decidable c.Direct :=
  inferInstanceAs (Decidable (∀ step ∈ _, _))

theorem steps_injective {a b : String} (same : steps a = steps b) : a = b := by
  have parts : a.toList.splitOn '/' = b.toList.splitOn '/' :=
    (List.map_inj_right fun _ _ h => String.ofList_injective h).mp same
  have joined := congrArg ['/'].intercalate parts
  rw [List.intercalate_splitOn, List.intercalate_splitOn] at joined
  exact String.toList_inj.mp joined

theorem Direct.eq_of_names {c d : Coordinate} (first : c.Direct) (second : d.Direct)
    (sources : names (steps c.source) = names (steps d.source))
    (versions : names (steps (c.version ++ ".zip")) = names (steps (d.version ++ ".zip"))) :
    c = d := by
  have all : ∀ path : List String, (∀ step ∈ path, step ≠ "" ∧ step ≠ ".") → names path = path :=
    fun path each => List.filter_eq_self.mpr fun step mem => by simpa using each step mem
  rw [all _ fun step mem => first step (List.mem_append_left _ mem),
    all _ fun step mem => second step (List.mem_append_left _ mem)] at sources
  rw [all _ fun step mem => first step (List.mem_append_right _ mem),
    all _ fun step mem => second step (List.mem_append_right _ mem)] at versions
  have version := congrArg String.toList (steps_injective versions)
  rw [String.toList_append, String.toList_append] at version
  cases c
  cases d
  simp only at sources version
  rw [steps_injective sources, String.toList_inj.mp (List.append_cancel_right version)]

end Coordinate

end ModuleDepot
