import Mathlib.Data.List.Basic
import ModuleDepot.Archive.Layout
import ModuleDepot.Proofs.PathComponents

/-!
What becomes of an archive, entry by entry. An archive without one common top directory is
refused as malformed; of any other, the files stay that no rule leaves out, under new names
and in their order, unless one of them has a miscased manifest for its name. The rules
speak of components of paths, where the two passes over an archive compare texts.
-/

namespace ModuleDepot

/-- The faults of an archive that is not laid out as an origin serves it. -/
def ArchiveError.isMalformed : ArchiveError → Bool
  | insideLayout _ => true
  | noTopDirectory _ => true
  | severalTops _ _ => true
  | _ => false

namespace Archive

/-- The text of a name up to its first slash. -/
def topPart (name : List Char) : List Char := name.takeWhile (· ≠ '/')

def innerPath (name : List Char) : List Char := (name.dropWhile (· ≠ '/')).tail

/-- Some name has no top directory or lies in the layout's own one, or two top directories
differ. -/
def Malformed (c : Coordinate) (entries : List Entry) : Prop :=
  (∃ e ∈ entries, '/' ∉ e.name.toList ∨
    (c.source ++ "@" ++ c.version ++ "/").toList <+: e.name.toList) ∨
  ∃ e ∈ entries, ∃ f ∈ entries, topPart e.name.toList ≠ topPart f.name.toList

/-- A directory below the top one that directly holds a manifest. -/
def HoldsModule (entries : List Entry) (dir : List (List Char)) : Prop :=
  dir ≠ [] ∧ ∃ e ∈ entries, e.isDirectory = false ∧
    components (innerPath e.name.toList) = dir ++ ["go.mod".toList]

def Excluded (entries : List Entry) (path : List Char) : Prop :=
  path = ".hg_archival.txt".toList ∨ path = ".gitattributes".toList ∨
    "vendor".toList ∈ (components path).dropLast ∨
    ∃ dir, HoldsModule entries dir ∧ dir <+: (components path).dropLast

/-- A file that no rule leaves out. -/
def Kept (entries : List Entry) (e : Entry) : Prop :=
  e.isDirectory = false ∧ ¬ Excluded entries (innerPath e.name.toList)

/-- The last component is the manifest's name but for the case of its letters. -/
def Miscased (path : List Char) : Prop :=
  ∃ dir base, components path = dir ++ [base] ∧ base.map Char.toLower = "go.mod".toList ∧
    base ≠ "go.mod".toList

def placed (c : Coordinate) (e : Entry) : Entry :=
  { e with name := c.source ++ "@" ++ c.version ++ "/" ++
      String.ofList (innerPath e.name.toList) }

/-! ## Names -/

theorem eq_topPart_append {name : List Char} (slash : '/' ∈ name) :
    name = topPart name ++ '/' :: innerPath name := by
  unfold topPart innerPath
  induction name with
  | nil => cases slash
  | cons c rest ih =>
      by_cases same : c = '/'
      · simp [same]
      · have later : '/' ∈ rest := (List.mem_cons.mp slash).resolve_left (Ne.symm same)
        simpa [same] using ih later

theorem slash_not_mem_topPart (name : List Char) : '/' ∉ topPart name := by
  intro member
  have others : (topPart name).all (fun c => decide (c ≠ '/')) = true := List.all_takeWhile
  simpa using List.all_eq_true.mp others '/' member

theorem topDirectory?_eq_some_iff (name top : List Char) :
    topDirectory? name = some top ↔ '/' ∈ name ∧ top = topPart name ++ ['/'] := by
  unfold topDirectory?
  cases cut : Text.cutFirst '/' name with
  | none => simp [(Text.cutFirst_eq_none_iff '/' name).mp cut]
  | some parts =>
      obtain ⟨before, after⟩ := parts
      obtain ⟨whole, absent⟩ := Text.eq_append_of_cutFirst cut
      have slash : '/' ∈ name := by simp [whole]
      have first : before = topPart name := by
        rw [whole, topPart, List.takeWhile_append_of_pos fun c member => by
          simpa using fun same : c = '/' => absent (same ▸ member)]
        simp
      simp [slash, first, eq_comm]

theorem below_eq_innerPath {top name : List Char} (found : topDirectory? name = some top) :
    below top name = innerPath name := by
  obtain ⟨slash, rfl⟩ := (topDirectory?_eq_some_iff name top).mp found
  have whole := eq_topPart_append slash
  calc name.drop (topPart name ++ ['/']).length
      = (topPart name ++ '/' :: innerPath name).drop (topPart name ++ ['/']).length := by
        rw [← whole]
    _ = innerPath name := by simp

/-! ## The first pass -/

/-- The entry has the top directory, and is not in the layout already. -/
def Under (target top : List Char) (e : Entry) : Prop :=
  ¬ target <+: e.name.toList ∧ topDirectory? e.name.toList = some top

theorem commonTop_some_eq_ok_iff (target first : List Char) (entries : List Entry)
    (result : Option (List Char)) :
    commonTop target (some first) entries = .ok result ↔
      result = some first ∧ ∀ e ∈ entries, Under target first e := by
  induction entries with
  | nil => simp [commonTop, eq_comm]
  | cons e rest ih =>
      unfold commonTop
      by_cases inside : target <+: e.name.toList
      · simp [inside, Under]
      · cases found : topDirectory? e.name.toList with
        | none => simp [inside, found, Under]
        | some next =>
            by_cases same : first = next
            · subst same
              have here : Under target first e := ⟨inside, found⟩
              simp [inside, ih, here]
            · simp [inside, found, same, Under, Ne.symm same]

theorem commonTop_none_eq_ok_iff (target : List Char) (e : Entry) (rest : List Entry)
    (result : Option (List Char)) :
    commonTop target none (e :: rest) = .ok result ↔
      ∃ top, result = some top ∧ ∀ f ∈ e :: rest, Under target top f := by
  unfold commonTop
  by_cases inside : target <+: e.name.toList
  · simp [inside, Under]
  · cases found : topDirectory? e.name.toList with
    | none => simp [inside, found, Under]
    | some next =>
        simp only [List.isPrefixOf_iff_prefix, inside, if_false, commonTop_some_eq_ok_iff]
        constructor
        · rintro ⟨shape, all⟩
          refine ⟨next, shape, ?_⟩
          simpa [Under, inside, found] using all
        · rintro ⟨top, shape, all⟩
          obtain ⟨⟨-, own⟩, later⟩ := List.forall_mem_cons.mp all
          obtain rfl : next = top := Option.some.inj (found.symm.trans own)
          exact ⟨shape, later⟩

theorem isMalformed_of_commonTop {target : List Char} {top : Option (List Char)}
    {entries : List Entry} {fault : ArchiveError}
    (failed : commonTop target top entries = .error fault) : fault.isMalformed = true := by
  induction entries generalizing top with
  | nil => cases failed
  | cons e rest ih =>
      unfold commonTop at failed
      split at failed
      · cases failed
        rfl
      · split at failed
        · cases failed
          rfl
        · split at failed
          · exact ih failed
          · split at failed
            · exact ih failed
            · cases failed
              rfl

/-- Archives that are not malformed are those that get past the first pass. -/
theorem not_malformed_iff (c : Coordinate) (entries : List Entry) :
    ¬ Malformed c entries ↔
      ∃ top, ∀ e ∈ entries, Under (c.source ++ "@" ++ c.version ++ "/").toList top e := by
  constructor
  · intro sound
    cases entries with
    | nil => exact ⟨[], by simp⟩
    | cons first rest =>
        refine ⟨topPart first.name.toList ++ ['/'], fun e member => ?_⟩
        constructor
        · exact fun inside => sound (Or.inl ⟨e, member, Or.inr inside⟩)
        · rw [topDirectory?_eq_some_iff]
          constructor
          · exact Classical.byContradiction fun bare => sound (Or.inl ⟨e, member, Or.inl bare⟩)
          · refine Classical.byContradiction fun differ => sound (Or.inr ?_)
            exact ⟨first, List.mem_cons_self, e, member, fun same => differ (by rw [same])⟩
  · rintro ⟨top, all⟩ (⟨e, member, bare | inside⟩ | ⟨e, first, f, second, differ⟩)
    · exact bare ((topDirectory?_eq_some_iff _ _).mp (all e member).2).1
    · exact (all e member).1 inside
    · have own := ((topDirectory?_eq_some_iff _ _).mp (all e first).2).2
      have other := ((topDirectory?_eq_some_iff _ _).mp (all f second).2).2
      exact differ (List.append_cancel_right (own.symm.trans other))

/-! ## The second pass -/

variable {c : Coordinate} {target top : List Char} {entries : List Entry} {e : Entry}

theorem getLast?_closed {dir : List (List Char)} (below : dir ≠ []) :
    (closed dir).getLast? = some '/' := by
  obtain ⟨above, part, nested⟩ := (List.eq_nil_or_concat dir).resolve_left below
  simp [nested]

theorem components_name (under : Under target top e) :
    components e.name.toList = topPart e.name.toList :: components (innerPath e.name.toList) := by
  obtain ⟨slash, -⟩ := (topDirectory?_eq_some_iff _ _).mp under.2
  conv =>
    lhs
    rw [eq_topPart_append slash]
  rw [components_append_slash, components_of_slash_not_mem (slash_not_mem_topPart _)]
  rfl

/-- The name of a file in a directory does not end with the directory's slash. -/
theorem last_ne_nil_of_file {path last : List Char} {dir : List (List Char)}
    (file : isDirectoryName path = false) (split : components path = dir ++ [last])
    (below : dir ≠ []) : last ≠ [] := by
  rintro rfl
  have slash : path.getLast? = some '/' := by
    rw [eq_closed_append split, List.append_nil]
    exact getLast?_closed below
  simp [isDirectoryName, slash] at file

theorem last_of_file (under : Under target top e) (file : e.isDirectory = false)
    {dir : List (List Char)} {last : List Char}
    (split : components (innerPath e.name.toList) = dir ++ [last]) :
    last ≠ [] ∧ baseName e.name.toList = last ∧ baseName (innerPath e.name.toList) = last := by
  have whole : components e.name.toList = (topPart e.name.toList :: dir) ++ [last] := by
    rw [components_name under, split]
    rfl
  have ending : last ≠ [] := last_ne_nil_of_file file whole (List.cons_ne_nil _ _)
  exact ⟨ending, baseName_eq whole ending, baseName_eq split ending⟩

theorem mem_moduleDirectories_iff (all : ∀ e ∈ entries, Under target top e) (d : List Char) :
    d ∈ moduleDirectories top entries ↔
      ∃ e ∈ entries, e.isDirectory = false ∧ ∃ dir,
        components (innerPath e.name.toList) = dir ++ [manifestName] ∧ d = closed dir := by
  have written : ∀ {path : List Char} {dir : List (List Char)},
      components path = dir ++ [manifestName] →
        (Text.beforeEnding? manifestName path).getD [] = closed dir := by
    intro path dir split
    have before : Text.beforeEnding? manifestName path = some (closed dir) :=
      List.isSuffixOf?_eq_some_iff_append_eq.mpr (eq_closed_append split).symm
    rw [before, Option.getD_some]
  unfold moduleDirectories
  rw [List.mem_map]
  constructor
  · rintro ⟨e, found, rfl⟩
    obtain ⟨member, manifest⟩ := List.mem_filter.mp found
    simp only [Entry.isManifest, Bool.and_eq_true, Bool.not_eq_true', beq_iff_eq] at manifest
    obtain ⟨dir, last, split⟩ := exists_last_component (innerPath e.name.toList)
    obtain ⟨-, base, -⟩ := last_of_file (all e member) manifest.1 split
    obtain rfl : last = manifestName := base.symm.trans manifest.2
    refine ⟨e, member, manifest.1, dir, split, ?_⟩
    rw [below_eq_innerPath (all e member).2, written split]
  · rintro ⟨e, member, file, dir, split, rfl⟩
    obtain ⟨-, base, -⟩ := last_of_file (all e member) file split
    refine ⟨e, List.mem_filter.mpr ⟨member, ?_⟩, ?_⟩
    · simp [Entry.isManifest, file, base]
    · rw [below_eq_innerPath (all e member).2, written split]

theorem isNested_iff (all : ∀ e ∈ entries, Under target top e) (path : List Char) :
    isNested (moduleDirectories top entries) path = true ↔
      ∃ dir, HoldsModule entries dir ∧ dir <+: (components path).dropLast := by
  simp only [isNested, List.any_eq_true, Bool.and_eq_true, Bool.not_eq_true',
    List.isEmpty_eq_false_iff, List.isPrefixOf_iff_prefix]
  constructor
  · rintro ⟨_, listed, proper, above⟩
    obtain ⟨e, member, file, dir, split, rfl⟩ := (mem_moduleDirectories_iff all _).mp listed
    obtain ⟨-, parts⟩ := components_eq_iff.mp split
    refine ⟨dir, ⟨mt (closed_eq_nil_iff dir).mpr proper, e, member, file, split⟩, ?_⟩
    exact (closed_prefix_iff (fun p part => parts p (List.mem_append_left _ part)) path).mp above
  · rintro ⟨dir, ⟨proper, e, member, file, split⟩, above⟩
    obtain ⟨-, parts⟩ := components_eq_iff.mp split
    refine ⟨closed dir, ?_, mt (closed_eq_nil_iff dir).mp proper, ?_⟩
    · exact (mem_moduleDirectories_iff all _).mpr ⟨e, member, file, dir, split, rfl⟩
    · exact (closed_prefix_iff (fun p part => parts p (List.mem_append_left _ part)) path).mpr above

theorem isExcluded_iff (all : ∀ e ∈ entries, Under target top e) (path : List Char) :
    isExcluded (moduleDirectories top entries) path = true ↔ Excluded entries path := by
  unfold isExcluded Excluded
  rw [Bool.or_eq_true, Bool.or_eq_true, isNested_iff all]
  simp [housekeeping, isVendored, components, or_assoc]

theorem isMiscased_iff (under : Under target top e) (file : e.isDirectory = false) :
    isMiscased (innerPath e.name.toList) = true ↔ Miscased (innerPath e.name.toList) := by
  obtain ⟨dir, last, split⟩ := exists_last_component (innerPath e.name.toList)
  obtain ⟨-, -, base⟩ := last_of_file under file split
  have read : isMiscased (innerPath e.name.toList) = true ↔
      last.map Char.toLower = manifestName ∧ last ≠ manifestName := by
    simp [isMiscased, base]
  rw [read]
  constructor
  · rintro ⟨folded, other⟩
    exact ⟨dir, last, split, folded, other⟩
  · rintro ⟨dir', last', split', folded, other⟩
    obtain ⟨-, same⟩ := List.append_inj' (split.symm.trans split') rfl
    rw [List.singleton_inj.mp same]
    exact ⟨folded, other⟩

/-- The test of the second pass whether an entry stays. -/
def staysIn (top : List Char) (directories : List (List Char)) (e : Entry) : Bool :=
  !(e.isDirectory || isExcluded directories (below top e.name.toList))

theorem staysIn_iff (all : ∀ e ∈ entries, Under target top e) (member : e ∈ entries) :
    staysIn top (moduleDirectories top entries) e = true ↔ Kept entries e := by
  unfold staysIn Kept
  rw [Bool.not_eq_true', Bool.or_eq_false_iff, below_eq_innerPath (all e member).2,
    ← isExcluded_iff all, Bool.not_eq_true]

/-- An entry that does not stay is passed over; the others are taken unless they are miscased. -/
theorem relocate_cons (directories : List (List Char)) (e : Entry) (rest : List Entry) :
    relocate target top directories (e :: rest) =
      if staysIn top directories e = true then
        if isMiscased (below top e.name.toList) = true then .error (.manifestCasing e.name)
        else (relocate target top directories rest).map fun kept =>
          { e with name := String.ofList (target ++ below top e.name.toList) } :: kept
      else relocate target top directories rest := by
  rw [relocate, staysIn]
  cases e.isDirectory || isExcluded directories (below top e.name.toList) <;> simp

theorem relocate_of_cased {directories : List (List Char)}
    (cased : ∀ e ∈ entries, staysIn top directories e = true →
      isMiscased (below top e.name.toList) = false) :
    relocate target top directories entries =
      .ok ((entries.filter (staysIn top directories)).map fun e =>
        { e with name := String.ofList (target ++ below top e.name.toList) }) := by
  induction entries with
  | nil => rfl
  | cons e rest ih =>
      obtain ⟨own, later⟩ := List.forall_mem_cons.mp cased
      rw [relocate_cons, ih later]
      by_cases stays : staysIn top directories e = true
      · rw [List.filter_cons_of_pos stays]
        simp [stays, own stays, Except.map]
      · rw [List.filter_cons_of_neg stays, if_neg stays]

theorem relocate_of_miscased {directories : List (List Char)}
    (miscased : ∃ e ∈ entries, staysIn top directories e = true ∧
      isMiscased (below top e.name.toList) = true) :
    ∃ name, relocate target top directories entries = .error (.manifestCasing name) := by
  induction entries with
  | nil => simp at miscased
  | cons e rest ih =>
      rw [relocate_cons]
      by_cases stays : staysIn top directories e = true
      · rw [if_pos stays]
        by_cases own : isMiscased (below top e.name.toList) = true
        · exact ⟨e.name, if_pos own⟩
        · obtain ⟨name, failed⟩ := ih (by simpa [own] using miscased)
          exact ⟨name, by rw [if_neg own, failed]; rfl⟩
      · rw [if_neg stays]
        exact ih (by simpa [stays] using miscased)

/-! ## Both passes -/

theorem normalise_of_malformed {a : Archive} (malformed : Malformed c a.entries) :
    ∃ fault, normalise c a = .error fault ∧ fault.isMalformed = true := by
  unfold normalise
  cases passed : commonTop c.archiveRoot.toList none a.entries with
  | error fault =>
      refine ⟨fault, ?_, isMalformed_of_commonTop passed⟩
      simp only [passed, bind, Except.bind]
  | ok found =>
      refine absurd malformed ((not_malformed_iff c a.entries).mpr ?_)
      cases entries : a.entries with
      | nil => exact ⟨[], by simp⟩
      | cons first rest =>
          rw [entries, commonTop_none_eq_ok_iff] at passed
          obtain ⟨top, -, all⟩ := passed
          exact ⟨top, all⟩

theorem normalise_of_under {a : Archive}
    (all : ∀ e ∈ a.entries, Under c.archiveRoot.toList top e) :
    normalise c a = (relocate c.archiveRoot.toList top (moduleDirectories top a.entries)
      a.entries).map Archive.mk := by
  unfold normalise
  cases entries : a.entries with
  | nil => rfl
  | cons first rest =>
      rw [entries] at all
      have passed := (commonTop_none_eq_ok_iff c.archiveRoot.toList first rest (some top)).mpr
        ⟨top, rfl, all⟩
      simp only [passed, bind, Except.bind]
      cases relocate c.archiveRoot.toList top (moduleDirectories top (first :: rest))
        (first :: rest) <;> rfl

theorem placed_eq (under : Under c.archiveRoot.toList top e) :
    ({ e with name := String.ofList (c.archiveRoot.toList ++ below top e.name.toList) } : Entry) =
      placed c e := by
  rw [below_eq_innerPath under.2, String.ofList_append, String.ofList_toList]
  rfl

open Classical in
theorem normalise_of_cased {a : Archive}
    (all : ∀ e ∈ a.entries, Under c.archiveRoot.toList top e)
    (cased : ∀ e ∈ a.entries, Kept a.entries e → ¬ Miscased (innerPath e.name.toList)) :
    normalise c a = .ok ⟨(a.entries.filter fun e => Kept a.entries e).map (placed c)⟩ := by
  have stays : ∀ e ∈ a.entries, staysIn top (moduleDirectories top a.entries) e =
      decide (Kept a.entries e) := by
    intro e member
    rw [Bool.eq_iff_iff, staysIn_iff all member, decide_eq_true_iff]
  have clean : ∀ e ∈ a.entries, staysIn top (moduleDirectories top a.entries) e = true →
      isMiscased (below top e.name.toList) = false := by
    intro e member found
    have kept := (staysIn_iff all member).mp found
    rw [below_eq_innerPath (all e member).2, Bool.eq_false_iff, ne_eq,
      isMiscased_iff (all e member) kept.1]
    exact cased e member kept
  rw [normalise_of_under all, relocate_of_cased clean, List.filter_congr stays,
    List.map_congr_left fun e found => placed_eq (all e (List.mem_filter.mp found).1)]
  rfl

theorem normalise_of_miscased {a : Archive}
    (all : ∀ e ∈ a.entries, Under c.archiveRoot.toList top e)
    (miscased : ∃ e ∈ a.entries, Kept a.entries e ∧ Miscased (innerPath e.name.toList)) :
    ∃ name, normalise c a = .error (.manifestCasing name) := by
  obtain ⟨e, member, kept, folded⟩ := miscased
  have found : isMiscased (below top e.name.toList) = true := by
    rw [below_eq_innerPath (all e member).2]
    exact (isMiscased_iff (all e member) kept.1).mpr folded
  rw [normalise_of_under all]
  obtain ⟨name, failed⟩ : ∃ name, relocate c.archiveRoot.toList top
      (moduleDirectories top a.entries) a.entries = .error (.manifestCasing name) :=
    relocate_of_miscased ⟨e, member, (staysIn_iff all member).mpr kept, found⟩
  exact ⟨name, by rw [failed]; rfl⟩

open Classical in
/-- An archive is refused as malformed exactly for its top directories. If it is not, a miscased
manifest among the files that stay is the only other fault, and without one the result is those
files, each with its content, under their names in the layout. -/
theorem normalise_meets_layout_rules (c : Coordinate) (a : Archive) :
    ((∃ fault, normalise c a = .error fault ∧ fault.isMalformed = true) ↔
      Malformed c a.entries) ∧
    ((∃ name, normalise c a = .error (.manifestCasing name)) ↔ ¬ Malformed c a.entries ∧
      ∃ e ∈ a.entries, Kept a.entries e ∧ Miscased (innerPath e.name.toList)) ∧
    ∀ b, normalise c a = .ok b ↔ ¬ Malformed c a.entries ∧
      (∀ e ∈ a.entries, Kept a.entries e → ¬ Miscased (innerPath e.name.toList)) ∧
      b.entries = (a.entries.filter fun e => Kept a.entries e).map (placed c) := by
  by_cases malformed : Malformed c a.entries
  · obtain ⟨fault, failed, kind⟩ := normalise_of_malformed malformed
    refine ⟨⟨fun _ => malformed, fun _ => ⟨fault, failed, kind⟩⟩, ?_, fun b => ?_⟩
    · constructor
      · rintro ⟨name, other⟩
        rw [failed] at other
        cases other
        cases kind
      · rintro ⟨sound, -⟩
        exact absurd malformed sound
    · simp [failed, malformed]
  · obtain ⟨top, all⟩ := (not_malformed_iff c a.entries).mp malformed
    by_cases miscased : ∃ e ∈ a.entries, Kept a.entries e ∧ Miscased (innerPath e.name.toList)
    · obtain ⟨name, failed⟩ := normalise_of_miscased all miscased
      obtain ⟨e, member, kept, folded⟩ := id miscased
      refine ⟨?_, ⟨fun _ => ⟨malformed, miscased⟩, fun _ => ⟨name, failed⟩⟩, fun b => ?_⟩
      · simp [failed, malformed, ArchiveError.isMalformed]
      · rw [failed]
        constructor
        · rintro ⟨⟩
        · rintro ⟨-, cased, -⟩
          exact absurd folded (cased e member kept)
    · have cased : ∀ e ∈ a.entries, Kept a.entries e → ¬ Miscased (innerPath e.name.toList) :=
        fun e member kept folded => miscased ⟨e, member, kept, folded⟩
      have made := normalise_of_cased all cased
      refine ⟨by simp [made, malformed], by simp [made, miscased], fun b => ?_⟩
      rw [made]
      constructor
      · rintro ⟨⟩
        exact ⟨malformed, cased, rfl⟩
      · rintro ⟨-, -, same⟩
        rw [← same]

end Archive

end ModuleDepot
