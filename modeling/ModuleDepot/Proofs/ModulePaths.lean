import Mathlib.Data.List.Basic
import ModuleDepot.Origin.OpenProxy
import ModuleDepot.Proofs.ArchiveKeys
import ModuleDepot.Proofs.Outcomes
import ModuleDepot.Proxy.ModulePath

/-!
Reading a path of the module protocol is the inverse of writing one. A written version of an
accepted coordinate holds no `@`, so the last mark of a path is the one behind its source.
-/

namespace ModuleDepot

namespace Text

variable {mark text before after : List Char} {c : Char}

theorem eq_append_of_cutLast (cut : cutLast mark text = some (before, after)) :
    text = before ++ mark ++ after := by
  induction text generalizing before with
  | nil =>
    simp only [cutLast, Option.map_eq_some_iff, List.isPrefixOf?_eq_some_iff_append_eq] at cut
    obtain ⟨rest, whole, same⟩ := cut
    cases same
    simpa using whole.symm
  | cons c rest ih =>
    rw [cutLast] at cut
    split at cut
    · next found =>
      cases cut
      rw [ih found]
      rfl
    · simp only [Option.map_eq_some_iff, List.isPrefixOf?_eq_some_iff_append_eq] at cut
      obtain ⟨later, whole, same⟩ := cut
      cases same
      simpa using whole.symm

theorem cutLast_eq_none (inside : c ∈ mark) (absent : c ∉ text) : cutLast mark text = none := by
  cases cut : cutLast mark text with
  | none => rfl
  | some parts =>
    rw [eq_append_of_cutLast cut] at absent
    exact absurd (by simp [inside]) absent

theorem cutLast_append_left (found : cutLast mark text = some ([], after)) (before : List Char) :
    cutLast mark (before ++ text) = some (before, after) := by
  induction before with
  | nil => exact found
  | cons c rest ih =>
    rw [List.cons_append, cutLast, ih]

theorem head?_dropLeading (c : Char) (text : List Char) :
    (dropLeading c text).head? ≠ some c := by
  have stopped := List.head?_dropWhile_not (· == c) text
  intro first
  rw [dropLeading] at first
  rw [first] at stopped
  simp at stopped

theorem dropLeading_eq_iff (begins : after.head? ≠ some c) :
    dropLeading c text = after ↔ ∃ n, text = List.replicate n c ++ after := by
  constructor
  · intro dropped
    refine ⟨(text.takeWhile (· == c)).length, ?_⟩
    have copies : text.takeWhile (· == c) =
        List.replicate (text.takeWhile (· == c)).length c := by
      rw [List.eq_replicate_iff]
      have all := List.all_eq_true.mp (List.all_takeWhile (p := (· == c)) (l := text))
      exact ⟨rfl, fun d mem => by simpa using all d mem⟩
    rw [← copies, ← dropped]
    exact (List.takeWhile_append_dropWhile).symm
  · rintro ⟨n, rfl⟩
    induction n with
    | zero =>
      cases after with
      | nil => rfl
      | cons d rest =>
        have other : d ≠ c := by simpa using begins
        exact List.dropWhile_cons_of_neg (by simpa using other)
    | succ n ih =>
      rw [List.replicate_succ, List.cons_append]
      exact (List.dropWhile_cons_of_pos (by simp)).trans ih

end Text

namespace EscapedPath

theorem upper_of_lower (c : Char) (lower : c.isLower = true) :
    c.toUpper.isUpper = true ∧ c.toUpper.toLower = c ∧ c.toUpper ≠ '!' := by
  have both : (decide (97 ≤ c.val) && decide (c.val ≤ 122)) = true := lower
  have within : 97 ≤ c.val ∧ c.val ≤ 122 := by simpa using both
  have bounds : 97 ≤ c.toNat ∧ c.toNat ≤ 122 :=
    ⟨UInt32.le_iff_toNat_le.mp within.1, UInt32.le_iff_toNat_le.mp within.2⟩
  have letter : c = Char.ofNat c.toNat := (Char.ofNat_toNat c).symm
  generalize c.toNat = n at bounds letter
  subst letter
  obtain ⟨low, high⟩ := bounds
  -- As with the capitals, all small letters can be tried.
  have all : ∀ n < 123, 97 ≤ n → (Char.ofNat n).toUpper.isUpper = true ∧
      (Char.ofNat n).toUpper.toLower = Char.ofNat n ∧ (Char.ofNat n).toUpper ≠ '!' := by
    decide
  exact all n (by omega) low

theorem foldCase_of_restoreCase {folded text : List Char}
    (restored : restoreCase folded = .ok text) : foldCase? text = some folded := by
  fun_induction restoreCase folded generalizing text with
  | case1 =>
    cases restored
    rfl
  | case2 next rest lower ih =>
    cases inner : restoreCase rest with
    | error e => rw [inner] at restored; cases restored
    | ok tail =>
      rw [inner] at restored
      cases restored
      obtain ⟨upper, back, other⟩ := upper_of_lower next lower
      rw [foldCase?, if_neg other, if_pos upper, ih inner, back]
      rfl
  | case3 => cases restored
  | case4 => cases restored
  | case5 => cases restored
  | case6 c rest _ plain small ih =>
    cases inner : restoreCase rest with
    | error e => rw [inner] at restored; cases restored
    | ok tail =>
      rw [inner] at restored
      cases restored
      rw [foldCase?, if_neg plain, if_neg small, ih inner]
      rfl

theorem unescape_eq_ok_iff (escaped text : String) :
    unescape escaped = .ok text ↔ escape text = .ok escaped := by
  rw [escape_eq_ok_iff]
  constructor
  · intro read
    rw [unescape] at read
    split at read
    · next restored =>
      cases read
      rw [String.toList_ofList]
      exact foldCase_of_restoreCase restored
    · cases read
    · cases read
  · intro folded
    rw [unescape, restoreCase_of_foldCase _ _ folded]
    simp

theorem head?_foldCase {text folded : List Char} (escaped : foldCase? text = some folded) :
    (folded.head? = some '/' ↔ text.head? = some '/') ∧ (folded = [] ↔ text = []) := by
  cases text with
  | nil =>
    rw [foldCase?] at escaped
    cases escaped
    simp
  | cons c rest =>
    rw [foldCase?] at escaped
    split at escaped
    · cases escaped
    · split at escaped
      · next upper =>
        obtain ⟨tail, -, rfl⟩ := Option.map_eq_some_iff.mp escaped
        have other : c ≠ '/' := by
          rintro rfl
          exact absurd upper (by decide)
        simp [other]
      · obtain ⟨tail, -, rfl⟩ := Option.map_eq_some_iff.mp escaped
        simp

end EscapedPath

namespace Coordinate

theorem Accepted.filled {c : Coordinate} (accepted : c.Accepted) :
    c.source ≠ "" ∧ c.version ≠ "" ∧ c.source.toList.head? ≠ some '/' := by
  have sound := (accepted_iff_sound c).mp accepted
  exact ⟨sound.some_source, sound.some_version, sound.begins⟩

end Coordinate

namespace ModulePath

open EscapedPath (escape unescape)

/-- Written paths: any number of slashes may come first, and what lies below the source is given as
it stands. -/
def Written (path source below : String) : Prop :=
  ∃ slashes escaped, escape source = .ok escaped ∧
    path = String.ofList (List.replicate slashes '/') ++ escaped ++ "/@v/" ++ below

theorem unescaped_eq_ok_iff {text : List Char} {plain : String} :
    unescaped text = .ok plain ↔ escape plain = .ok (String.ofList text) := by
  rw [← EscapedPath.unescape_eq_ok_iff, unescaped]
  cases unescape (String.ofList text) with
  | error e => simp [Except.mapError]
  | ok s => simp [Except.mapError]

theorem coordinate_eq_ok_iff {source : String} {escaped : List Char} {c : Coordinate} :
    coordinate source escaped = .ok c ↔
      c.source = source ∧ c.Accepted ∧ escape c.version = .ok (String.ofList escaped) := by
  rw [coordinate]
  cases read : unescaped escaped with
  | error e =>
    constructor
    · intro made
      cases made
    · rintro ⟨-, -, written⟩
      rw [unescaped_eq_ok_iff.mpr written] at read
      cases read
  | ok version =>
    have written := unescaped_eq_ok_iff.mp read
    simp only [bind, Except.bind]
    constructor
    · intro made
      cases checked : Coordinate.make source version with
      | error e => rw [checked] at made; cases made
      | ok d =>
        rw [checked] at made
        cases made
        obtain ⟨rfl, sound⟩ := Coordinate.make_eq_ok_iff.mp checked
        exact ⟨rfl, checked, written⟩
    · rintro ⟨rfl, accepted, same⟩
      rw [← unescaped_eq_ok_iff, read] at same
      cases same
      rw [show Coordinate.make c.source c.version = .ok c from accepted]
      rfl

theorem cutLast_mark_iff {text source rest : List Char} (unmarked : '@' ∉ rest) :
    Text.cutLast mark text = some (source, rest) ↔ text = source ++ mark ++ rest := by
  constructor
  · exact Text.eq_append_of_cutLast
  · rintro rfl
    have later : Text.cutLast mark ('v' :: '/' :: rest) = none :=
      Text.cutLast_eq_none (c := '@') (by decide) (by simp [unmarked])
    -- The only `@` behind the source is that of the mark itself.
    have here : Text.cutLast mark (mark ++ rest) = some ([], rest) := by
      change Text.cutLast mark ('/' :: '@' :: 'v' :: '/' :: rest) = some ([], rest)
      rw [Text.cutLast, Text.cutLast, later]
      rfl
    rw [List.append_assoc]
    exact Text.cutLast_append_left here source

/-- What a path is read as, in the parts that it is cut into. -/
theorem parse_eq_some_iff {path : String} {found : ModulePath} :
    parse path = .ok (some found) ↔ ∃ source escaped rest,
      Text.cutLast mark (Text.dropLeading '/' path.toList) = some (escaped, rest) ∧
      escaped ≠ [] ∧ rest ≠ [] ∧ escape source = .ok (String.ofList escaped) ∧
      below source rest = .ok found := by
  rw [parse]
  cases cut : Text.cutLast mark (Text.dropLeading '/' path.toList) with
  | none => simp
  | some parts =>
    obtain ⟨escaped, rest⟩ := parts
    simp only [Option.some.injEq, Prod.mk.injEq]
    constructor
    · intro named
      split at named
      · cases named
      · next filled =>
        have parts : escaped ≠ [] ∧ rest ≠ [] := by simpa using filled
        cases read : unescaped escaped with
        | error e => rw [read] at named; cases named
        | ok source =>
          rw [read] at named
          cases lies : below source rest with
          | error e => simp only [lies, bind, Except.bind] at named; cases named
          | ok other =>
            simp only [lies, bind, Except.bind] at named
            cases named
            exact ⟨source, escaped, rest, ⟨rfl, rfl⟩, parts.1, parts.2,
              unescaped_eq_ok_iff.mp read, lies⟩
    · rintro ⟨source, _, _, ⟨rfl, rfl⟩, some_source, some_rest, written, lies⟩
      have filled : (escaped.isEmpty || rest.isEmpty) = false := by simp [some_source, some_rest]
      simp only [filled, unescaped_eq_ok_iff.mpr written, lies, bind, Except.bind]
      rfl

variable {path source tail : String} {escaped rest : List Char} {c : Coordinate}

/-- A path that is cut behind an escaped source is a written one. -/
theorem written_of_cut
    (cut : Text.cutLast mark (Text.dropLeading '/' path.toList) = some (escaped, rest))
    (some_source : escaped ≠ []) (folded : escape source = .ok (String.ofList escaped)) :
    Written path source (String.ofList rest) ∧ source ≠ "" ∧ source.toList.head? ≠ some '/' := by
  have whole := Text.eq_append_of_cutLast cut
  have begins := Text.head?_dropLeading '/' path.toList
  have head : (Text.dropLeading '/' path.toList).head? = escaped.head? := by
    rw [whole]
    cases escaped with
    | nil => exact absurd rfl some_source
    | cons c rest => rfl
  obtain ⟨n, spelled⟩ := (Text.dropLeading_eq_iff (whole ▸ begins)).mp whole
  have kept := EscapedPath.head?_foldCase ((EscapedPath.escape_eq_ok_iff _ _).mp folded)
  rw [String.toList_ofList] at kept
  constructor
  · refine ⟨n, String.ofList escaped, folded, ?_⟩
    rw [← String.toList_inj, spelled]
    simp [mark]
  · constructor
    · rintro rfl
      exact some_source (kept.2.mpr rfl)
    · rw [head] at begins
      exact fun first => begins (kept.1.mpr first)

theorem cut_of_written (some_source : source ≠ "") (begins : source.toList.head? ≠ some '/')
    (unmarked : '@' ∉ tail.toList) (written : Written path source tail) :
    ∃ escaped, escaped ≠ [] ∧ escape source = .ok (String.ofList escaped) ∧
      Text.cutLast mark (Text.dropLeading '/' path.toList) = some (escaped, tail.toList) := by
  obtain ⟨n, escaped, folded, rfl⟩ := written
  have kept := EscapedPath.head?_foldCase ((EscapedPath.escape_eq_ok_iff _ _).mp folded)
  have some_escaped : escaped.toList ≠ [] := fun empty =>
    some_source (String.toList_inj.mp (kept.2.mp empty))
  have head : (escaped.toList ++ mark ++ tail.toList).head? = escaped.toList.head? := by
    cases split : escaped.toList with
    | nil => exact absurd split some_escaped
    | cons c rest => rfl
  have bare : Text.dropLeading '/' (String.ofList (List.replicate n '/') ++ escaped ++ "/@v/" ++
      tail).toList = escaped.toList ++ mark ++ tail.toList := by
    rw [Text.dropLeading_eq_iff]
    · exact ⟨n, by simp [mark]⟩
    · rw [head]
      exact fun first => begins (kept.1.mp first)
  refine ⟨escaped.toList, some_escaped, ?_, ?_⟩
  · rw [String.ofList_toList]
    exact folded
  · rw [bare]
    exact (cutLast_mark_iff unmarked).mpr rfl

/-! ## What lies below a source -/

theorem beforeEnding?_of_differs {ending other : List Char} (some_other : other ≠ [])
    (some_ending : ending ≠ []) (differs : ending.getLast? ≠ other.getLast?) (text : List Char) :
    Text.beforeEnding? ending (text ++ other) = none := by
  cases found : Text.beforeEnding? ending (text ++ other) with
  | none => rfl
  | some before =>
    have same := List.isSuffixOf?_eq_some_iff_append_eq.mp found
    have last := congrArg List.getLast? same
    rw [List.getLast?_append_of_ne_nil _ some_ending,
      List.getLast?_append_of_ne_nil _ some_other] at last
    exact absurd last differs

-- No two documents, and no document and the list, have the same last letter.
theorem below_of_document {ending : List Char} {kind : Coordinate → ModulePath}
    (document : (ending, kind) ∈ endings) (source : String) (escaped : List Char) :
    below source (escaped ++ ending) = (coordinate source escaped).map kind := by
  have listed : escaped ++ ending ≠ "list".toList := by
    intro same
    have last := congrArg List.getLast? same
    have endings_differ : ∀ document ∈ endings, document.1 ≠ [] ∧
        document.1.getLast? ≠ "list".toList.getLast? := by decide
    obtain ⟨some_ending, differs⟩ := endings_differ _ document
    rw [List.getLast?_append_of_ne_nil _ some_ending] at last
    exact differs last
  have own : Text.beforeEnding? ending (escaped ++ ending) = some escaped :=
    List.isSuffixOf?_eq_some_iff_append_eq.mpr rfl
  have before : ∀ other some_other differs,
      Text.beforeEnding? other (escaped ++ ending) = none := fun other some_other differs =>
    beforeEnding?_of_differs (by rintro rfl; simp [endings] at document) some_other differs escaped
  rw [below, if_neg listed]
  rcases List.mem_cons.mp document with same | document
  · cases same
    simp only [endings, List.findSome?_cons, own, Option.map_some]
  rcases List.mem_cons.mp document with same | document
  · cases same
    simp only [endings, List.findSome?_cons, before ".info".toList (by decide) (by decide), own,
      Option.map_none, Option.map_some]
  · cases List.mem_singleton.mp document
    simp only [endings, List.findSome?_cons, before ".info".toList (by decide) (by decide),
      before ".mod".toList (by decide) (by decide), own, Option.map_none, Option.map_some]

theorem below_of_plain (listed : rest ≠ "list".toList)
    (plain : ∀ document ∈ endings, ¬ document.1 <:+ rest) (source : String) :
    below source rest = (coordinate source rest).map version := by
  have unfound : ∀ document ∈ endings, Text.beforeEnding? document.1 rest = none := by
    intro document among
    cases found : Text.beforeEnding? document.1 rest with
    | none => rfl
    | some before =>
      exact absurd ⟨before, List.isSuffixOf?_eq_some_iff_append_eq.mp found⟩ (plain document among)
  rw [below, if_neg listed, List.findSome?_eq_none_iff.mpr]
  intro document among
  change (Text.beforeEnding? document.1 rest).map _ = none
  rw [unfound document among]
  rfl

theorem below_eq_ok_iff {found : ModulePath} :
    below source rest = .ok found ↔
      rest = "list".toList ∧ found = list source ∨
      (∃ document ∈ endings, ∃ escaped c, rest = escaped ++ document.1 ∧
        coordinate source escaped = .ok c ∧ found = document.2 c) ∨
      rest ≠ "list".toList ∧ (∀ document ∈ endings, ¬ document.1 <:+ rest) ∧
        ∃ c, coordinate source rest = .ok c ∧ found = version c := by
  constructor
  · intro lies
    by_cases listed : rest = "list".toList
    · rw [below, if_pos listed] at lies
      cases lies
      exact .inl ⟨listed, rfl⟩
    · by_cases ends : ∃ document ∈ endings, document.1 <:+ rest
      · obtain ⟨document, among, escaped, rfl⟩ := ends
        rw [below_of_document among] at lies
        obtain ⟨c, made, same⟩ := map_eq_ok_iff.mp lies
        exact .inr (.inl ⟨document, among, escaped, c, rfl, made, same⟩)
      · have plain : ∀ document ∈ endings, ¬ document.1 <:+ rest :=
          fun document among some_ending => ends ⟨document, among, some_ending⟩
        rw [below_of_plain listed plain] at lies
        exact .inr (.inr ⟨listed, plain, map_eq_ok_iff.mp lies⟩)
  · rintro (⟨rfl, rfl⟩ | ⟨document, among, escaped, c, rfl, made, rfl⟩ |
      ⟨listed, plain, c, made, rfl⟩)
    · rfl
    · rw [below_of_document among]
      exact map_eq_ok_iff.mpr ⟨c, made, rfl⟩
    · rw [below_of_plain listed plain]
      exact map_eq_ok_iff.mpr ⟨c, made, rfl⟩

/-! ## Reading -/

theorem documents_apart : ∀ document ∈ endings, ∀ c,
    (∀ source, list source ≠ document.2 c) ∧ (∀ d, version d ≠ document.2 c) ∧
      ∀ other ∈ endings, ∀ d, other.2 d = document.2 c → other = document ∧ d = c := by
  simp [endings]

theorem unmarked_of_escape {plain folded : String} (written : escape plain = .ok folded)
    (unmarked : '@' ∉ plain.toList) : '@' ∉ folded.toList :=
  EscapedPath.absent_of_foldCase _ _ ((EscapedPath.escape_eq_ok_iff _ _).mp written) unmarked

theorem parse_of_written {found : ModulePath} (some_source : source ≠ "")
    (begins : source.toList.head? ≠ some '/') (some_rest : tail ≠ "")
    (unmarked : '@' ∉ tail.toList) (written : Written path source tail)
    (lies : below source tail.toList = .ok found) : parse path = .ok (some found) := by
  obtain ⟨escaped, some_escaped, folded, cut⟩ :=
    cut_of_written some_source begins unmarked written
  refine parse_eq_some_iff.mpr ⟨source, escaped, tail.toList, cut, some_escaped, ?_, folded, lies⟩
  exact fun empty => some_rest (String.toList_inj.mp empty)

theorem parse_eq_list_iff :
    parse path = .ok (some (list source)) ↔
      source ≠ "" ∧ source.toList.head? ≠ some '/' ∧ Written path source "list" := by
  constructor
  · intro read
    obtain ⟨source, escaped, rest, cut, some_escaped, -, folded, lies⟩ := parse_eq_some_iff.mp read
    obtain ⟨written, some_source, begins⟩ := written_of_cut cut some_escaped folded
    rcases below_eq_ok_iff.mp lies with ⟨rfl, same⟩ | ⟨document, among, _, c, -, -, same⟩ |
      ⟨-, -, _, -, same⟩
    · cases same
      exact ⟨some_source, begins, written⟩
    · exact absurd same ((documents_apart document among c).1 _)
    · cases same
  · rintro ⟨some_source, begins, written⟩
    exact parse_of_written some_source begins (by decide) (by decide) written rfl

theorem parse_eq_document_iff {ending : List Char} {kind : Coordinate → ModulePath}
    (document : (ending, kind) ∈ endings) :
    parse path = .ok (some (kind c)) ↔ c.Accepted ∧ ∃ version, escape c.version = .ok version ∧
      Written path c.source (version ++ String.ofList ending) := by
  obtain ⟨unlisted, unplain, apart⟩ := documents_apart _ document c
  constructor
  · intro read
    obtain ⟨source, escaped, rest, cut, some_escaped, -, folded, lies⟩ := parse_eq_some_iff.mp read
    obtain ⟨written, -, -⟩ := written_of_cut cut some_escaped folded
    rcases below_eq_ok_iff.mp lies with ⟨-, same⟩ | ⟨other, among, text, d, rfl, made, same⟩ |
      ⟨-, -, d, -, same⟩
    · exact absurd same.symm (unlisted source)
    · obtain ⟨rfl, rfl⟩ := apart other among d same.symm
      obtain ⟨rfl, accepted, plain⟩ := coordinate_eq_ok_iff.mp made
      refine ⟨accepted, _, plain, ?_⟩
      rwa [← String.ofList_append]
    · exact absurd same.symm (unplain d)
  · rintro ⟨accepted, version, folded, written⟩
    obtain ⟨some_source, -, begins⟩ := accepted.filled
    have spelled : ∀ document ∈ endings, document.1 ≠ [] ∧ '@' ∉ document.1 := by decide
    obtain ⟨some_ending, unmarked⟩ := spelled _ document
    refine parse_of_written some_source begins ?_ ?_ written ?_
    · intro empty
      have letters := congrArg String.toList empty
      simp [some_ending] at letters
    · have plain := unmarked_of_escape folded accepted.unmarked.2
      simp [plain, unmarked]
    · have made : coordinate c.source version.toList = .ok c :=
        coordinate_eq_ok_iff.mpr ⟨rfl, accepted, by rwa [String.ofList_toList]⟩
      rw [String.toList_append, String.toList_ofList, below_of_document document, made]
      rfl

theorem parse_eq_version_iff :
    parse path = .ok (some (version c)) ↔ c.Accepted ∧ ∃ version, escape c.version = .ok version ∧
      Written path c.source version ∧ version ≠ "list" ∧
      ∀ document ∈ endings, ¬ document.1 <:+ version.toList := by
  constructor
  · intro read
    obtain ⟨source, escaped, rest, cut, some_escaped, -, folded, lies⟩ := parse_eq_some_iff.mp read
    obtain ⟨written, -, -⟩ := written_of_cut cut some_escaped folded
    rcases below_eq_ok_iff.mp lies with ⟨-, same⟩ | ⟨document, among, _, d, -, -, same⟩ |
      ⟨listed, plain, d, made, same⟩
    · cases same
    · exact absurd same ((documents_apart document among d).2.1 c)
    · cases same
      obtain ⟨rfl, accepted, folded'⟩ := coordinate_eq_ok_iff.mp made
      refine ⟨accepted, _, folded', written, ?_, by simpa using plain⟩
      intro same
      exact listed (by rw [← same, String.toList_ofList])
  · rintro ⟨accepted, version, folded, written, listed, plain⟩
    obtain ⟨some_source, some_version, begins⟩ := accepted.filled
    have unmarked := unmarked_of_escape folded accepted.unmarked.2
    refine parse_of_written some_source begins ?_ unmarked written ?_
    · rintro rfl
      have kept := EscapedPath.head?_foldCase ((EscapedPath.escape_eq_ok_iff _ _).mp folded)
      exact some_version (String.toList_inj.mp (kept.2.mp rfl))
    · have made : coordinate c.source version.toList = .ok c :=
        coordinate_eq_ok_iff.mpr ⟨rfl, accepted, by rwa [String.ofList_toList]⟩
      rw [below_of_plain (fun same => listed (String.toList_inj.mp same)) plain, made]
      rfl

theorem written_archiveKey {key : String} (keyed : c.archiveKey = .ok key) :
    ∃ version, escape c.version = .ok version ∧
      Written ("/" ++ key) c.source (version ++ ".zip") := by
  obtain ⟨source, version, folded, folded', rfl⟩ := (Coordinate.archiveKey_eq_ok_iff c key).mp keyed
  refine ⟨version, folded', 1, source, folded, ?_⟩
  rw [← String.toList_inj]
  simp

theorem archiveUrl_eq {key : String} (keyed : c.archiveKey = .ok key) (p : OpenProxy) :
    p.archiveUrl c = p.urlFor key := by
  obtain ⟨source, version, folded, folded', rfl⟩ := (Coordinate.archiveKey_eq_ok_iff c key).mp keyed
  rw [OpenProxy.archiveUrl, OpenProxy.escaped, OpenProxy.escaped, folded, folded']
  rfl

/-- A path is read as a document of an accepted coordinate, as the coordinate itself or as a list
exactly if it is the written path of that. The keys of archives, which open proxies are asked for
as well, are such paths without a slash before them. -/
theorem parse_inverts_writing (path : String) :
    (∀ c, (parse path = .ok (some (.info c)) ↔ c.Accepted ∧ ∃ version,
          escape c.version = .ok version ∧ Written path c.source (version ++ ".info")) ∧
        (parse path = .ok (some (.manifest c)) ↔ c.Accepted ∧ ∃ version,
          escape c.version = .ok version ∧ Written path c.source (version ++ ".mod")) ∧
        (parse path = .ok (some (.archive c)) ↔ c.Accepted ∧ ∃ version,
          escape c.version = .ok version ∧ Written path c.source (version ++ ".zip")) ∧
        (parse path = .ok (some (.version c)) ↔ c.Accepted ∧ ∃ version,
          escape c.version = .ok version ∧ Written path c.source version ∧ version ≠ "list" ∧
            ∀ ending ∈ [".info", ".mod", ".zip"], ¬ ending.toList <:+ version.toList)) ∧
      (∀ source, parse path = .ok (some (.list source)) ↔
        source ≠ "" ∧ source.toList.head? ≠ some '/' ∧ Written path source "list") ∧
      ∀ c key, c.archiveKey = .ok key → c.Accepted →
        parse ("/" ++ key) = .ok (some (.archive c)) ∧
          (∀ p : OpenProxy, p.archiveUrl c = p.urlFor key) ∧
          ∀ d, d.Accepted → d.archiveKey = .ok key → d = c := by
  have endings_eq : ∀ version : List Char, (∀ document ∈ endings, ¬ document.1 <:+ version) ↔
      ∀ ending ∈ [".info", ".mod", ".zip"], ¬ ending.toList <:+ version := by
    intro version
    simp [endings]
  have infos : (".info".toList, ModulePath.info) ∈ endings := by simp [endings]
  have manifests : (".mod".toList, ModulePath.manifest) ∈ endings := by simp [endings]
  have archives : (".zip".toList, ModulePath.archive) ∈ endings := by simp [endings]
  refine ⟨fun c => ⟨parse_eq_document_iff infos, parse_eq_document_iff manifests,
    parse_eq_document_iff archives, ?_⟩, fun source => parse_eq_list_iff,
    fun c key keyed accepted => ⟨?_, archiveUrl_eq keyed, fun d other same => ?_⟩⟩
  · simp only [parse_eq_version_iff, endings_eq]
  · exact (parse_eq_document_iff archives).mpr ⟨accepted, written_archiveKey keyed⟩
  · exact Coordinate.archiveKey_injective other accepted same keyed

theorem parse_inverts_writing_capitals :
    (⟨"github.com/BurntSushi/toml", "v0.3.1"⟩ : Coordinate).archiveKey =
        .ok "github.com/!burnt!sushi/toml/@v/v0.3.1.zip" ∧
      parse "/github.com/!burnt!sushi/toml/@v/v0.3.1.zip" =
        .ok (some (.archive ⟨"github.com/BurntSushi/toml", "v0.3.1"⟩)) := by
  have keyed : (⟨"github.com/BurntSushi/toml", "v0.3.1"⟩ : Coordinate).archiveKey =
      .ok "github.com/!burnt!sushi/toml/@v/v0.3.1.zip" := rfl
  have read := (parse_inverts_writing "").2.2 _ _ keyed (by decide +kernel)
  exact ⟨keyed, read.1⟩

end ModulePath

end ModuleDepot
