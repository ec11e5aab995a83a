import ModuleDepot.Proofs.FileKeys
import ModuleDepot.Proofs.MadeDirectories

/-!
When a write is done. No device fails, the part of the path that stands leads to a directory, and in
that directory nothing is in the way: then the directories that are missing are made, and the data
stands at the end of the path.
-/

namespace ModuleDepot

namespace FileTree

variable {tree next : FileTree} {here directory : Location} {front up below : List String}
  {name : String}

/-! ## Making what is missing -/

/-- A tree with a directory made under some names, given last name first, and under those above. -/
def dug (tree : FileTree) (here : Location) : List String → FileTree
  | [] => tree
  | name :: above => (tree.dug here above).set (here ++ (name :: above).reverse) .directory

theorem at?_dug_off {q : Location} (off : ¬ q <+: here ++ up.reverse) :
    (tree.dug here up).at? q = tree.at? q := by
  induction up with
  | nil => rfl
  | cons name above ih =>
    rw [dug, at?_set (by simp), if_neg]
    · refine ih fun along => off (along.trans ?_)
      rw [List.reverse_cons, ← List.append_assoc]
      exact List.prefix_append _ _
    · rintro rfl
      exact off List.prefix_rfl

theorem at?_dug_below (name : String) : (tree.dug here up).at? (here ++ up.reverse ++ [name]) =
    tree.at? (here ++ up.reverse ++ [name]) := by
  refine at?_dug_off fun along => ?_
  have longer := along.length_le
  simp at longer

theorem at?_dug (inside : tree.at? here = some .directory) (along : below <+: up.reverse) :
    (tree.dug here up).at? (here ++ below) = some .directory := by
  induction up with
  | nil =>
    obtain rfl := List.prefix_nil.mp along
    rw [List.append_nil]
    exact inside
  | cons name above ih =>
    rw [dug, at?_set (by simp)]
    split
    · rfl
    · next other =>
      rw [List.reverse_cons] at along
      rcases List.prefix_concat_iff.mp along with rfl | shorter
      · exact absurd (by rw [List.reverse_cons]) other
      · exact ih shorter

/-- Nothing stands where the first of some names, given last name first, would. -/
def Gap (tree : FileTree) (here : Location) (up : List String) : Prop :=
  ∀ first, up.getLast? = some first → tree.at? (here ++ [first]) = none

theorem Gap.nothing (gap : tree.Gap here up) (grounded : tree.Grounded) (some_up : up ≠ [])
    {q : Location} (below : here ++ up.reverse <+: q) : tree.at? q = none := by
  have free := gap (up.getLast some_up) (List.getLast?_eq_some_getLast some_up)
  rw [← List.dropLast_append_getLast some_up, List.reverse_append, List.reverse_singleton,
    ← List.append_assoc] at below
  exact grounded.nothing_below free ((List.prefix_append _ _).trans below)

theorem Gap.of_cons (gap : tree.Gap here (name :: up)) : tree.Gap here up := by
  intro first last
  exact gap first (by rw [List.getLast?_cons, last]; rfl)

theorem Gap.at?_dug (gap : tree.Gap here (name :: up)) (grounded : tree.Grounded) :
    (tree.dug here up).at? (here ++ (name :: up).reverse) = none := by
  have free := gap.nothing grounded (List.cons_ne_nil name up) List.prefix_rfl
  rw [List.reverse_cons, ← List.append_assoc] at free ⊢
  rw [at?_dug_below, free]

theorem Gap.extends_dug (gap : tree.Gap here up) (grounded : tree.Grounded) :
    (tree.dug here up).Extends tree := by
  induction up with
  | nil => exact extends_refl tree
  | cons name above ih =>
    intro q node stands
    exact extends_set (gap.at?_dug grounded) .directory q node (ih gap.of_cons q node stands)

/-- Names that can be taken as steps. -/
def Brief (names : List String) : Prop := ∀ n ∈ names, IsName n ∧ isLongName n = false

theorem walk_directories {links : Nat} (brief : Brief below)
    (lined : ∀ part, part <+: below → tree.at? (here ++ part) = some .directory) :
    walk tree true links here below = .ok (here ++ below) := by
  induction below generalizing here with
  | nil => rw [walk, List.append_nil]
  | cons name rest ih =>
    obtain ⟨named, short⟩ := brief name List.mem_cons_self
    have inside : tree.at? here = some .directory := by simpa using lined [] List.nil_prefix
    rw [walk_name inside named short (lined [name] ⟨rest, rfl⟩) (by simp),
      ih (fun n among => brief n (List.mem_cons_of_mem name among)) fun part along => ?_,
      List.append_assoc, List.singleton_append]
    rw [List.append_assoc, List.singleton_append]
    exact lined (name :: part) (List.cons_prefix_cons.mpr ⟨rfl, along⟩)

theorem walk_gap {follow : Bool} {links : Nat} (inside : tree.at? here = some .directory)
    (named : IsName name) (short : isLongName name = false)
    (free : tree.at? (here ++ [name]) = none) (rest : List String) :
    walk tree follow links here (name :: rest) = .error .notFound := by
  rw [walk, if_neg (not_not_intro inside), if_neg named.not_dot, if_neg named.2.2,
    if_neg (by simp [short]), free]

section Missing

variable (grounded : tree.Grounded) (filled : "" ∉ front)
  (leads : tree.locate true front = .ok here) (inside : tree.at? here = some .directory)

include filled leads inside

theorem ensureDirectories_of_directory : tree.ensureDirectories front = (.ok (), tree) := by
  have there : tree.isDirectory front := by simp [isDirectory, leads, inside]
  rw [ensureDirectories]
  cases last : front.reverse with
  | nil => rfl
  | cons name above =>
    have spelled : front = above.reverse ++ [name] := by
      rw [← List.reverse_cons, ← last, List.reverse_reverse]
    have some_name : name ≠ "" := fun empty => filled (by simp [spelled, empty])
    rw [spelled] at leads there
    rw [ensureDirectoriesUpward, List.reverse_cons, ensureDirectory,
      makeDirectory_of_stands some_name leads]
    simp only [there, if_true]

omit filled in
theorem locate_gap {follow : Bool} {first : String} {rest : List String} (named : IsName first)
    (short : isLongName first = false) (free : tree.at? (here ++ [first]) = none)
    (sendable : checkPath (front ++ first :: rest) = .ok ()) :
    tree.locate follow (front ++ first :: rest) = .error .notFound := by
  obtain ⟨left, goes_on⟩ := walk_append (extends_refl tree) (locate_eq_ok_iff.mp leads).2
  refine locate_eq_notFound_iff.mpr ⟨sendable, ?_⟩
  rw [goes_on (.inl (by simp)), walk_gap inside named short free]

omit filled in
theorem ensureDirectory_gap {first : String} {rest : List String} (first_named : IsName first)
    (short : isLongName first = false) (free : tree.at? (here ++ [first]) = none)
    (named : IsName name) (sendable : checkPath (front ++ first :: rest ++ [name]) = .ok ()) :
    tree.ensureDirectory (front ++ first :: rest ++ [name]) = .error .notFound := by
  have shorter := checkPath_of_sublist (List.sublist_append_left _ _) sendable
  have above {follow : Bool} : tree.locate follow (front ++ first :: rest) = .error .notFound :=
    locate_gap leads inside first_named short free shorter
  have made : tree.makeDirectory (front ++ first :: rest ++ [name]) = .error .notFound := by
    rw [makeDirectory, lastStep_append named.1, sendable, (locate_eq_notFound_iff.mp above).2]
    rfl
  have nowhere : tree.isDirectory (front ++ first :: rest ++ [name]) = false := by
    rw [List.append_assoc, List.cons_append] at sendable ⊢
    rw [isDirectory, locate_gap leads inside first_named short free sendable]
  rw [ensureDirectory, made]
  simp only [nowhere, Bool.false_eq_true, if_false]

include grounded

omit filled in
theorem walk_dug (brief : Brief up) (gap : tree.Gap here up) :
    walk (tree.dug here up) true linkLimit [] (front ++ up.reverse) = .ok (here ++ up.reverse) := by
  obtain ⟨left, goes_on⟩ :=
    walk_append (gap.extends_dug grounded) (locate_eq_ok_iff.mp leads).2
  rw [goes_on (.inr rfl)]
  exact walk_directories (fun n among => brief n (List.mem_reverse.mp among)) fun part along =>
    at?_dug inside along

-- Nothing can be made below what is missing, so the directories come up from the first one on.
theorem ensureDirectoriesUpward_gap (brief : Brief up) (gap : tree.Gap here up)
    (sendable : checkPath (front ++ up.reverse) = .ok ()) :
    tree.ensureDirectoriesUpward (up ++ front.reverse) = (.ok (), tree.dug here up) := by
  induction up with
  | nil =>
    have stands := ensureDirectories_of_directory filled leads inside
    rwa [ensureDirectories] at stands
  | cons name above ih =>
    obtain ⟨named, short⟩ := brief name List.mem_cons_self
    have brief : Brief above := fun n among => brief n (List.mem_cons_of_mem name among)
    have spelled : (name :: (above ++ front.reverse)).reverse =
        front ++ above.reverse ++ [name] := by simp
    rw [List.reverse_cons, ← List.append_assoc] at sendable
    have shorter := checkPath_of_sublist (List.sublist_append_left _ _) sendable
    have ends : (tree.dug here above).Ends (front ++ above.reverse) name (here ++ above.reverse) :=
      ⟨named, short, sendable, walk_dug grounded leads inside brief gap.of_cons,
        at?_dug inside List.prefix_rfl⟩
    have place : here ++ above.reverse ++ [name] = here ++ (name :: above).reverse := by simp
    have made := ends.makeDirectory_eq (by rw [place]; exact gap.at?_dug grounded)
    rw [List.cons_append, ensureDirectoriesUpward, spelled]
    have ensured : (tree.dug here above).ensureDirectory (front ++ above.reverse ++ [name]) =
        .ok (tree.dug here (name :: above)) := by
      rw [ensureDirectory, made, dug, place]
    by_cases none : above = []
    · subst none
      rw [dug] at ensured
      rw [ensured]
    · obtain ⟨first, rest, head⟩ := List.exists_cons_of_ne_nil (mt List.reverse_eq_nil_iff.mp none)
      have last : above.getLast? = some first := by
        rw [← List.head?_reverse, head, List.head?_cons]
      obtain ⟨first_named, first_short⟩ := brief first (List.mem_of_getLast? last)
      rw [head] at sendable
      have gone := ensureDirectory_gap leads inside first_named first_short
        (gap.of_cons first last) named sendable
      rw [← head] at gone
      rw [gone]
      simp only [ih brief gap.of_cons shorter, ensured]

end Missing

end FileTree

namespace FileStore

open FileTree (Brief EndsInName Gap IsName checkPath isLongName linkLimit locate_eq_ok_iff
  locate_unfollowed names walk)

variable {store : FileStore} {tree next : FileTree} {anchor here directory : Location}
  {key name fresh : String} {above front rest path : List String} {data : ByteArray}

/-! ## Writing where nothing is in the way -/

theorem length_stagingName (name fresh : String) :
    (stagingName name fresh).length = name.length + 9 + fresh.length := by
  have mark : ".partial-".length = 9 := by decide
  rw [stagingName, String.length_append, String.length_append, mark]

theorem isName_stagingName (name fresh : String) : IsName (stagingName name fresh) := by
  refine FileTree.isName_of_long ?_
  rw [length_stagingName]
  omega

theorem short_of_staged (short : isLongName (stagingName name fresh) = false) :
    isLongName name = false := by
  simp only [isLongName, stagingName, String.utf8ByteSize_append, decide_eq_false_iff_not]
    at short ⊢
  omega

theorem writeAt_eq_ok (made : tree.ensureDirectories (names above) = (.ok (), next))
    (ends : next.Ends above name directory) (short : isLongName (stagingName name fresh) = false)
    (beside : checkPath (names above ++ [stagingName name fresh]) = .ok ())
    (unused : next.at? (directory ++ [stagingName name fresh]) = none)
    (clear : next.at? (directory ++ [name]) ≠ some .directory) :
    writeAt fresh (above ++ [name]) data tree =
      (.ok (), next.set (directory ++ [name]) (.file data)) := by
  have staged : next.Ends (names above) (stagingName name fresh) directory :=
    ⟨isName_stagingName name fresh, short, beside, FileTree.walk_thinned ends.walked, ends.inside⟩
  have some_place : directory ++ [stagingName name fresh] ≠ [] := by simp
  let filled := next.set (directory ++ [stagingName name fresh]) (.file data)
  have there : filled.at? (directory ++ [stagingName name fresh]) = some (.file data) := by
    rw [FileTree.at?_set some_place, if_pos rfl]
  have still : filled.at? (directory ++ [name]) ≠ some .directory := by
    rw [FileTree.at?_set some_place]
    split
    · simp
    · exact clear
  have moved := (ends.of_extends (FileTree.extends_set unused (.file data))).moveFile_eq there still
  rw [FileTree.erase_set some_place unused] at moved
  have last : (names (above ++ [name])).getLast?.getD "" = name := by
    rw [FileTree.names_concat ends.named, List.getLast?_concat, Option.getD_some]
  rw [writeAt]
  simp only [FileTree.names_dropLast ends.named, last, makeAbove, made, stage,
    staged.createFile_eq unused, settle, fill, FileTree.set_set, moveInto, moved]

/-- Nothing is in the way of a write along a path: the part of its names that stands leads to a
directory, the others are missing and are not too long, and where the file goes, or is written
first, there is no directory. -/
structure Unhindered (tree : FileTree) (fresh : String) (above : List String) (name : String)
    (front rest : List String) (here : Location) : Prop where
  grounded : tree.Grounded
  spelled : names above = front ++ rest
  ends : EndsInName above
  leads : tree.locate true front = .ok here
  inside : tree.at? here = some .directory
  brief : Brief rest
  gap : tree.Gap here rest.reverse
  named : IsName name
  sendable : checkPath (above ++ [name]) = .ok ()
  short : isLongName (stagingName name fresh) = false
  beside : checkPath (names above ++ [stagingName name fresh]) = .ok ()
  unused : tree.at? (here ++ rest ++ [stagingName name fresh]) = none
  clear : tree.at? (here ++ rest ++ [name]) ≠ some .directory

theorem unhindered_of_directory (grounded : tree.Grounded) (ends : EndsInName above)
    (leads : tree.locate true (names above) = .ok here)
    (inside : tree.at? here = some .directory) (named : IsName name)
    (sendable : checkPath (above ++ [name]) = .ok ())
    (short : isLongName (stagingName name fresh) = false)
    (beside : checkPath (names above ++ [stagingName name fresh]) = .ok ())
    (unused : tree.at? (here ++ [stagingName name fresh]) = none)
    (clear : tree.at? (here ++ [name]) ≠ some .directory) :
    Unhindered tree fresh above name (names above) [] here where
  grounded := grounded
  spelled := (List.append_nil _).symm
  ends := ends
  leads := leads
  inside := inside
  brief n among := absurd among List.not_mem_nil
  gap first last := by cases last
  named := named
  sendable := sendable
  short := short
  beside := beside
  unused := by rwa [List.append_nil]
  clear := by rwa [List.append_nil]

theorem Unhindered.writeAt_eq (way : Unhindered tree fresh above name front rest here)
    (data : ByteArray) : writeAt fresh (above ++ [name]) data tree =
      (.ok (), (tree.dug here rest.reverse).set (here ++ rest ++ [name]) (.file data)) := by
  have filled : "" ∉ front := fun among => FileTree.empty_not_mem_names above
    (by rw [way.spelled]; exact List.mem_append_left _ among)
  have dropped := FileTree.checkPath_of_sublist (List.sublist_append_left _ _) way.beside
  have brief : Brief rest.reverse := fun n among => way.brief n (List.mem_reverse.mp among)
  have made := FileTree.ensureDirectoriesUpward_gap way.grounded filled way.leads way.inside brief
    way.gap (by rw [List.reverse_reverse, ← way.spelled]; exact dropped)
  have reached := FileTree.walk_dug way.grounded way.leads way.inside brief way.gap
  rw [← List.reverse_append, ← way.spelled] at made
  rw [List.reverse_reverse, ← way.spelled, ← List.nil_append (names above),
    FileTree.walk_names_eq way.ends, List.nil_append] at reached
  have deep : (tree.dug here rest.reverse).at? (here ++ rest) = some .directory :=
    FileTree.at?_dug way.inside (by simp)
  have off (n : String) : (tree.dug here rest.reverse).at? (here ++ rest.reverse.reverse ++ [n]) =
      tree.at? (here ++ rest.reverse.reverse ++ [n]) := FileTree.at?_dug_below n
  simp only [List.reverse_reverse] at off
  exact writeAt_eq_ok made ⟨way.named, short_of_staged way.short, way.sendable, reached, deep⟩
    way.short way.beside (by rw [off, way.unused]) (by rw [off]; exact way.clear)

theorem Unhindered.put_eq (way : Unhindered store.tree fresh above name front rest here)
    (resolved : store.resolve key = .ok (above ++ [name])) (data : ByteArray) :
    store.put fresh key data = (.ok (), { store with
      tree := (store.tree.dug here rest.reverse).set (here ++ rest ++ [name]) (.file data) }) := by
  rw [put, resolved]
  simp only [way.writeAt_eq, mapError_ok]

/-! ## Keys that resolve -/

theorem resolve_of_leads {place : Location} (some_key : key ≠ "") (relative : isRelative key = true)
    (located : store.tree.locate true store.root = .ok anchor)
    (leads : store.tree.locate true (store.path key) = .ok place) (below : anchor <+: place) :
    store.resolve key = .ok (store.path key) := by
  have checked : checkUpward store.tree anchor key (upward (store.path key)) = .ok () := by
    obtain ⟨q, found⟩ := locate_unfollowed leads
    rw [upward, checkUpward, found]
    simp only [leads, List.isPrefixOf_iff_prefix.mpr below, if_true]
  exact (resolve_eq_ok_iff some_key).mpr ⟨relative, rfl, anchor, located, checked⟩

theorem checkUpward_of_range (taken : Nat → List String) {place : Location} {k n : Nat}
    (small : k < n) (leads : tree.locate true (taken k) = .ok place) (below : anchor <+: place)
    (missing : ∀ m < n, k < m → tree.locate false (taken m) = .error .notFound) :
    checkUpward tree anchor key ((List.range n).reverse.map taken) = .ok () := by
  induction n with
  | zero => exact absurd small (Nat.not_lt_zero k)
  | succ n ih =>
    rw [List.range_succ, List.reverse_append, List.reverse_singleton, List.singleton_append,
      List.map_cons, checkUpward]
    by_cases last : k = n
    · obtain ⟨q, found⟩ := locate_unfollowed leads
      rw [← last, found]
      simp only [leads, List.isPrefixOf_iff_prefix.mpr below, if_true]
    · rw [missing n (Nat.lt_succ_self n) (by omega)]
      exact ih (by omega) fun m lower => missing m (by omega)

theorem resolve_of_standsTo {last : String} (some_key : key ≠ "")
    (relative : isRelative key = true) (located : store.tree.locate true store.root = .ok anchor)
    (stands : StandsTo store.tree anchor (store.path key) front rest last here)
    (missing : store.tree.locate false (store.path key) = .error .notFound) :
    store.resolve key = .ok (store.path key) := by
  have whole := stands.whole
  have length := congrArg List.length whole
  simp only [List.length_append, List.length_singleton] at length
  refine (resolve_eq_ok_iff some_key).mpr ⟨relative, rfl, anchor, located, ?_⟩
  rw [upward, checkUpward, missing]
  refine checkUpward_of_range _ (k := front.length) (by omega) ?_ stands.below
    fun m small longer => ?_
  · rw [whole, List.append_assoc, List.take_left']
    · exact stands.leads
    · rfl
  · have taken : (names (store.path key)).take m = front ++ rest.take (m - front.length) := by
      rw [whole, List.append_assoc, List.take_append, List.take_of_length_le (by omega),
        List.take_append_of_le_length (by omega)]
    rw [taken]
    refine stands.missing _ ?_ (List.take_prefix _ _)
    rw [ne_eq, List.take_eq_nil_iff, not_or]
    exact ⟨by omega, fun none => by rw [none] at length; simp at length; omega⟩

theorem Unhindered.locate_gap {follow : Bool} {first : String} {more : List String}
    (way : Unhindered tree fresh above name front (first :: rest) here)
    (along : more <+: first :: rest ++ [name]) (some_more : more ≠ []) :
    tree.locate follow (front ++ more) = .error .notFound := by
  obtain ⟨first_named, first_short⟩ := way.brief first List.mem_cons_self
  have free := way.gap first (by simp)
  obtain ⟨head, later, rfl⟩ := List.exists_cons_of_ne_nil some_more
  obtain ⟨rfl, -⟩ := List.cons_prefix_cons.mp along
  refine FileTree.locate_gap way.leads way.inside first_named first_short free ?_
  have whole := FileTree.checkPath_of_sublist (FileTree.names_sublist _) way.sendable
  rw [FileTree.names_concat way.named, way.spelled, List.append_assoc] at whole
  exact FileTree.checkPath_of_sublist (List.Sublist.append_left along.sublist front) whole

/-- The key of a path with nothing in the way resolves, if there is no file yet. -/
theorem Unhindered.resolve_eq (way : Unhindered store.tree fresh above name front rest here)
    (some_key : key ≠ "") (relative : isRelative key = true)
    (located : store.tree.locate true store.root = .ok anchor) (below : anchor <+: here)
    (split : store.path key = above ++ [name])
    (free : store.tree.at? (here ++ rest ++ [name]) = none) :
    store.resolve key = .ok (above ++ [name]) := by
  have whole : names (above ++ [name]) = front ++ rest ++ [name] := by
    rw [FileTree.names_concat way.named, way.spelled]
  have dropped := FileTree.checkPath_of_sublist (FileTree.names_sublist _) way.sendable
  have gone : store.tree.locate false (front ++ (rest ++ [name])) = .error .notFound := by
    cases rest with
    | nil =>
      rw [List.append_nil] at free
      rw [whole, List.append_nil] at dropped
      exact FileTree.locate_gap way.leads way.inside way.named (short_of_staged way.short) free
        dropped
    | cons first rest => exact way.locate_gap List.prefix_rfl (by simp)
  rw [← List.append_assoc, ← whole, FileTree.locate_eq_notFound_iff, ← List.nil_append (names _),
    FileTree.walk_names_eq (FileTree.endsInName_concat way.named above), List.nil_append] at gone
  have missing : store.tree.locate false (store.path key) = .error .notFound := by
    rw [split, FileTree.locate_eq_notFound_iff]
    exact ⟨way.sendable, gone.2⟩
  rw [← split] at whole ⊢
  refine resolve_of_standsTo some_key relative located
    ⟨whole, way.leads, below, fun more some_more along => ?_⟩ missing
  cases rest with
  | nil => exact absurd (List.prefix_nil.mp along) some_more
  | cons first rest =>
    exact way.locate_gap (along.trans (List.prefix_append _ [name])) some_more

end FileStore

end ModuleDepot
