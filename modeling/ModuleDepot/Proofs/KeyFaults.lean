import ModuleDepot.Proofs.RemovedArchives

/-!
Which faults a store answers that are no missing object. A key that ends in a name is refused for
its text, for a step on the way that cannot be taken, or for a link that leads out of the root or
nowhere. A key that is not refused is missing, unless something stands at its end: then only what
is no file cannot be read, and only a directory cannot be deleted.
-/

namespace ModuleDepot

namespace FileTree

variable {tree : FileTree} {here place : Location} {follow : Bool} {links : Nat}
  {front back steps path : List String} {name : String} {e : FileFault}

/-! ## Walks that fail -/

/-- Where a walk fails, every longer one does, and in the same way. It does so even if the link at
its end is to be followed then. -/
theorem walk_error_append {followed : Bool}
    (failed : walk tree followed links here front = .error e)
    (on : followed = true → back ≠ [] ∨ follow = true) :
    walk tree follow links here (front ++ back) = .error e := by
  -- A link that is followed at the end of the shorter walk is followed on the longer one.
  have ahead {steps : List String} (not_last : ¬ (steps.isEmpty && !followed) = true) :
      steps ++ back ≠ [] ∨ follow = true := by
    cases followed with
    | true => exact (on rfl).imp_left fun more => by simp [more]
    | false =>
      left
      simp_all
  fun_induction walk tree followed links here front with
  | case1 => cases failed
  | case2 links here step steps dir =>
    rw [List.cons_append, walk_not_directory dir (List.cons_ne_nil _ _), failed]
  | case3 links here step steps dir dot ih =>
    rw [List.cons_append, walk_dot (Classical.not_not.mp dir) dot]
    exact ih failed
  | case4 links here steps dir _ ih =>
    rw [List.cons_append, walk_up (Classical.not_not.mp dir)]
    exact ih failed
  | case5 links here step steps dir not_dot not_up long =>
    rw [List.cons_append, walk, if_neg dir, if_neg not_dot, if_neg not_up, if_pos long, failed]
  | case6 links here step steps dir not_dot not_up short missing =>
    rw [List.cons_append, walk, if_neg dir, if_neg not_dot, if_neg not_up, if_neg short, missing]
    exact failed
  | case7 => cases failed
  | case8 here step steps dir not_dot not_up short fromTop target stands not_last =>
    have still : ((steps ++ back).isEmpty && !follow) = false := by
      rcases ahead not_last with more | yes
      · simp [List.isEmpty_eq_false_iff.mpr more]
      · simp [yes]
    rw [List.cons_append, walk, if_neg dir, if_neg not_dot, if_neg not_up, if_neg short, stands]
    simp only [still, Bool.false_eq_true, if_false]
    exact failed
  | case9 here step steps dir not_dot not_up short fromTop target stands not_last left ih =>
    rw [List.cons_append, walk_link (Classical.not_not.mp dir) (isName_of_not not_dot not_up)
      (Bool.not_eq_true _ ▸ short) stands (ahead not_last), ← List.append_assoc]
    rw [dite_eq_ite] at ih
    exact ih failed
  | case10 links here step steps dir not_dot not_up short node solid stands ih =>
    rw [List.cons_append, walk_name (Classical.not_not.mp dir) (isName_of_not not_dot not_up)
      (Bool.not_eq_true _ ▸ short) stands solid]
    exact ih failed

theorem walk_error_followed (failed : walk tree false links here steps = .error e) :
    walk tree true links here steps = .error e := by
  rw [← List.append_nil steps]
  exact walk_error_append failed (by simp)

theorem locate_eq_walk (sendable : checkPath path = .ok ()) :
    tree.locate follow path = walk tree follow linkLimit [] path := by
  rw [locate, sendable]
  rfl

theorem locate_names_eq (ends : EndsInName path) (sendable : checkPath path = .ok ()) :
    tree.locate follow (names path) = tree.locate follow path := by
  have same : walk tree follow linkLimit [] ([] ++ names path) =
      walk tree follow linkLimit [] ([] ++ path) := walk_names_eq ends
  rw [locate_eq_walk sendable, locate_eq_walk (checkPath_of_sublist (names_sublist path) sendable)]
  exact same

/-- Of a path whose end is missing, every part stands or is missing. -/
theorem locate_front_of_missing (missing : tree.locate false (front ++ back) = .error .notFound) :
    (∃ q, tree.locate false front = .ok q) ∨ tree.locate false front = .error .notFound := by
  obtain ⟨sendable, walked⟩ := locate_eq_notFound_iff.mp missing
  have sent := checkPath_of_sublist (List.sublist_append_left front back) sendable
  rw [locate_eq_walk sent]
  cases reached : walk tree false linkLimit [] front with
  | ok q => exact .inl ⟨q, rfl⟩
  | error e =>
    by_cases none : back = []
    · rw [none, List.append_nil, reached] at walked
      exact .inr walked
    · rw [walk_error_append reached fun _ => .inl none] at walked
      exact .inr walked

/-! ## Calls that fail -/

/-- Reading fails with more than that nothing is there: on the way, or at something that is no
file. -/
theorem readFile_fault_iff : (∃ e, tree.readFile path = .error e ∧ e ≠ .notFound) ↔
    (∃ e, tree.locate true path = .error e ∧ e ≠ .notFound) ∨
      ∃ place node, tree.locate true path = .ok place ∧ tree.at? place = some node ∧
        ∀ data, node ≠ .file data := by
  rw [readFile]
  cases located : tree.locate true path with
  | error e => simp [bind, Except.bind]
  | ok place =>
    simp only [bind, Except.bind, reduceCtorEq, false_and, exists_false, false_or]
    cases stands : tree.at? place with
    | none => simp [stands, throw, throwThe, MonadExceptOf.throw]
    | some node =>
      cases node <;> simp [stands, throw, throwThe, MonadExceptOf.throw, pure, Except.pure]

/-- Taking away what a name at the end stands for fails with more than that nothing is there: on
the way, or at a directory. -/
theorem removeFile_fault_iff (named : IsName name) :
    (∃ e, tree.removeFile (front ++ [name]) = .error e ∧ e ≠ .notFound) ↔
      (∃ e, tree.locate false (front ++ [name]) = .error e ∧ e ≠ .notFound) ∨
        ∃ place, tree.locate false (front ++ [name]) = .ok place ∧
          tree.at? place = some .directory := by
  rw [removeFile, lastStep_append named.1]
  cases sendable : checkPath (front ++ [name]) with
  | error e => simp [locate, sendable, bind, Except.bind]
  | ok _ =>
    rw [locate_eq_walk sendable]
    cases reached : walk tree true linkLimit [] front with
    | error e =>
      rw [walk_error_append reached fun _ => .inl (by simp)]
      simp [bind, Except.bind]
    | ok directory =>
      obtain ⟨left, goes_on⟩ := walk_append (extends_refl tree) reached
      rw [goes_on (.inl (by simp)), walk, if_neg named.not_dot, if_neg named.2.2]
      by_cases inside : tree.at? directory = some .directory
      · cases short : isLongName name with
        | true => simp [inside, place?_eq named, short, bind, Except.bind, throw, throwThe,
            MonadExceptOf.throw]
        | false =>
          cases stands : tree.at? (directory ++ [name]) with
          | none => simp [inside, place?_eq named, short, stands, bind, Except.bind, throw,
              throwThe, MonadExceptOf.throw]
          | some node =>
            cases node <;> simp [inside, place?_eq named, short, stands, walk, bind, Except.bind,
              throw, throwThe, MonadExceptOf.throw, pure, Except.pure]
      · simp [inside, bind, Except.bind]

end FileTree

/-- A fault of a store that is not the one of a missing object. -/
def StorageError.Faulty (e : StorageError) : Prop := ∀ what, e ≠ .notFound what

theorem StorageError.faulty_files_iff (key : String) (f : FileFault) :
    (FileStore.faultFor key f).Faulty ↔ f ≠ .notFound := by
  cases f <;> simp [FileStore.faultFor, StorageError.Faulty]

theorem StorageError.faulty_of_call {α : Type} (key : String) (result : Except FileFault α) :
    (∃ e, result.mapError (FileStore.faultFor key) = .error e ∧ e.Faulty) ↔
      ∃ f, result = .error f ∧ f ≠ .notFound := by
  cases result with
  | ok a => simp
  | error f => simp [StorageError.faulty_files_iff]

namespace FileStore

open FileTree (EndsInName IsName linkLimit locate_eq_ok_iff locate_unfollowed names steps walk)

variable {tree : FileTree} {store : FileStore} {anchor : Location} {key what name : String}
  {path front : List String} {e : StorageError}

/-! ## Keys that are refused -/

/-- Why a store refuses a key although its root is a directory. -/
inductive Refusal (store : FileStore) (anchor : Location) (key : String) : Prop
  | improper : isRelative key = false → Refusal store anchor key
  | blocked (e : FileFault) : store.tree.locate false (store.path key) = .error e →
      e ≠ .notFound → Refusal store anchor key
  | strayed (front rest : List String) : Deepest store.tree (store.path key) front rest →
      (¬ ∃ place, store.tree.locate true front = .ok place ∧ anchor <+: place) →
      Refusal store anchor key

/-- What stops the look upward: a path of which no step can be taken, or one that stands and does
not lead below the anchor. -/
def Stops (tree : FileTree) (anchor : Location) (path : List String) : Prop :=
  (∃ e, tree.locate false path = .error e ∧ e ≠ .notFound) ∨
    (∃ q, tree.locate false path = .ok q) ∧
      ¬ ∃ place, tree.locate true path = .ok place ∧ anchor <+: place

theorem checkUpward_error_cons {above : List (List String)}
    (failed : checkUpward tree anchor key (path :: above) = .error e) :
    Stops tree anchor path ∨
      tree.locate false path = .error .notFound ∧
        checkUpward tree anchor key above = .error e := by
  rw [checkUpward] at failed
  split at failed
  · next missing => exact .inr ⟨missing, failed⟩
  · next f other located => exact .inl (.inl ⟨f, located, other⟩)
  · next q found =>
    refine .inl (.inr ⟨⟨q, found⟩, ?_⟩)
    rintro ⟨place, leads, below⟩
    simp only [leads, List.isPrefixOf_iff_prefix.mpr below, if_true] at failed
    cases failed

theorem checkUpward_error_range (taken : Nat → List String) (n : Nat)
    (failed : checkUpward tree anchor key ((List.range n).reverse.map taken) = .error e) :
    ∃ k < n, Stops tree anchor (taken k) ∧
      ∀ m < n, k < m → tree.locate false (taken m) = .error .notFound := by
  induction n with
  | zero => cases failed
  | succ n ih =>
    rw [List.range_succ, List.reverse_append, List.reverse_singleton, List.singleton_append,
      List.map_cons] at failed
    rcases checkUpward_error_cons failed with stops | ⟨missing, failed⟩
    · exact ⟨n, Nat.lt_succ_self n, stops, fun m small later => by omega⟩
    · obtain ⟨k, small, stops, above⟩ := ih failed
      refine ⟨k, Nat.lt_succ_of_lt small, stops, fun m small later => ?_⟩
      rcases Nat.lt_succ_iff_lt_or_eq.mp small with smaller | rfl
      · exact above m smaller later
      · exact missing

theorem checkUpward_stops (stops : Stops tree anchor path) (key : String)
    (above : List (List String)) : ∃ e, checkUpward tree anchor key (path :: above) = .error e := by
  rw [checkUpward]
  rcases stops with ⟨f, located, other⟩ | ⟨⟨q, found⟩, outside⟩
  · rw [located]
    cases f with
    | notFound => exact absurd rfl other
    | _ => exact ⟨_, rfl⟩
  · rw [found]
    cases leads : tree.locate true path with
    | error f => exact ⟨_, rfl⟩
    | ok place =>
      refine ⟨_, if_neg ?_⟩
      exact fun below => outside ⟨place, leads, List.isPrefixOf_iff_prefix.mp below⟩

section Ending

variable (ends : EndsInName (store.path key))

include ends

/-- The whole path stands, so it is its own deepest part. -/
theorem deepest_whole {q : Location} (found : store.tree.locate false (store.path key) = .ok q) :
    Deepest store.tree (store.path key) (names (store.path key)) [] where
  whole := (List.append_nil _).symm
  stands := ⟨q, by rw [FileTree.locate_names_eq ends (locate_eq_ok_iff.mp found).1, found]⟩
  missing more some_more along := absurd (List.prefix_nil.mp along) some_more

theorem deepest_take {k : Nat} {q : Location}
    (missing : store.tree.locate false (store.path key) = .error .notFound)
    (found : store.tree.locate false ((names (store.path key)).take k) = .ok q)
    (above : ∀ m < (names (store.path key)).length, k < m →
      store.tree.locate false ((names (store.path key)).take m) = .error .notFound) :
    Deepest store.tree (store.path key) ((names (store.path key)).take k)
      ((names (store.path key)).drop k) := by
  refine ⟨(List.take_append_drop _ _).symm, ⟨q, found⟩, fun more some_more along place stands => ?_⟩
  obtain ⟨later, split⟩ := along
  have positive := List.length_pos_iff.mpr some_more
  have length := congrArg List.length split
  rw [List.length_append, List.length_drop] at length
  have taken : (names (store.path key)).take (k + more.length) =
      (names (store.path key)).take k ++ more := by
    rw [List.take_add, ← split, List.take_left']
    rfl
  rw [← taken] at stands
  by_cases inside : k + more.length < (names (store.path key)).length
  · rw [above _ inside (by omega)] at stands
    cases stands
  · rw [List.take_of_length_le (by omega),
      FileTree.locate_names_eq ends (FileTree.locate_eq_notFound_iff.mp missing).1,
      missing] at stands
    cases stands

/-- A store refuses a key for one of these reasons only, and for each of them. -/
theorem resolve_error_iff (some_key : key ≠ "")
    (located : store.tree.locate true store.root = .ok anchor) :
    (∃ e, store.resolve key = .error e) ↔ store.Refusal anchor key := by
  constructor
  · rintro ⟨e, failed⟩
    by_cases relative : isRelative key = true
    · rw [resolve_eq_map some_key relative located] at failed
      cases checked : checkUpward store.tree anchor key (upward (store.path key)) with
      | ok _ => rw [checked] at failed; cases failed
      | error f =>
        rcases checkUpward_error_cons checked with stops | ⟨missing, checked⟩
        · rcases stops with ⟨f, located, other⟩ | ⟨⟨q, found⟩, outside⟩
          · exact .blocked f located other
          · refine .strayed _ _ (deepest_whole ends found) ?_
            rwa [FileTree.locate_names_eq ends (locate_eq_ok_iff.mp found).1]
        · obtain ⟨k, small, stops, above⟩ := checkUpward_error_range _ _ checked
          have whole : store.tree.locate false (names (store.path key)) = .error .notFound := by
            rw [FileTree.locate_names_eq ends (FileTree.locate_eq_notFound_iff.mp missing).1,
              missing]
          rw [← List.take_append_drop k (names (store.path key))] at whole
          rcases stops with ⟨f, failed, other⟩ | ⟨⟨q, found⟩, outside⟩
          · -- What is missing at its end cannot be blocked on the way.
            rcases FileTree.locate_front_of_missing whole with ⟨q, found⟩ | gone
            · rw [found] at failed
              cases failed
            · rw [gone] at failed
              exact absurd (Except.error.inj failed).symm other
          · exact .strayed _ _ (deepest_take ends missing found above) outside
    · exact .improper (Bool.eq_false_iff.mpr relative)
  · intro refusal
    cases resolved : store.resolve key with
    | error e => exact ⟨e, rfl⟩
    | ok path =>
      obtain ⟨relative, rfl, found, -, checked⟩ := (resolve_eq_ok_iff some_key).mp resolved
      cases refusal with
      | improper improper => rw [improper] at relative; cases relative
      | blocked e failed other =>
        have stops : Stops store.tree found (store.path key) := .inl ⟨e, failed, other⟩
        obtain ⟨f, stopped⟩ := checkUpward_stops stops key _
        rw [upward, stopped] at checked
        cases checked
      | strayed front rest deepest outside =>
        obtain ⟨-, missing, place, stands⟩ :=
          missing_of_deepest_outside some_key located deepest outside resolved
        rw [FileTree.locate_names_eq ends (FileTree.locate_eq_notFound_iff.mp missing).1,
          missing] at stands
        cases stands

end Ending

/-! ## Where there are no links -/

section Tended

variable {base : FileTree}

/-- Whatever stands below a bare directory leads where its names do. -/
theorem leads_of_tended (tended : base.Tended anchor store.tree)
    (bare : base.Bare store.root anchor) {below : List String} {place : Location}
    (named : ∀ n ∈ below, IsName n)
    (stands : store.tree.locate false (names store.root ++ below) = .ok place) :
    store.tree.locate true (names store.root ++ below) = .ok (anchor ++ below) := by
  obtain ⟨sendable, walked⟩ := locate_eq_ok_iff.mp stands
  rw [FileTree.locate_eq_walk sendable]
  have plain : names below = below := FileTree.names_eq_self named
  rcases List.eq_nil_or_concat below with rfl | ⟨above, last, rfl⟩
  · rw [List.append_nil, List.append_nil]
    exact (locate_eq_ok_iff.mp (FileTree.locate_names (tended.locate_root bare))).2
  · rw [List.concat_eq_append] at *
    have own : IsName last := named last (by simp)
    have down : ".." ∉ above := fun among => (named ".." (List.mem_append_left _ among)).2.2 rfl
    have whole : ".." ∉ above ++ [last] := fun among => (named ".." among).2.2 rfl
    obtain ⟨-, short⟩ := tended.rooted_eq bare (.inr rfl) (.inl (by simp)) whole walked
    rw [FileTree.names_concat own] at short plain
    have above_plain : names above = above := (List.append_inj' plain rfl).1
    rw [← List.append_assoc] at walked
    obtain ⟨mid, left, reached, ended⟩ := FileTree.walk_to_end walked (.inl (by simp))
    obtain ⟨rfl, -⟩ := tended.rooted_eq bare (.inr rfl) (.inr rfl) down reached
    obtain ⟨-, -, some_node, -⟩ := FileTree.walk_last own ended
    rw [tended.rooted_to_name bare (.inr rfl) down own short some_node, above_plain,
      List.append_assoc]

/-- Where nobody makes links, a key is refused for its text or for a step that cannot be taken. -/
theorem refusal_of_tended (tended : base.Tended anchor store.tree)
    (bare : base.Bare store.root anchor) (refusal : store.Refusal anchor key) :
    isRelative key = false ∨
      ∃ e, store.tree.locate false (store.path key) = .error e ∧ e ≠ .notFound := by
  cases relative : isRelative key with
  | false => exact .inl rfl
  | true =>
    right
    cases refusal with
    | improper improper => rw [relative] at improper; cases improper
    | blocked e failed other => exact ⟨e, failed, other⟩
    | strayed front rest deepest outside =>
      exfalso
      have rooted := FileTree.locate_names (tended.locate_root bare)
      obtain ⟨q, root_stands⟩ := locate_unfollowed rooted
      have whole := deepest.whole
      rw [FileStore.path, FileTree.names_append] at whole
      rcases List.append_eq_append_iff.mp whole with ⟨below, rfl, split⟩ | ⟨more, above, rfl⟩
      · obtain ⟨place, stands⟩ := deepest.stands
        have named : ∀ n ∈ below, IsName n := fun n among =>
          FileTree.isName_of_mem_names (not_up_of_isRelative relative)
            (split ▸ List.mem_append_left rest among)
        exact outside ⟨_, leads_of_tended tended bare named stands, List.prefix_append _ _⟩
      · by_cases none : more = []
        · rw [none, List.append_nil] at above
          exact outside ⟨anchor, above ▸ rooted, List.prefix_rfl⟩
        · exact deepest.missing more none (List.prefix_append _ _) q (above ▸ root_stands)

end Tended

/-! ## What is no missing object -/

theorem faulty_of_refused (refused : store.resolve key = .error e) : e.Faulty := by
  rintro what rfl
  exact resolve_ne_notFound refused

/-- On the way to a key that is not refused nothing fails. -/
theorem unblocked_of_resolve (some_key : key ≠ "")
    (located : store.tree.locate true store.root = .ok anchor)
    (resolved : store.resolve key = .ok path) (follow : Bool) :
    ¬ ∃ e, store.tree.locate follow path = .error e ∧ e ≠ .notFound := by
  rintro ⟨e, failed, other⟩
  obtain ⟨-, rfl, ⟨place, leads, -⟩ | ⟨missing, -⟩⟩ := resolve_cases some_key located resolved
  · obtain ⟨q, found⟩ := locate_unfollowed leads
    cases follow with
    | true => rw [leads] at failed; cases failed
    | false => rw [found] at failed; cases failed
  · obtain ⟨sendable, walked⟩ := FileTree.locate_eq_notFound_iff.mp missing
    have gone : store.tree.locate follow (store.path key) = .error .notFound := by
      cases follow with
      | false => exact missing
      | true => rw [FileTree.locate_eq_walk sendable, FileTree.walk_error_followed walked]
    rw [gone] at failed
    exact other (Except.error.inj failed).symm

section Archive

variable (some_key : key ≠ "") (located : store.tree.locate true store.root = .ok anchor)
  (named : IsName name) (split : store.path key = front ++ [name])

include some_key located named split

/-- Reading is refused with the key, or fails at something that is no file. -/
theorem get_faulty_iff : (∃ e, store.get key = .error e ∧ e.Faulty) ↔
    store.Refusal anchor key ∨ ∃ place node, store.tree.locate true (store.path key) = .ok place ∧
      store.tree.at? place = some node ∧ ∀ data, node ≠ .file data := by
  have ends : EndsInName (store.path key) := split ▸ FileTree.endsInName_concat named front
  rw [← resolve_error_iff ends some_key located, get]
  cases resolved : store.resolve key with
  | error e => exact iff_of_true ⟨e, rfl, faulty_of_refused resolved⟩ (.inl ⟨e, rfl⟩)
  | ok path =>
    have unblocked := unblocked_of_resolve some_key located resolved true
    obtain ⟨-, rfl⟩ := resolve_eq_ok some_key resolved
    simp only [bind, Except.bind, StorageError.faulty_of_call, FileTree.readFile_fault_iff,
      reduceCtorEq, exists_false, false_or]
    rw [or_iff_right unblocked, FileStore.path]

/-- Deleting is refused with the key, or fails at a directory. -/
theorem delete_faulty_iff : (∃ e, (store.delete key).1 = .error e ∧ e.Faulty) ↔
    store.Refusal anchor key ∨ ∃ place, store.tree.locate false (store.path key) = .ok place ∧
      store.tree.at? place = some .directory := by
  have ends : EndsInName (store.path key) := split ▸ FileTree.endsInName_concat named front
  rw [← resolve_error_iff ends some_key located]
  cases resolved : store.resolve key with
  | error e =>
    have refused : (store.delete key).1 = .error e := by rw [delete, resolved]
    exact iff_of_true ⟨e, refused, faulty_of_refused resolved⟩ (.inl ⟨e, rfl⟩)
  | ok path =>
    have unblocked := unblocked_of_resolve some_key located resolved false
    obtain ⟨-, rfl⟩ := resolve_eq_ok some_key resolved
    have called : (∃ e, (store.delete key).1 = .error e ∧ e.Faulty) ↔
        ∃ f, store.tree.removeFile (store.root ++ steps key) = .error f ∧ f ≠ .notFound := by
      rw [← StorageError.faulty_of_call key, delete, resolved]
      dsimp only
      cases store.tree.removeFile (store.root ++ steps key) <;> simp
    rw [FileStore.path] at split ⊢
    rw [split] at called unblocked ⊢
    rw [called, FileTree.removeFile_fault_iff named]
    simp only [reduceCtorEq, exists_false, false_or]
    rw [or_iff_right unblocked]

end Archive

variable {c : Coordinate}

theorem path_of_archiveKey (store : FileStore) (written : archiveKey c = .ok key) :
    key ≠ "" ∧ ∃ front name, IsName name ∧ store.path key = front ++ [name] := by
  obtain ⟨some_key, above, name, split, named⟩ := steps_of_archiveKey written
  refine ⟨some_key, store.root ++ above, name, named, ?_⟩
  rw [FileStore.path, split, List.append_assoc]

theorem getArchive_faulty_iff (written : archiveKey c = .ok key) :
    (∃ e, store.getArchive c = .error e ∧ e.Faulty) ↔ ∃ e, store.get key = .error e ∧ e.Faulty := by
  rw [getArchive, written]
  dsimp only
  split
  · next what gone => simp [gone, StorageError.Faulty]
  · rfl

theorem getArchive_of_sound (written : archiveKey c = .ok key)
    (sound : ¬ ∃ e, store.getArchive c = .error e ∧ e.Faulty) :
    (∃ data, store.getArchive c = .ok data) ∨
      store.getArchive c = .error (.notFound c.display) := by
  cases got : store.getArchive c with
  | ok data => exact .inl ⟨data, rfl⟩
  | error e =>
    have missing : ∃ what, e = .notFound what := by
      by_contra other
      exact sound ⟨e, got, fun what same => other ⟨what, same⟩⟩
    obtain ⟨what, rfl⟩ := missing
    rw [getArchive, written] at got
    dsimp only at got
    split at got
    · next gone =>
      cases got
      exact .inr rfl
    · next unlike => exact absurd got (unlike what)

/-- A missing archive is deleted without a fault. -/
theorem deleteArchive_error_iff (written : archiveKey c = .ok key) :
    (store.deleteArchive c).1 = .error e ↔ (store.delete key).1 = .error e ∧ e.Faulty := by
  rw [deleteArchive, written]
  dsimp only
  split
  · next what next gone =>
    rw [gone]
    refine iff_of_false (by simp) ?_
    rintro ⟨same, faulty⟩
    exact faulty what (Except.error.inj same).symm
  · next unlike =>
    refine (and_iff_left_of_imp fun failed => ?_).symm
    rintro what rfl
    exact unlike what (store.delete key).2 (Prod.ext failed rfl)

end FileStore

end ModuleDepot
