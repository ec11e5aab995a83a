import Mathlib.Data.List.Nodup
import ModuleDepot.Archive.Container
import ModuleDepot.Proofs.WordBytes

/-!
What is found in a container, whatever its bytes are. Entries have distinct names, a 16 bit word
counts them, and each one's method is named by such a word.
-/

namespace ModuleDepot.Archive.Container

variable {data extra : ByteArray} {dir : Directory} {pos : Nat} {e : Entry} {entries : List Entry}

/-- A method that a 16 bit word names. -/
def Numbered (m : Method) : Prop := ∃ code, code < 65536 ∧ m = Method.ofCode code

/-- What holds of an archive that was read from bytes. -/
structure Sound (a : Archive) : Prop where
  few : a.entries.length < 65536
  numbered : ∀ e ∈ a.entries, Numbered e.content.method
  distinct : a.names.Nodup

theorem sound_of_stored {a : Archive} (few : a.entries.length < 65536)
    (stored : ∀ e ∈ a.entries, e.content.method = .stored) (distinct : a.names.Nodup) : Sound a :=
  ⟨few, fun e among => ⟨0, by decide, stored e among⟩, distinct⟩

/-! ## Headers -/

-- One word of the field is taken, or left as it is, and the rest goes on from there.
theorem method_of_choice {α : Type} {taken : Prop} [Decidable taken] {word : Option Nat}
    {set : Nat → Header} {more kept : Nat} {h : Header} {next : Header × Nat → Option α} {out : α}
    (same : ∀ w, (set w).content.method = h.content.method)
    (chosen : (if taken then word >>= fun w => pure (set w, more) >>= next
      else pure (h, kept) >>= next) = some out) :
    ∃ n used, n.content.method = h.content.method ∧ next (n, used) = some out := by
  split at chosen
  · obtain ⟨w, -, chosen⟩ := Option.bind_eq_some_iff.mp chosen
    exact ⟨set w, more, same w, chosen⟩
  · exact ⟨h, kept, rfl, chosen⟩

theorem method_of_applyLarge {size used : Nat} {h n : Header}
    (applied : applyLarge extra pos size h = some (n, used)) :
    n.content.method = h.content.method := by
  obtain ⟨first, _, sized, applied⟩ := method_of_choice (by exact fun _ => rfl) applied
  obtain ⟨second, _, packed, applied⟩ := method_of_choice (by exact fun _ => rfl) applied
  obtain ⟨third, _, placed, applied⟩ := method_of_choice (by exact fun _ => rfl) applied
  cases applied
  rw [placed, packed, sized]

theorem numbered_of_applyExtra {fuel : Nat} {h n : Header} (own : Numbered h.content.method)
    (applied : applyExtra extra fuel pos h = some n) : Numbered n.content.method := by
  fun_induction applyExtra extra fuel pos h
  case case4 large _ _ ih =>
    rw [← method_of_applyLarge large] at own
    exact ih own applied
  case case9 ih => exact ih own applied
  case case12 code named _ _ _ _ _ ih => exact ih ⟨code, Bytes.word16?_lt named, rfl⟩ applied
  case case15 ih => exact ih own applied
  -- The field is cut off, and ends the search, or contradicts the header.
  all_goals cases applied <;> exact own

theorem passed_of_guard {α : Type} {refused : Prop} [Decidable refused] {next : PUnit → Option α}
    {out : α} (passed : (if refused then none >>= next else next ⟨⟩) = some out) :
    ¬ refused ∧ next ⟨⟩ = some out := by
  split at passed
  · cases passed
  · next free => exact ⟨free, passed⟩

theorem numbered_of_entryAt? {next : Nat} (found : entryAt? data dir pos = some (e, next)) :
    Numbered e.content.method := by
  unfold entryAt? at found
  obtain ⟨-, found⟩ := passed_of_guard found
  obtain ⟨flags, -, found⟩ := Option.bind_eq_some_iff.mp found
  obtain ⟨code, named, found⟩ := Option.bind_eq_some_iff.mp found
  iterate 10 obtain ⟨_, -, found⟩ := Option.bind_eq_some_iff.mp found
  obtain ⟨header, applied, found⟩ := Option.bind_eq_some_iff.mp found
  have numbered := numbered_of_applyExtra ⟨code, Bytes.word16?_lt named, rfl⟩ applied
  obtain ⟨-, found⟩ := passed_of_guard found
  obtain ⟨-, found⟩ := passed_of_guard found
  obtain ⟨start, -, found⟩ := Option.bind_eq_some_iff.mp found
  obtain ⟨-, found⟩ := passed_of_guard found
  cases found
  exact numbered

theorem sound_of_entriesFrom? {count : Nat}
    (found : entriesFrom? data dir count pos = some entries) :
    entries.length = count ∧ ∀ e ∈ entries, Numbered e.content.method := by
  induction count generalizing pos entries with
  | zero =>
    cases found
    exact ⟨rfl, fun e among => nomatch among⟩
  | succ count ih =>
    obtain ⟨⟨e, next⟩, own, found⟩ := Option.bind_eq_some_iff.mp found
    obtain ⟨rest, later, found⟩ := Option.bind_eq_some_iff.mp found
    cases found
    obtain ⟨counted, numbered⟩ := ih later
    exact ⟨congrArg (· + 1) counted,
      List.forall_mem_cons.mpr ⟨numbered_of_entryAt? own, numbered⟩⟩

/-! ## The directory -/

theorem count_of_directoryAt? (found : directoryAt? data pos = some dir) : dir.count < 65536 := by
  unfold directoryAt? at found
  obtain ⟨-, found⟩ := passed_of_guard found
  iterate 2 obtain ⟨_, -, found⟩ := Option.bind_eq_some_iff.mp found
  obtain ⟨count, counted, found⟩ := Option.bind_eq_some_iff.mp found
  iterate 3 obtain ⟨_, -, found⟩ := Option.bind_eq_some_iff.mp found
  obtain ⟨-, found⟩ := passed_of_guard found
  obtain ⟨-, found⟩ := passed_of_guard found
  have read : dir.count = count := by
    dsimp only at found
    split at found
    · cases found
      rfl
    · split at found
      · cases found
      · obtain ⟨start, -, found⟩ := Option.bind_eq_some_iff.mp found
        cases found
        rfl
  rw [read]
  exact Bytes.word16?_lt counted

/-! ## Entries of one name -/

theorem length_put_le (e : Entry) (kept : List Entry) : (put e kept).length ≤ kept.length + 1 := by
  induction kept with
  | nil => exact Nat.le_refl 1
  | cons first rest ih =>
    rw [put]
    split
    · exact Nat.le_succ _
    · exact Nat.succ_le_succ ih

theorem mem_of_mem_put {f : Entry} {kept : List Entry} (among : f ∈ put e kept) :
    f = e ∨ f ∈ kept := by
  induction kept with
  | nil => exact .inl (List.mem_singleton.mp among)
  | cons first rest ih =>
    rw [put] at among
    split at among
    · exact (List.mem_cons.mp among).imp_right (List.mem_cons_of_mem first)
    · rcases List.mem_cons.mp among with rfl | later
      · exact .inr List.mem_cons_self
      · exact (ih later).imp_right (List.mem_cons_of_mem first)

theorem names_put (e : Entry) (kept : List Entry) : (put e kept).map Entry.name =
    if e.name ∈ kept.map Entry.name then kept.map Entry.name
    else kept.map Entry.name ++ [e.name] := by
  induction kept with
  | nil => rfl
  | cons first rest ih =>
    rw [put]
    by_cases same : first.name = e.name
    · simp [same]
    · rw [if_neg same, List.map_cons, ih]
      by_cases among : e.name ∈ rest.map Entry.name
      · rw [if_pos among, if_pos (by simp [among])]
        rfl
      · rw [if_neg among, if_neg (by simpa [Ne.symm same] using among)]
        rfl

theorem names_nodup_put {kept : List Entry} (distinct : (kept.map Entry.name).Nodup) :
    ((put e kept).map Entry.name).Nodup := by
  rw [names_put]
  split
  · exact distinct
  · next new =>
    rw [← List.concat_eq_append]
    exact List.Nodup.concat new distinct

/-- What holds of all entries of a container holds of those that are left of them. -/
theorem sound_of_foldl_put {kept : List Entry} (distinct : (kept.map Entry.name).Nodup)
    (few : kept.length + entries.length < 65536)
    (numbered : ∀ e ∈ kept ++ entries, Numbered e.content.method) :
    Sound ⟨entries.foldl (fun kept e => put e kept) kept⟩ := by
  induction entries generalizing kept with
  | nil =>
    rw [List.append_nil] at numbered
    exact ⟨few, numbered, distinct⟩
  | cons e rest ih =>
    have short := length_put_le e kept
    rw [List.length_cons] at few
    refine ih (names_nodup_put distinct)
      (show (put e kept).length + rest.length < 65536 by omega) fun f among => numbered f ?_
    rw [List.append_cons]
    rcases List.mem_append.mp among with left | later
    · exact List.mem_append_left rest (by simpa using (mem_of_mem_put left).symm)
    · exact List.mem_append_right _ later

/-! ## Archives -/

theorem archiveAt?_of_search? {stop : Nat} {a : Archive} (searched : search? data stop = some a) :
    ∃ p, archiveAt? data p = some a := by
  induction stop with
  | zero => cases searched
  | succ stop ih =>
    rw [search?] at searched
    split at searched
    · next b here => exact ⟨stop, here.trans searched⟩
    · exact ih searched

theorem sound_of_read {a : Archive} (found : read data = .ok a) : Sound a := by
  rw [read] at found
  split at found
  · next b hit =>
    cases found
    obtain ⟨p, here⟩ := archiveAt?_of_search? hit
    obtain ⟨dir, ended, here⟩ := Option.bind_eq_some_iff.mp here
    obtain ⟨entries, all, here⟩ := Option.bind_eq_some_iff.mp here
    cases here
    obtain ⟨counted, numbered⟩ := sound_of_entriesFrom? all
    have few := count_of_directoryAt? ended
    exact sound_of_foldl_put List.nodup_nil (by rw [List.length_nil]; omega) numbered
  · cases found

end ModuleDepot.Archive.Container
