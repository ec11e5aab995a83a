import ModuleDepot.Origin.Resolver

/-!
Whether a module may be fetched from an open proxy is told by comparing two requests:
the first one, and what the significant steps make of it in the end. A single step that
changes the first request never makes any request into it. Several steps may: they lead
the request away and back again, and then nothing is seen of them at the end.
-/

namespace ModuleDepot

namespace FetchRequest

theorem insertEntry_ne_nil {α : Type} (name : String) (value : α) (entries : List (String × α)) :
    Json.insertEntry name value entries ≠ [] := by
  cases entries with
  | nil => simp [Json.insertEntry]
  | cons entry rest =>
      unfold Json.insertEntry
      split <;> simp

theorem addHeader_ne_nil (headers : Texts) (entry : String × String) :
    addHeader headers entry ≠ [] := by
  unfold addHeader
  split
  · next known =>
      rintro rfl
      simp at known
  · exact insertEntry_ne_nil entry.1 entry.2 headers

/-- Headers are only ever added. -/
theorem foldl_addHeader_eq_nil_iff (entries headers : Texts) :
    entries.foldl addHeader headers = [] ↔ entries = [] ∧ headers = [] := by
  induction entries generalizing headers with
  | nil => simp
  | cons entry rest ih =>
      rw [List.foldl_cons, ih]
      simp [addHeader_ne_nil headers entry]

end FetchRequest

namespace Transform

variable {t : Transform} {c : Coordinate}

/-- The step, taken alone, changes the request that a coordinate stands for. -/
def Touches (t : Transform) (c : Coordinate) : Prop :=
  t.apply (.ofCoordinate c) ≠ pure (.ok (.ofCoordinate c))

theorem apply_of_significant (significant : t.isPolicySignificant = true) (r : FetchRequest) :
    t.apply r = pure (.ok (t.policy r)) := by
  cases t with
  | redirect domain target => rfl
  | headers domain entries => rfl
  | transport domain name => rfl
  | discover mode domains => cases significant
  | path templates => cases significant

theorem touches_iff (significant : t.isPolicySignificant = true) :
    t.Touches c ↔ t.policy (.ofCoordinate c) ≠ .ofCoordinate c := by
  have same : ∀ r : FetchRequest,
      (pure (.ok r) : Http.Online (Except OriginError FetchRequest)) =
        pure (.ok (.ofCoordinate c)) ↔ r = .ofCoordinate c := by
    intro r
    constructor
    · intro equal
      exact Except.ok.inj (Procedure.done.inj equal)
    · rintro rfl
      rfl
  rw [Touches, apply_of_significant significant, ne_eq, ne_eq, same]

/-- The step sets the domain or the transport that the first request of the coordinate has. -/
def Restores (t : Transform) (c : Coordinate) : Prop :=
  (∃ domain, t = .redirect domain (FetchRequest.ofCoordinate c).domain) ∨
    ∃ domain, t = .transport domain (FetchRequest.ofCoordinate c).transport

/-- Headers are never taken away, so that only a domain or a transport can be restored. -/
theorem restores_of_policy_eq {r : FetchRequest} (moved : t.policy r ≠ r)
    (back : t.policy r = .ofCoordinate c) : t.Restores c := by
  cases t with
  | redirect domain target =>
      by_cases here : r.domain = domain
      · have arrived : (FetchRequest.ofCoordinate c).domain = target := by
          simp [← back, policy, here]
        exact Or.inl ⟨domain, by rw [arrived]⟩
      · simp [policy, here] at moved
  | transport domain name =>
      by_cases here : r.domain = domain
      · have set : (FetchRequest.ofCoordinate c).transport = name := by
          simp [← back, policy, here]
        exact Or.inr ⟨domain, by rw [set]⟩
      · simp [policy, here] at moved
  | headers domain entries =>
      by_cases here : r.domain = domain
      · have none : entries.foldl FetchRequest.addHeader r.headers = [] := by
          have bare : (FetchRequest.ofCoordinate c).headers = [] := rfl
          rw [← back] at bare
          simpa [policy, here] using bare
        rw [FetchRequest.foldl_addHeader_eq_nil_iff] at none
        simp [policy, none.1] at moved
      · simp [policy, here] at moved
  | discover mode domains => exact absurd rfl moved
  | path templates => exact absurd rfl moved

theorem policy_of_restores (restores : t.Restores c) :
    t.policy (.ofCoordinate c) = .ofCoordinate c := by
  rcases restores with ⟨domain, rfl⟩ | ⟨domain, rfl⟩
  all_goals
    simp only [policy]
    split <;> rfl

/-- A step that changes the first request makes no request into it, wherever it is taken. -/
theorem policy_ne_first (touches : t.policy (.ofCoordinate c) ≠ .ofCoordinate c)
    (r : FetchRequest) : t.policy r ≠ .ofCoordinate c := by
  intro back
  by_cases moved : t.policy r = r
  · exact touches (by rw [← back, moved, moved])
  · exact touches (policy_of_restores (restores_of_policy_eq moved back))

end Transform

namespace FetchRequest

/-- A request after the significant steps of a list. -/
def underPolicy (ts : List Transform) (r : FetchRequest) : FetchRequest :=
  (ts.filter Transform.isPolicySignificant).foldl (fun r t => t.policy r) r

variable {c : Coordinate} {r : FetchRequest}

@[simp] theorem underPolicy_nil : r.underPolicy [] = r := rfl

theorem underPolicy_cons (t : Transform) (ts : List Transform) :
    r.underPolicy (t :: ts) =
      (if t.isPolicySignificant then t.policy r else r).underPolicy ts := by
  by_cases significant : t.isPolicySignificant = true <;> simp [underPolicy, significant]

theorem underPolicy_append (before after : List Transform) :
    r.underPolicy (before ++ after) = (r.underPolicy before).underPolicy after := by
  simp [underPolicy, List.foldl_append]

theorem isPublic_iff (ts : List Transform) (c : Coordinate) :
    isPublic ts c = true ↔ (ofCoordinate c).underPolicy ts = ofCoordinate c := by
  simp [isPublic, underPolicy]

theorem isPublic_eq_false_iff (ts : List Transform) (c : Coordinate) :
    isPublic ts c = false ↔ (ofCoordinate c).underPolicy ts ≠ ofCoordinate c := by
  rw [ne_eq, ← isPublic_iff, Bool.not_eq_true]

/-- No significant step of the list changes the first request by itself. -/
def Untouched (ts : List Transform) (c : Coordinate) : Prop :=
  ∀ t ∈ ts, t.isPolicySignificant = true → ¬ t.Touches c

theorem untouched_cons (t : Transform) (ts : List Transform) :
    Untouched (t :: ts) c ↔ (t.isPolicySignificant = true → ¬ t.Touches c) ∧ Untouched ts c := by
  simp [Untouched]

theorem untouched_of_perm {ts other : List Transform} (order : other.Perm ts) :
    Untouched other c ↔ Untouched ts c := by
  simp only [Untouched, order.mem_iff]

/-- A step that does not change the first request by itself can be left out before it. -/
theorem underPolicy_cons_of_untouched {t : Transform} (ts : List Transform)
    (kept : t.isPolicySignificant = true → ¬ t.Touches c) :
    (ofCoordinate c).underPolicy (t :: ts) = (ofCoordinate c).underPolicy ts := by
  rw [underPolicy_cons]
  split
  · next significant =>
      have same := mt (Transform.touches_iff significant).mpr (kept significant)
      rw [Classical.not_not.mp same]
  · rfl

theorem underPolicy_of_untouched {ts : List Transform} (untouched : Untouched ts c) :
    (ofCoordinate c).underPolicy ts = ofCoordinate c := by
  induction ts with
  | nil => rfl
  | cons t rest ih =>
      obtain ⟨kept, later⟩ := (untouched_cons t rest).mp untouched
      rw [underPolicy_cons_of_untouched rest kept, ih later]

/-- The first step that changes the request by itself finds it unchanged. -/
theorem away_of_touched {ts : List Transform} (touched : ¬ Untouched ts c) :
    ∃ before after, ts = before ++ after ∧
      (ofCoordinate c).underPolicy before ≠ ofCoordinate c := by
  induction ts with
  | nil => exact absurd (fun t member => absurd member List.not_mem_nil) touched
  | cons t rest ih =>
      by_cases kept : t.isPolicySignificant = true → ¬ t.Touches c
      · obtain ⟨before, after, rfl, away⟩ := ih fun later =>
          touched ((untouched_cons t rest).mpr ⟨kept, later⟩)
        refine ⟨t :: before, after, rfl, ?_⟩
        rwa [underPolicy_cons_of_untouched before kept]
      · obtain ⟨significant, touches⟩ := Classical.not_imp.mp kept
        refine ⟨[t], rest, rfl, ?_⟩
        rw [underPolicy_cons, if_pos significant]
        exact (Transform.touches_iff significant).mp (Classical.not_not.mp touches)

/-- The first steps of the list lead the request away, and the others lead it back. -/
def LedBack (ts : List Transform) (c : Coordinate) : Prop :=
  ∃ before after, ts = before ++ after ∧ (ofCoordinate c).underPolicy before ≠ ofCoordinate c ∧
    (ofCoordinate c).underPolicy ts = ofCoordinate c

/-- Without a step that restores something, a request that was led away stays away. -/
theorem restores_of_back {ts : List Transform} (away : r ≠ ofCoordinate c)
    (ended : r.underPolicy ts = ofCoordinate c) : ∃ t ∈ ts, t.Restores c := by
  induction ts generalizing r with
  | nil => exact absurd ended away
  | cons t rest ih =>
      rw [underPolicy_cons] at ended
      by_cases restores : t.Restores c
      · exact ⟨t, List.mem_cons_self, restores⟩
      · have still : (if t.isPolicySignificant then t.policy r else r) ≠ ofCoordinate c := by
          split
          · intro back
            by_cases moved : t.policy r = r
            · exact away (moved.symm.trans back)
            · exact restores (Transform.restores_of_policy_eq moved back)
          · exact away
        obtain ⟨u, member, restores⟩ := ih still ended
        exact ⟨u, List.mem_cons_of_mem t member, restores⟩

theorem restores_of_ledBack {ts : List Transform} (back : LedBack ts c) :
    ∃ t ∈ ts, t.Restores c := by
  obtain ⟨before, after, rfl, away, ended⟩ := back
  rw [underPolicy_append] at ended
  obtain ⟨t, member, restores⟩ := restores_of_back away ended
  exact ⟨t, List.mem_append_right before member, restores⟩

theorem ledBack_iff {ts : List Transform} :
    LedBack ts c ↔ ¬ Untouched ts c ∧ (ofCoordinate c).underPolicy ts = ofCoordinate c := by
  constructor
  · rintro ⟨before, after, rfl, away, ended⟩
    refine ⟨fun untouched => away ?_, ended⟩
    exact underPolicy_of_untouched fun t member => untouched t (List.mem_append_left _ member)
  · rintro ⟨touched, ended⟩
    obtain ⟨before, after, split, away⟩ := away_of_touched touched
    exact ⟨before, after, split, away, ended⟩

/-- A list with a step that changes the request by itself has an order in which the module is
seen to be private: that step comes last. -/
theorem private_in_some_order {ts : List Transform} (touched : ¬ Untouched ts c) :
    ∃ other, other.Perm ts ∧ isPublic other c = false := by
  obtain ⟨t, member, significant, touches⟩ : ∃ t ∈ ts, t.isPolicySignificant = true ∧
      t.Touches c := by
    simpa [Untouched] using touched
  obtain ⟨before, after, rfl⟩ := List.append_of_mem member
  refine ⟨before ++ after ++ [t], ?_, ?_⟩
  · have middle : (before ++ t :: after).Perm (t :: (before ++ after)) := List.perm_middle
    exact List.perm_append_comm.trans middle.symm
  · rw [isPublic_eq_false_iff, underPolicy_append, underPolicy_cons, if_pos significant]
    exact Transform.policy_ne_first ((Transform.touches_iff significant).mp touches) _

theorem isPublic_iff_untouched (ts : List Transform) (c : Coordinate) :
    (isPublic ts c = true ↔ Untouched ts c) ↔ ¬ LedBack ts c := by
  rw [ledBack_iff, isPublic_iff]
  constructor
  · rintro exactly ⟨touched, ended⟩
    exact touched (exactly.mp ended)
  · intro never
    refine ⟨fun ended => ?_, underPolicy_of_untouched⟩
    exact Classical.byContradiction fun touched => never ⟨touched, ended⟩

/-- The answer is public exactly for requests that no significant step changes, and the same in
every order of the steps, except where steps lead the request away and back. That takes a redirect
to the coordinate's own domain or a step that sets its own transport. -/
theorem public_iff_untouched_unless_led_back (ts : List Transform) (c : Coordinate) :
    ((isPublic ts c = true ↔ Untouched ts c) ↔ ¬ LedBack ts c) ∧
      ((∀ other, other.Perm ts → isPublic other c = isPublic ts c) ↔
        ∀ other, other.Perm ts → ¬ LedBack other c) ∧
      (LedBack ts c → ∃ t ∈ ts, t.Restores c) := by
  refine ⟨isPublic_iff_untouched ts c, ?_, restores_of_ledBack⟩
  constructor
  · intro steady other order back
    obtain ⟨touched, ended⟩ := ledBack_iff.mp back
    obtain ⟨last, same, hidden⟩ :=
      private_in_some_order (mt (untouched_of_perm order).mpr touched)
    rw [steady last same, ← steady other order, isPublic_eq_false_iff] at hidden
    exact hidden ended
  · intro never other order
    have here := (isPublic_iff_untouched ts c).mpr (never ts (List.Perm.refl ts))
    have there := (isPublic_iff_untouched other c).mpr (never other order)
    rw [Bool.eq_iff_iff, here, there, untouched_of_perm order]

/-! ## A redirect and its opposite -/

namespace Sample

def internal : Coordinate := ⟨"git.corp/team/lib", "v1.0.0"⟩

def thereAndBack : List Transform :=
  [.redirect "git.corp" "mirror.corp", .redirect "mirror.corp" "git.corp"]

end Sample

/-- A module that one step sends to a mirror is taken to be public when a later step sends it back,
and to be private when the two steps change places. -/
theorem redirected_module_may_look_public :
    ¬ (isPublic Sample.thereAndBack Sample.internal = true ↔
        Untouched Sample.thereAndBack Sample.internal) ∧
      isPublic Sample.thereAndBack.reverse Sample.internal ≠
        isPublic Sample.thereAndBack Sample.internal := by
  have led : isPublic Sample.thereAndBack Sample.internal = true := by decide +kernel
  have reversed : isPublic Sample.thereAndBack.reverse Sample.internal = false := by
    decide +kernel
  have sent : (Transform.redirect "git.corp" "mirror.corp").Touches Sample.internal := by
    rw [Transform.touches_iff rfl]
    decide +kernel
  refine ⟨fun exactly => ?_, by simp [led, reversed]⟩
  exact exactly.mp led _ List.mem_cons_self rfl sent

end FetchRequest

end ModuleDepot
