import ModuleDepot.Proofs.RequestFields

/-!
Which headers a resolved request is sent with. Every header was added by one step, for the
domain where the request stood at that step, and it goes along wherever later steps move the
request. It is sent to that domain alone if nothing leads away from there any more: no
redirect of the domain and no discovery that asks it.
-/

namespace ModuleDepot

open Procedure

/-! ## The headers of one request -/

namespace FetchRequest

theorem lookup_foldl_addHeader_eq (entries headers : Texts) (name : String) :
    (entries.foldl addHeader headers).lookup name =
      (headers.lookup name).or (entries.lookup name) := by
  induction entries generalizing headers with
  | nil => simp
  | cons entry rest ih =>
      rw [List.foldl_cons, ih, lookup_addHeader, lookup_cons_eq, Option.or_assoc]
      split <;> rfl

/-- No two headers have one name. -/
def Distinct (headers : Texts) : Prop := (headers.map Prod.fst).Nodup

theorem lookup_eq_none_iff_names (headers : Texts) (name : String) :
    headers.lookup name = none ↔ name ∉ headers.map Prod.fst := by
  induction headers with
  | nil => simp
  | cons entry rest ih =>
      rw [lookup_cons_eq, List.map_cons, List.mem_cons, not_or, ← ih]
      by_cases same : name = entry.1 <;> simp [same]

theorem mem_iff_lookup {headers : Texts} (distinct : Distinct headers)
    (header : String × String) :
    header ∈ headers ↔ headers.lookup header.1 = some header.2 := by
  induction headers with
  | nil => simp
  | cons entry rest ih =>
      obtain ⟨fresh, others⟩ := List.nodup_cons.mp distinct
      rw [List.mem_cons, ih others, lookup_cons_eq, Prod.ext_iff]
      by_cases same : header.1 = entry.1
      · have absent : rest.lookup header.1 = none :=
          (lookup_eq_none_iff_names rest header.1).mpr (same ▸ fresh)
        rw [if_pos same, absent]
        simp [same, eq_comm]
      · simp [same]

theorem insertEntry_perm {headers : Texts} {name : String} (value : String)
    (fresh : name ∉ headers.map Prod.fst) :
    (Json.insertEntry name value headers).Perm ((name, value) :: headers) := by
  induction headers with
  | nil => exact List.Perm.refl _
  | cons entry rest ih =>
      obtain ⟨first, old⟩ := entry
      obtain ⟨apart, others⟩ := not_or.mp (mt List.mem_cons.mpr fresh)
      unfold Json.insertEntry
      cases order : compare name first with
      | lt => exact List.Perm.refl _
      | eq => exact absurd (Std.LawfulEqOrd.eq_of_compare order) apart
      | gt => exact ((ih others).cons (first, old)).trans (List.Perm.swap _ _ rest)

theorem distinct_addHeader {headers : Texts} (distinct : Distinct headers)
    (entry : String × String) : Distinct (addHeader headers entry) := by
  unfold addHeader
  split
  · exact distinct
  · next unknown =>
      rw [Bool.not_eq_true, Option.isSome_eq_false_iff, Option.isNone_iff_eq_none] at unknown
      have fresh := (lookup_eq_none_iff_names headers entry.1).mp unknown
      exact ((insertEntry_perm entry.2 fresh).map Prod.fst).nodup_iff.mpr
        (List.nodup_cons.mpr ⟨fresh, distinct⟩)

theorem distinct_foldl_addHeader (entries : Texts) {headers : Texts}
    (distinct : Distinct headers) : Distinct (entries.foldl addHeader headers) := by
  induction entries generalizing headers with
  | nil => exact distinct
  | cons entry rest ih => exact ih (distinct_addHeader distinct entry)

end FetchRequest

/-! ## What one step adds -/

/-- The step adds the header: it names it among the headers of the domain where the request
stands, and the request has none of that name. -/
def Leg.Adds (leg : Leg) (header : String × String) : Prop :=
  ∃ entries, leg.step = .headers leg.found.domain entries ∧
    entries.lookup header.1 = some header.2 ∧ leg.found.headers.lookup header.1 = none

/-- The step leaves a request that stands at the domain where it is. -/
def Transform.Keeps (domain : String) : Transform → Prop
  | .redirect source target => source = domain → target = domain
  | .discover mode domains => mode.asks domains domain = false
  | .path _ | .headers _ _ | .transport _ _ => True

namespace Transform

variable {t : Transform} {r next : FetchRequest} {asked : List Asked}

/-- A step adds the headers that it names for the domain of the request, and no others. -/
theorem Passed.lookup_headers (passed : t.Passed r asked next) (header : String × String) :
    next.headers.lookup header.1 = some header.2 ↔
      r.headers.lookup header.1 = some header.2 ∨ Leg.Adds ⟨t, r, asked, next⟩ header := by
  cases passed with
  | significant =>
      cases t with
      | headers domain entries =>
          dsimp only [policy]
          split
          · next here =>
              rw [FetchRequest.lookup_foldl_addHeader_eq, Option.or_eq_some_iff]
              simp [Leg.Adds, here, and_comm]
          · next elsewhere => simp [Leg.Adds, Ne.symm elsewhere]
      | redirect | transport =>
          dsimp only [policy]
          split <;> simp [Leg.Adds]
      | path | discover => simp [policy, Leg.Adds]
  | shaped | unasked | forgiven => simp [Leg.Adds]
  | moved _ trace =>
      obtain ⟨_, place, -, rfl⟩ := FetchRequest.moved_of_trace trace
      simp [Leg.Adds, FetchRequest.moveTo]

theorem Passed.distinct_headers (passed : t.Passed r asked next)
    (distinct : FetchRequest.Distinct r.headers) : FetchRequest.Distinct next.headers := by
  cases passed with
  | significant =>
      cases t with
      | headers domain entries =>
          dsimp only [policy]
          split
          · exact FetchRequest.distinct_foldl_addHeader entries distinct
          · exact distinct
      | redirect | transport =>
          dsimp only [policy]
          split <;> exact distinct
      | path | discover => exact distinct
  | shaped | unasked | forgiven => exact distinct
  | moved _ trace =>
      obtain ⟨_, place, -, rfl⟩ := FetchRequest.moved_of_trace trace
      exact distinct

theorem Passed.domain_eq (passed : t.Passed r asked next) (keeps : t.Keeps r.domain) :
    next.domain = r.domain := by
  cases passed with
  | significant =>
      cases t with
      | redirect source target =>
          dsimp only [policy]
          split
          · next here => exact keeps here.symm
          · rfl
      | headers | transport =>
          dsimp only [policy]
          split <;> rfl
      | path | discover => rfl
  | shaped | unasked | forgiven => rfl
  | moved asks => exact absurd (asks.symm.trans keeps) (by decide)

end Transform

/-! ## What a whole walk leaves -/

section

variable {r out : FetchRequest} {legs : List Leg} {header : String × String}

/-- A header of the last request was there from the start, or one of the steps added it. -/
theorem header_of_walk (walk : Walk r legs out) (header : String × String) :
    out.headers.lookup header.1 = some header.2 ↔
      r.headers.lookup header.1 = some header.2 ∨ ∃ leg ∈ legs, leg.Adds header := by
  induction walk with
  | stay => simp
  | go passed _ ih =>
      rw [ih, passed.lookup_headers, or_assoc]
      simp only [List.mem_cons, exists_eq_or_imp]

theorem distinct_of_walk (walk : Walk r legs out) (distinct : FetchRequest.Distinct r.headers) :
    FetchRequest.Distinct out.headers := by
  induction walk with
  | stay => exact distinct
  | go passed _ ih => exact ih (passed.distinct_headers distinct)

theorem domain_of_walk (walk : Walk r legs out)
    (keeps : ∀ leg ∈ legs, leg.step.Keeps r.domain) : out.domain = r.domain := by
  induction walk with
  | stay => rfl
  | go passed _ ih =>
      obtain ⟨own, others⟩ := List.forall_mem_cons.mp keeps
      have stood := passed.domain_eq own
      exact (ih (stood.symm ▸ others)).trans stood

theorem Leg.keeps_of_adds {leg : Leg} (adds : leg.Adds header) :
    leg.step.Keeps leg.found.domain := by
  obtain ⟨entries, named, -, -⟩ := adds
  rw [named]
  trivial

/-- A header is there for all steps after the one that added it, so that none of them adds
another one of the name. -/
theorem not_adds_after {before after : List Leg} {leg later : Leg} {value : String}
    (walk : Walk r (before ++ leg :: after) out) (adds : leg.Adds header)
    (member : later ∈ after) : ¬ later.Adds (header.1, value) := by
  rintro ⟨_, -, -, absent⟩
  obtain ⟨-, passed, rest⟩ := walk_split.mp walk
  obtain ⟨front, back, rfl⟩ := List.append_of_mem member
  have left : leg.left.headers.lookup header.1 = some header.2 :=
    (passed.lookup_headers header).mpr (Or.inr adds)
  have found := (header_of_walk (walk_split.mp rest).1 header).mpr (Or.inl left)
  rw [found] at absent
  cases absent

end

/-! ## What is sent -/

namespace Http

variable {admitted : Request → Prop} {method url body : String} {headers : Texts}

/-- A request that is sent has the headers that were given, beside the one for the user that its
address names. -/
theorem only_send (each : ∀ u given, Url.read url = .ok u → checkHeaders headers = .ok given →
      admitted ⟨method, u.bare, userHeader u ++ given, body⟩) :
    Only admitted (send method url headers body) := by
  unfold send
  split
  · exact only_pure _ _
  · next u readable =>
      split
      · exact only_pure _ _
      · unfold sendTo
        dsimp only
        split
        · exact only_pure _ _
        · next given checked =>
            split
            · exact only_pure _ _
            · refine only_call_bind (each u given readable checked) fun answer => ?_
              cases answer <;> exact only_pure _ _

end Http

/-- A question where a module is kept, which names none of the request's headers. -/
def FetchRequest.Inquires (r : FetchRequest) (sent : Http.Request) : Prop :=
  ∃ u, Url.read r.discoveryUrl = .ok u ∧ sent = ⟨"GET", u.bare, Http.userHeader u, ""⟩

/-- The request for an archive, with all of the request's headers. -/
def FetchRequest.Demands (r : FetchRequest) (sent : Http.Request) : Prop :=
  ∃ u given, Url.read r.url = .ok u ∧ Http.checkHeaders r.headers = .ok given ∧
    sent = ⟨"GET", u.bare, Http.userHeader u ++ given, ""⟩

theorem only_discover (r : FetchRequest) : Only r.Inquires r.discover := by
  unfold FetchRequest.discover
  refine only_bind (Http.only_send fun u given readable checked => ?_) fun answer => ?_
  · obtain rfl : given = [] := (Except.ok.inj checked).symm
    exact ⟨u, readable, by rw [List.append_nil]⟩
  · cases answer with
    | error => exact only_pure _ _
    | ok response =>
        dsimp only
        split
        · exact only_pure _ _
        · split <;> exact only_pure _ _

theorem only_fetch (r : FetchRequest) : Only r.Demands r.fetch := by
  unfold FetchRequest.fetch
  split
  · exact only_pure _ _
  · refine only_bind (Http.only_send fun u given readable checked =>
      ⟨u, given, readable, checked, rfl⟩) fun answer => ?_
    cases answer with
    | error => exact only_pure _ _
    | ok response =>
        dsimp only
        split <;> exact only_pure _ _

/-- Whatever a step asks, it asks without the headers. -/
theorem Transform.Passed.inquires {t : Transform} {r next : FetchRequest} {asked : List Asked}
    (passed : t.Passed r asked next) : ∀ x ∈ asked, r.Inquires x.1 := by
  cases passed with
  | significant | shaped | unasked => simp
  | moved _ trace | forgiven trace => exact trace_only (only_discover r) trace

/-! ## Headers and the domain at the end -/

/-- After a step that adds headers for a domain, no step leads away from there. -/
def Settled (steps : List Transform) : Prop :=
  steps.Pairwise fun t later => ∀ domain entries, t = .headers domain entries → later.Keeps domain

/-- A header that some step added for the domain at the end. -/
def AtHome (legs : List Leg) (out : FetchRequest) (header : String × String) : Prop :=
  ∃ leg ∈ legs, leg.Adds header ∧ leg.found.domain = out.domain

theorem domain_of_settled {r out : FetchRequest} {legs : List Leg} {leg : Leg}
    {header : String × String} (walk : Walk r legs out) (settled : Settled (legs.map Leg.step))
    (member : leg ∈ legs) (adds : leg.Adds header) : leg.found.domain = out.domain := by
  obtain ⟨before, after, rfl⟩ := List.append_of_mem member
  obtain ⟨-, passed, rest⟩ := walk_split.mp walk
  have stood : leg.left.domain = leg.found.domain := passed.domain_eq (Leg.keeps_of_adds adds)
  obtain ⟨entries, named, -, -⟩ := adds
  rw [Settled, List.map_append, List.map_cons] at settled
  have later := (List.pairwise_cons.mp (List.pairwise_append.mp settled).2.1).1
  have keeps : ∀ x ∈ after, x.step.Keeps leg.left.domain := fun x among =>
    stood ▸ later x.step (List.mem_map_of_mem among) leg.found.domain entries named
  exact (stood.symm.trans (domain_of_walk rest keeps).symm)

/-- Every header of a resolved request was added by one step, for the domain where the request
stood then. All headers were added for the domain that the request is sent to if and only if no
step added one before the request was moved elsewhere, which no answer can bring about if no step
leads away from a domain after headers were added for it. The questions on the way are asked
without the headers, and fetching sends all of them to the address at the end. -/
theorem headers_home_unless_moved {steps : List Transform} {c : Coordinate} {asked : List Asked}
    {r : FetchRequest} (trace : Trace (resolve steps c) asked (.ok r)) :
    (∃ legs, Walk (.ofCoordinate c) legs r ∧ legs.map Leg.step = steps ∧
      legs.flatMap Leg.asked = asked ∧
      (∀ header, header ∈ r.headers ↔ ∃ leg ∈ legs, leg.Adds header) ∧
      (∀ before leg after header, legs = before ++ leg :: after → leg.Adds header →
        ∀ other ∈ before ++ after, ∀ value, ¬ other.Adds (header.1, value)) ∧
      ((∀ header ∈ r.headers, AtHome legs r header) ↔
        ∀ leg ∈ legs, ∀ header, leg.Adds header → leg.found.domain = r.domain) ∧
      (Settled steps → ∀ header ∈ r.headers, AtHome legs r header) ∧
      ∀ leg ∈ legs, ∀ x ∈ leg.asked, leg.found.Inquires x.1) ∧
    ∀ sent answer, Trace r.fetch sent answer → ∀ x ∈ sent, r.Demands x.1 := by
  obtain ⟨legs, walk, rfl, rfl⟩ := trace_follow_ok_iff.mp trace
  have distinct : FetchRequest.Distinct r.headers := distinct_of_walk walk List.nodup_nil
  have added (header : String × String) :
      header ∈ r.headers ↔ ∃ leg ∈ legs, leg.Adds header := by
    rw [FetchRequest.mem_iff_lookup distinct, header_of_walk walk]
    simp [FetchRequest.ofCoordinate]
  have once : ∀ before leg after header, legs = before ++ leg :: after → leg.Adds header →
      ∀ other ∈ before ++ after, ∀ value, ¬ other.Adds (header.1, value) := by
    rintro before leg after header rfl adds other member value again
    rcases List.mem_append.mp member with earlier | later
    · obtain ⟨front, back, rfl⟩ := List.append_of_mem earlier
      rw [List.append_assoc, List.cons_append] at walk
      exact not_adds_after walk again (List.mem_append_right back List.mem_cons_self) adds
    · exact not_adds_after walk adds later again
  refine ⟨⟨legs, walk, rfl, rfl, added, once, ?_, ?_, ?_⟩, ?_⟩
  · constructor
    · intro home leg member header adds
      obtain ⟨other, among, again, there⟩ := home header ((added header).mpr ⟨leg, member, adds⟩)
      obtain ⟨before, after, rfl⟩ := List.append_of_mem member
      rcases List.mem_append.mp among with earlier | later
      · exact absurd again (once before leg after header rfl adds other
          (List.mem_append_left after earlier) header.2)
      · rcases List.mem_cons.mp later with rfl | later
        · exact there
        · exact absurd again (once before leg after header rfl adds other
            (List.mem_append_right before later) header.2)
    · intro stays header member
      obtain ⟨leg, among, adds⟩ := (added header).mp member
      exact ⟨leg, among, adds, stays leg among header adds⟩
  · intro settled header member
    obtain ⟨leg, among, adds⟩ := (added header).mp member
    exact ⟨leg, among, adds, domain_of_settled walk settled among adds⟩
  · exact fun leg member => (passed_of_mem walk member).inquires
  · exact fun sent answer fetching => trace_only (only_fetch r) fetching

/-- The header is added last, where the request has been moved to. -/
theorem headers_home_unless_moved_carried :
    Settled Sample.carried ∧
      ∃ legs, Walk (.ofCoordinate ⟨"git.corp/m", "v1"⟩) legs Sample.carriedRequest ∧
        AtHome legs Sample.carriedRequest ("X", "y") := by
  have settled : Settled Sample.carried := by
    simp [Settled, Sample.carried, Sample.fetching]
  obtain ⟨⟨legs, walk, -, -, -, -, -, home, -⟩, -⟩ :=
    headers_home_unless_moved Sample.trace_carried
  exact ⟨settled, legs, walk, home settled ("X", "y") (by decide)⟩

/-! ## A header that goes along to another host -/

namespace Sample

def token : String × String := ("private-token", "s3cret")

/-- The header is for the host that is asked, and the request is moved after it was added. -/
def signing : List Transform :=
  .headers "git.corp" [token] :: fetching.transforms ++ [.path (some hostTemplates)]

/-- The request is moved by a redirect instead, and nothing is asked. -/
def redirecting : List Transform :=
  [.headers "git.corp" [token], .redirect "git.corp" "h", .path (some hostTemplates)]

def signed : FetchRequest := ⟨"http", "git.corp", ["m"], "v1", "", [token]⟩

def leaked : FetchRequest := ⟨"https", "h", ["m"], "v1", "m/v1.zip", [token]⟩

/-- What the other host is sent. -/
def leak : Http.Request :=
  ⟨"GET", ⟨"https".toList, [], none, some (.domain "h".toList), none,
    .segments ["m".toList, "v1.zip".toList], none, none⟩, [token], ""⟩

theorem discovered_signed :
    Trace signed.discover [⟨lookup, some ⟨200, page.toUTF8⟩⟩] (.ok { leaked with path := "" }) := by
  have place : signed.discoveryUrl = "http://git.corp/m?go-get=1" := by decide +kernel
  have sent : Trace (Http.send "GET" signed.discoveryUrl [] "")
      [⟨lookup, some ⟨200, page.toUTF8⟩⟩] (.ok ⟨200, page.toUTF8⟩) := by
    rw [place, Http.send, read_lookup]
    exact Trace.ask (Trace.done _)
  refine Trace.bind sent ?_
  simp only [place_page]
  exact Trace.done _

theorem ofCoordinate_corp : FetchRequest.ofCoordinate ⟨"git.corp/m", "v1"⟩ =
    ⟨"https", "git.corp", ["m"], "v1", "", []⟩ := by
  decide +kernel

theorem placed_leaked :
    (Transform.path (some hostTemplates)).Passed { leaked with path := "" } [] leaked := by
  have known : (templateFor? (some hostTemplates) "h").isSome = true := by decide +kernel
  have shaped : { leaked with path := pathFor (some hostTemplates) "h" ["m"] "v1" } = leaked := by
    decide +kernel
  rw [← shaped]
  exact .shaped (Or.inr known)

theorem trace_signing :
    Trace (resolve signing ⟨"git.corp/m", "v1"⟩) [⟨lookup, some ⟨200, page.toUTF8⟩⟩]
      (.ok leaked) := by
  have moved : (Transform.discover .automatic []).Passed signed _ { leaked with path := "" } :=
    .moved rfl discovered_signed
  rw [resolve, ofCoordinate_corp]
  exact trace_follow_ok_iff.mpr
    ⟨_, .go (.significant (t := .headers "git.corp" [token]) _ rfl)
      (.go (.significant (t := .transport "git.corp" "http") _ rfl)
        (.go moved (.go placed_leaked (.stay _)))), rfl, rfl⟩

theorem trace_redirecting : Trace (resolve redirecting ⟨"git.corp/m", "v1"⟩) [] (.ok leaked) := by
  rw [resolve, ofCoordinate_corp]
  exact trace_follow_ok_iff.mpr
    ⟨_, .go (.significant (t := .headers "git.corp" [token]) _ rfl)
      (.go (.significant (t := .redirect "git.corp" "h") _ rfl)
        (.go placed_leaked (.stay _))), rfl, rfl⟩

theorem demanded_leaked (answer : Option Http.Response) :
    ∃ outcome, Trace leaked.fetch [⟨leak, answer⟩] outcome := by
  have filled : leaked.path ≠ "" := by decide
  have readable : Url.read leaked.url = .ok leak.url := ok_of_toOption (by decide +kernel)
  have given : Http.checkHeaders [token] = .ok [token] := ok_of_toOption (by decide +kernel)
  have sent : Trace (Http.send "GET" leaked.url leaked.headers "") [⟨leak, answer⟩]
      (answer.elim (.error (.noAnswer (Http.withoutUser leak.url).display)) .ok) := by
    rw [Http.send, readable]
    dsimp only [leaked]
    rw [if_neg (by decide), Http.sendTo, given]
    cases answer <;> exact Trace.ask (Trace.done _)
  rw [FetchRequest.fetch, if_neg filled]
  cases answer with
  | none => exact ⟨_, Trace.bind sent (Trace.done _)⟩
  | some response =>
      by_cases success : Http.isSuccess response.status = true
      · refine ⟨.ok response.body, Trace.bind sent ?_⟩
        dsimp only [Option.elim]
        rw [if_pos success]
        exact Trace.done _
      · refine ⟨.error (.status leaked.url response.status), Trace.bind sent ?_⟩
        dsimp only [Option.elim]
        rw [if_neg success]
        exact Trace.done _

end Sample

/-- Neither a redirect nor a place that a page names makes the request forget the token of the
host where it stood: it ends at a host for which no step has headers, and that host is sent the
token. -/
theorem token_sent_to_another_host :
    ¬ (∀ (steps : List Transform) (c : Coordinate) (asked : List Asked) (r : FetchRequest),
        Trace (resolve steps c) asked (.ok r) → ∀ header ∈ r.headers,
          ∃ entries, .headers r.domain entries ∈ steps ∧ header ∈ entries) ∧
      Trace (resolve Sample.redirecting ⟨"git.corp/m", "v1"⟩) [] (.ok Sample.leaked) ∧
      ∀ answer, ∃ outcome, Trace Sample.leaked.fetch [⟨Sample.leak, answer⟩] outcome := by
  refine ⟨fun home => ?_, Sample.trace_redirecting, Sample.demanded_leaked⟩
  obtain ⟨entries, listed, -⟩ :=
    home Sample.signing _ _ Sample.leaked Sample.trace_signing Sample.token (by decide)
  simp [Sample.signing, Sample.fetching, Sample.leaked] at listed

end ModuleDepot
