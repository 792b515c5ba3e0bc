import Tariff.Proofs.Catalogue.Offers
import Tariff.Proofs.Http.Registration
import Tariff.Proofs.Http.Route
import Tariff.Proofs.Program.Fingerprint

namespace Tariff.Http

namespace Response

@[simp] theorem status_plain (status : Nat) (s : String) : (plain status s).status = status := rfl

@[simp] theorem status_json (status : Nat) (value : Json.Value) :
    (json status value).status = status := rfl

@[simp] theorem status_error (status : Nat) (reason : String) :
    (error status reason).status = status := rfl

@[simp] theorem status_withoutBody (r : Response) : r.withoutBody.status = r.status := rfl

end Response

namespace Service

open Catalogue (Acceptance Holds)
open Json (Value Reader)

-- The response to a registration: the number of the asset and the fingerprint of its program.
def creation (id : Nat) (p : Program) : Response :=
  .json 201 (.object [("id", .natural id), ("script_hash", .text p.fingerprint)])

-- What is shown of an asset, by the offer that it comes from.
def shown (id : Nat) (o : Offer) (now : Timestamp) : Value :=
  .object [("id", .natural id), ("loot_box_id", .natural o.lootBoxId), ("name", .text o.name),
    ("description", .text o.description), ("recipient", Document.ofAddress o.recipient),
    ("token_uri", .text o.tokenUri),
    ("currencies", .list (o.currencies.rows.map Document.ofCurrency)),
    ("source_count", .natural o.program.sources.length),
    ("constant_count", .natural o.program.constants.length),
    ("script_hash", .text o.program.fingerprint), ("registered_at", .text now.offsetText)]

-- A request for the registration of an offer: the body is a document that says what is offered, and
-- nothing is wrong with the offer.
structure Registers (r : Request) (o : Offer) : Prop where
  sent : Sent r
  body : ∃ registration, Reader.document Document.registration r.body = .ok registration ∧
    registration.toOffer = .ok o
  sound : o.Sound

theorem Registers.exists_respond_eq {r : Request} {o : Offer} (h : Registers r o) (c : Catalogue)
    (now : Timestamp) :
    ∃ next, c.register o now = .ok (o.toAsset c.nextId now, next) ∧
      respond c now r = (creation c.nextId o.program, next) := by
  obtain ⟨registration, hdocument, hto⟩ := h.body
  have hoffer : offerOf r = .ok o := by
    rw [h.sent.offerOf_eq hdocument, hto]
    rfl
  have hregister := c.register_of_sound h.sound.problem?_eq_none now
  refine ⟨_, hregister, ?_⟩
  rw [h.sent.respond_eq, post_of_register hoffer hregister]
  rfl

-- A request for one asset, however its number is written.
def AsksFor (r : Request) (id : Nat) : Prop :=
  r.method = "GET" ∧ ∃ text, Route.ofPath r.path = some (.asset text) ∧ readId? text = some id

theorem status_refusal_ne (e : PricingError) : (refusal e).status ≠ 201 := by
  cases e <;> simp [refusal]

theorem status_withContext_ne (q : Query) {answer : Context → Response}
    (h : ∀ context, (answer context).status ≠ 201) : (withContext q answer).status ≠ 201 := by
  unfold withContext
  cases Context.ofTexts q.buyer q.units with
  | error e => cases e <;> simp [contextRefusal]
  | ok context => exact h context

theorem status_showPrice_ne (c : Catalogue) (id index : Nat) (context : Context) :
    (showPrice c id index context).status ≠ 201 := by
  unfold showPrice
  split
  · exact status_refusal_ne _
  split
  · exact status_refusal_ne _
  · simp

theorem status_answer_ne (c : Catalogue) (question : Question) :
    (answer c question).status ≠ 201 := by
  cases question with
  | health => simp [answer]
  | list => simp [answer, listAssets]
  | asset id =>
    simp only [answer, showAsset]
    split
    · simp
    · exact status_refusal_ne _
  | price id index q => exact status_withContext_ne q (status_showPrice_ne c id index)
  | cost id q =>
    apply status_withContext_ne
    intro context
    unfold showCost
    split
    · exact status_refusal_ne _
    · simp
  | quote id index q =>
    apply status_withContext_ne
    intro context
    unfold showQuote
    split
    · exact status_refusal_ne _
    · simp

theorem status_get_ne (c : Catalogue) (route : Route) (query : List Char) :
    (get c route query).status ≠ 201 := by
  unfold get
  split
  · exact status_answer_ne c _
  · simp

theorem readBody_cases {r : Request} (hpost : r.method = "POST")
    (hroute : Route.ofPath r.path = some .assets) :
    (∃ response, readBody r = .error response ∧ response.status ≠ 201) ∨
      Sent r ∧ ∃ registration,
        Reader.document Document.registration r.body = .ok registration := by
  unfold readBody
  split
  · exact .inl ⟨_, rfl, by simp⟩
  rename_i hjson
  split
  · exact .inl ⟨_, rfl, by simp⟩
  rename_i hfits
  cases Reader.document Document.registration r.body with
  | error failure =>
    cases failure with
    | malformed => exact .inl ⟨_, rfl, by simp⟩
    | mismatch m => exact .inl ⟨_, rfl, by simp⟩
  | ok registration =>
    exact .inr ⟨⟨hpost, hroute, by simpa using hjson, Nat.le_of_not_lt hfits⟩, registration, rfl⟩

-- A request is refused at its body, at the program that the body names or at the offer, and always
-- before the catalogue changes.
theorem post_cases {r : Request} (hpost : r.method = "POST")
    (hroute : Route.ofPath r.path = some .assets) (c : Catalogue) (now : Timestamp) :
    (∃ response, post c now r = (response, c) ∧ response.status ≠ 201) ∨ ∃ o, Registers r o := by
  obtain ⟨response, hbody, hstatus⟩ | ⟨hsent, registration, hdocument⟩ :=
    readBody_cases hpost hroute
  · refine .inl ⟨response, ?_, hstatus⟩
    simp only [post, offerOf, hbody]
    rfl
  have hoffer := hsent.offerOf_eq hdocument
  cases hto : registration.toOffer with
  | error e =>
    refine .inl ⟨.error 400 e.message, ?_, by simp⟩
    rw [post, hoffer, hto]
    rfl
  | ok o =>
    cases hproblem : o.problem? with
    | some error =>
      refine .inl ⟨refusal error, ?_, status_refusal_ne error⟩
      rw [hto] at hoffer
      simp only [post, hoffer, Except.mapError, c.register_of_problem hproblem]
    | none =>
      exact .inr ⟨o, hsent, ⟨registration, hdocument, hto⟩, Offer.problem?_eq_none_iff.mp hproblem⟩

-- Everything a request can do: it changes nothing and is not answered with 201, or it registers an
-- offer.
theorem respond_cases (c : Catalogue) (now : Timestamp) (r : Request) :
    (∃ response, respond c now r = (response, c) ∧ response.status ≠ 201) ∨
      ∃ o, Registers r o := by
  simp only [respond]
  by_cases hoptions : r.method = "OPTIONS"
  · exact .inl ⟨_, if_pos hoptions, by simp [preflight]⟩
  rw [if_neg hoptions]
  cases hroute : Route.ofPath r.path with
  | none =>
    refine .inl ⟨_, rfl, ?_⟩
    split <;> simp [notFound]
  | some route =>
    simp only
    have hstatus := status_get_ne c route r.query
    by_cases hget : r.method = "GET"
    · exact .inl ⟨_, if_pos hget, hstatus⟩
    rw [if_neg hget]
    by_cases hhead : r.method = "HEAD"
    · exact .inl ⟨_, if_pos hhead, hstatus⟩
    rw [if_neg hhead]
    by_cases hpost : r.method = "POST" ∧ route = .assets
    case neg => exact .inl ⟨_, if_neg hpost, by simp [notAllowed]⟩
    rw [if_pos hpost]
    obtain ⟨hmethod, rfl⟩ := hpost
    exact post_cases hmethod hroute c now

theorem respond_of_get {r : Request} (hget : r.method = "GET") {route : Route}
    (hroute : Route.ofPath r.path = some route) (c : Catalogue) (now : Timestamp) :
    respond c now r = (get c route r.query, c) := by
  simp [respond, hget, hroute]

-- The calls that were answered with a registration, each with its response.
def created (c : Catalogue) (calls : List (Timestamp × Request)) :
    List ((Timestamp × Request) × Response) :=
  (calls.zip (session c calls).1).filter (·.2.status == 201)

theorem created_cons_of_ne {c : Catalogue} {now : Timestamp} {r : Request} {response : Response}
    (h : respond c now r = (response, c)) (hstatus : response.status ≠ 201)
    (calls : List (Timestamp × Request)) :
    created c ((now, r) :: calls) = created c calls := by
  simp [created, session, h, hstatus]

theorem created_cons_of_creation {c next : Catalogue} {now : Timestamp} {r : Request} {id : Nat}
    {p : Program} (h : respond c now r = (creation id p, next))
    (calls : List (Timestamp × Request)) :
    created c ((now, r) :: calls) = ((now, r), creation id p) :: created next calls := by
  simp [created, session, h, creation]

-- The response that registers an acceptance under a number.
structure Reports (id : Nat) (call : Timestamp × Request) (response : Response) (a : Acceptance) :
    Prop where
  now_eq : call.1 = a.now
  registers : Registers call.2 a.offer
  response_eq : response = creation id a.offer.program

-- The induction is on the calls that are left: the catalogue holds what it held before them and
-- then what the created responses among them report, in their order.
theorem holds_session {c : Catalogue} {past : List Acceptance} (h : Holds c past)
    (calls : List (Timestamp × Request)) :
    ∃ later, Holds (session c calls).2 (past ++ later) ∧
      later.length = (created c calls).length ∧
      ∀ k call response a, (created c calls)[k]? = some (call, response) → later[k]? = some a →
        Reports (past.length + k + 1) call response a := by
  induction calls generalizing c past with
  | nil => exact ⟨[], by simpa [session] using h, rfl, by simp⟩
  | cons call calls ih =>
    obtain ⟨now, r⟩ := call
    obtain ⟨response, heq, hstatus⟩ | ⟨o, hregisters⟩ := respond_cases c now r
    · obtain ⟨later, hholds, hlen, hreports⟩ := ih h
      rw [created_cons_of_ne heq hstatus]
      refine ⟨later, ?_, hlen, hreports⟩
      simp only [session, heq]
      exact hholds
    · obtain ⟨next, hregister, heq⟩ := hregisters.exists_respond_eq c now
      obtain ⟨hid, hnext⟩ := Catalogue.register_eq_ok h hregister
      obtain ⟨later, hholds, hlen, hreports⟩ := ih hnext
      rw [created_cons_of_creation heq]
      refine ⟨⟨o, now⟩ :: later, ?_, ?_, ?_⟩
      · simp only [session, heq]
        rwa [List.append_assoc] at hholds
      · rw [List.length_cons, List.length_cons, hlen]
      · intro k call response a hcall ha
        cases k with
        | zero =>
          cases hcall
          cases ha
          exact ⟨rfl, hregisters, by rw [← hid]; rfl⟩
        | succ k =>
          have hreport := hreports k call response a hcall ha
          rw [List.length_append, List.length_singleton] at hreport
          have hindex : past.length + (k + 1) + 1 = past.length + 1 + k + 1 := by omega
          rw [hindex]
          exact hreport

theorem AsksFor.respond_eq {r : Request} {id : Nat} (h : AsksFor r id) (c : Catalogue)
    (now : Timestamp) : respond c now r = (showAsset c id, c) := by
  obtain ⟨hget, text, hroute, hid⟩ := h
  rw [respond_of_get hget hroute]
  simp only [get, question?, hid, Option.map_some, answer]

theorem status_respond_iff (c : Catalogue) (now : Timestamp) (r : Request) :
    (respond c now r).1.status = 201 ↔ ∃ o, Registers r o := by
  constructor
  · intro hstatus
    obtain ⟨response, heq, hne⟩ | hregisters := respond_cases c now r
    · rw [heq] at hstatus
      exact absurd hstatus hne
    · exact hregisters
  · rintro ⟨o, hregisters⟩
    obtain ⟨next, -, heq⟩ := hregisters.exists_respond_eq c now
    rw [heq]
    rfl

theorem respond_of_status_ne {c : Catalogue} {now : Timestamp} {r : Request}
    (h : (respond c now r).1.status ≠ 201) : (respond c now r).2 = c := by
  obtain ⟨response, heq, -⟩ | hregisters := respond_cases c now r
  · rw [heq]
  · exact absurd ((status_respond_iff c now r).mpr hregisters) h

def axe : Offer :=
  ⟨0, "axe", "", .zero, ⟨[.zero], [.one], [.erc20]⟩, "", ⟨[⟨[.of .constant 0]⟩], [.one]⟩⟩

end Service

end Tariff.Http
