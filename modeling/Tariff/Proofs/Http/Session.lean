import Tariff.Http.Service
import Tariff.Proofs.Catalogue.Session

namespace Tariff

def Asset.untimed (a : Asset) : Asset :=
  { a with registeredAt := .epoch }

namespace Catalogue

variable (c : Catalogue)

-- The same catalogue as if everything had been registered at once.
def untimed : Catalogue :=
  { c with entries := c.entries.map fun entry => (entry.1, entry.2.untimed) }

theorem get?_untimed (id : Nat) : c.untimed.get? id = (c.get? id).map Asset.untimed := by
  have hlookup (entries : List (Nat × Asset)) :
      (entries.map fun entry => (entry.1, entry.2.untimed)).lookup id =
        (entries.lookup id).map Asset.untimed := by
    induction entries with
    | nil => rfl
    | cons entry entries ih =>
      rw [List.map_cons, List.lookup_cons, List.lookup_cons, ih]
      cases id == entry.1 <;> rfl
  exact hlookup c.entries

theorem find_untimed (id : Nat) : c.untimed.find id = (c.find id).map Asset.untimed := by
  rw [find, find, get?_untimed]
  cases c.get? id <;> rfl

theorem price_untimed (id index : Nat) (context : Context) :
    c.untimed.price id index context = c.price id index context := by
  rw [price, price, find_untimed]
  cases c.find id <;> rfl

theorem cost_untimed (id : Nat) (context : Context) :
    c.untimed.cost id context = c.cost id context := by
  rw [cost, cost, find_untimed]
  cases c.find id <;> rfl

theorem quote_untimed (id index : Nat) (context : Context) :
    c.untimed.quote id index context = c.quote id index context := by
  rw [quote, quote, find_untimed]
  cases c.find id <;> rfl

-- Assets are sorted by their numbers.
theorem assets_untimed : c.untimed.assets = c.assets.map Asset.untimed := by
  rw [assets, assets, List.map_mergeSort (s := fun a b => decide (a.id ≤ b.id))]
  · rw [untimed, List.map_map, List.map_map]
    rfl
  · intros
    rfl

theorem insert_untimed (id : Nat) (a : Asset) :
    (c.insert id a).untimed = c.untimed.insert id a.untimed := by
  simp [insert, untimed, List.filter_map, Function.comp_def]

theorem untimed_untimed : c.untimed.untimed = c.untimed := by
  simp [untimed, Asset.untimed]

end Catalogue

namespace Json.Value

mutual

-- The value without the times of registrations.
def untimed : Value → Value
  | .list items => .list (untimedItems items)
  | .object members => .object (untimedMembers members)
  | .null => .null
  | .natural n => .natural n
  | .text s => .text s

def untimedItems : List Value → List Value
  | [] => []
  | item :: rest => item.untimed :: untimedItems rest

def untimedMembers : List (String × Value) → List (String × Value)
  | [] => []
  | (key, value) :: rest =>
    (key, if key = "registered_at" then .null else value.untimed) :: untimedMembers rest

end

theorem untimedItems_eq_map (items : List Value) : untimedItems items = items.map untimed := by
  induction items with
  | nil => rfl
  | cons item rest ih => rw [untimedItems, ih, List.map_cons]

end Json.Value

namespace Http

open Json (Value)

def Response.untimed (r : Response) : Response :=
  { r with
    body := match r.body with
      | .json value => .json value.untimed
      | body => body }

namespace Service

theorem untimedMembers_assetMembers (a : Asset) :
    Value.untimedMembers (assetMembers a.untimed) = Value.untimedMembers (assetMembers a) := by
  simp only [assetMembers, Value.untimedMembers, Asset.untimed, if_true]

theorem listAssets_untimed (c : Catalogue) :
    (listAssets c.untimed).untimed = (listAssets c).untimed := by
  simp only [listAssets, Response.untimed, Response.json, Value.untimed,
    Value.untimedItems_eq_map, c.assets_untimed, List.map_map, Function.comp_def,
    untimedMembers_assetMembers]

theorem showAsset_untimed (c : Catalogue) (id : Nat) :
    (showAsset c.untimed id).untimed = (showAsset c id).untimed := by
  rw [showAsset, showAsset, c.find_untimed]
  cases c.find id with
  | error e => rfl
  | ok a =>
    simp only [Except.map, Response.untimed, Response.json, Value.untimed,
      untimedMembers_assetMembers]

theorem showPrice_untimed (c : Catalogue) (id index : Nat) (context : Context) :
    showPrice c.untimed id index context = showPrice c id index context := by
  have hcurrency : (c.untimed.get? id).bind (·.currencies[index]?) =
      (c.get? id).bind (·.currencies[index]?) := by
    rw [c.get?_untimed]
    cases c.get? id <;> rfl
  rw [showPrice, showPrice, c.price_untimed, hcurrency]

theorem showCost_untimed (c : Catalogue) (id : Nat) (context : Context) :
    showCost c.untimed id context = showCost c id context := by
  rw [showCost, showCost, c.cost_untimed]

theorem showQuote_untimed (c : Catalogue) (id index : Nat) (context : Context) :
    showQuote c.untimed id index context = showQuote c id index context := by
  rw [showQuote, showQuote, c.quote_untimed]

theorem answer_untimed (c : Catalogue) (question : Question) :
    (answer c.untimed question).untimed = (answer c question).untimed := by
  cases question with
  | health => rfl
  | list => exact listAssets_untimed c
  | asset id => exact showAsset_untimed c id
  | price id index q => simp only [answer, funext (showPrice_untimed c id index)]
  | cost id q => simp only [answer, funext (showCost_untimed c id)]
  | quote id index q => simp only [answer, funext (showQuote_untimed c id index)]

theorem get_untimed (c : Catalogue) (route : Route) (query : List Char) :
    (get c.untimed route query).untimed = (get c route query).untimed := by
  unfold get
  cases question? route query with
  | none => rfl
  | some question => exact answer_untimed c question

-- What has been registered is found, so the response never lacks the fingerprint.
theorem post_of_register {c next : Catalogue} {now : Timestamp} {r : Request} {o : Offer}
    {a : Asset} (hoffer : offerOf r = .ok o) (hregister : c.register o now = .ok (a, next)) :
    post c now r = (.json 201 (.object
      [("id", .natural a.id), ("script_hash", .text a.fingerprint)]), next) := by
  simp only [post, hoffer, hregister, Catalogue.get?_of_register hregister, Option.map_some,
    Option.getD_some]

-- The response to a registration shows no time, and the time is all that it leaves different.
theorem post_untimed (c : Catalogue) (now other : Timestamp) (r : Request) :
    (post c.untimed other r).1 = (post c now r).1 ∧
      (post c.untimed other r).2.untimed = (post c now r).2.untimed := by
  cases hoffer : offerOf r with
  | error response =>
    simp only [post, hoffer]
    exact ⟨trivial, c.untimed_untimed⟩
  | ok offer =>
    cases hproblem : offer.problem? with
    | some error =>
      simp only [post, hoffer, Catalogue.register_of_problem _ hproblem]
      exact ⟨trivial, c.untimed_untimed⟩
    | none =>
      have hinsert : (c.untimed.insert c.nextId (offer.toAsset c.nextId other)).untimed =
          (c.insert c.nextId (offer.toAsset c.nextId now)).untimed := by
        rw [Catalogue.insert_untimed, Catalogue.insert_untimed, c.untimed_untimed]
        rfl
      rw [post_of_register hoffer (c.register_of_sound hproblem now),
        post_of_register hoffer (c.untimed.register_of_sound hproblem other)]
      exact ⟨rfl, congrArg (fun d : Catalogue => { d with nextId := c.nextId + 1 }) hinsert⟩

theorem withoutBody_untimed {r s : Response} (h : r.untimed = s.untimed) :
    r.withoutBody.untimed = s.withoutBody.untimed := by
  rw [Response.untimed, Response.untimed, Response.mk.injEq] at h
  simp [Response.withoutBody, Response.untimed, h.1, h.2.1]

-- One request leads from catalogues that agree up to times to such catalogues again.
theorem respond_untimed (c : Catalogue) (now other : Timestamp) (r : Request) :
    (respond c.untimed other r).1.untimed = (respond c now r).1.untimed ∧
      (respond c.untimed other r).2.untimed = (respond c now r).2.untimed := by
  simp only [respond]
  by_cases hoptions : r.method = "OPTIONS"
  · simp only [hoptions, if_true]
    exact ⟨trivial, c.untimed_untimed⟩
  simp only [hoptions, if_false]
  cases Route.ofPath r.path with
  | none => exact ⟨rfl, c.untimed_untimed⟩
  | some route =>
    by_cases hget : r.method = "GET"
    · simp only [hget, if_true]
      exact ⟨get_untimed c route r.query, c.untimed_untimed⟩
    simp only [hget, if_false]
    by_cases hhead : r.method = "HEAD"
    · simp only [hhead, if_true]
      exact ⟨withoutBody_untimed (get_untimed c route r.query), c.untimed_untimed⟩
    simp only [hhead, if_false]
    by_cases hpost : r.method = "POST" ∧ route = .assets
    · obtain ⟨hresponse, hafter⟩ := post_untimed c now other r
      rw [if_pos hpost, if_pos hpost]
      exact ⟨congrArg Response.untimed hresponse, hafter⟩
    · rw [if_neg hpost, if_neg hpost]
      exact ⟨rfl, c.untimed_untimed⟩

-- Each request is made at a time of its own; `respondAll` makes all of them at one time.
def session : Catalogue → List (Timestamp × Request) → List Response × Catalogue
  | c, [] => ([], c)
  | c, (now, r) :: rest =>
    let (response, c) := respond c now r
    let (responses, c) := session c rest
    (response :: responses, c)

theorem session_eq_respondAll (now : Timestamp) (c : Catalogue) (requests : List Request) :
    session c (requests.map (now, ·)) = respondAll now c requests := by
  induction requests generalizing c with
  | nil => rfl
  | cons r requests ih => simp only [List.map_cons, session, respondAll, ih]

-- The induction is on the requests: each of them keeps the catalogues the same up to times.
theorem session_untimed {c d : Catalogue} (h : c.untimed = d.untimed)
    {calls others : List (Timestamp × Request)} (hcalls : calls.map (·.2) = others.map (·.2)) :
    (session c calls).1.map Response.untimed = (session d others).1.map Response.untimed := by
  induction calls generalizing c d others with
  | nil =>
    obtain rfl : others = [] := List.map_eq_nil_iff.1 hcalls.symm
    rfl
  | cons call calls ih =>
    obtain ⟨now, r⟩ := call
    obtain ⟨⟨other, q⟩, others, rfl, hr, hrest⟩ := List.map_eq_cons_iff.1 hcalls.symm
    obtain rfl : q = r := hr
    obtain ⟨hc, hcafter⟩ := respond_untimed c now .epoch q
    obtain ⟨hd, hdafter⟩ := respond_untimed d other .epoch q
    rw [h] at hc hcafter
    simp only [session, List.map_cons]
    rw [← hc, ← hd, ih (hcafter.symm.trans hdafter) hrest.symm]

end Service

end Http

end Tariff
