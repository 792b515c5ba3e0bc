import Tariff.Command.Basic
import Tariff.Proofs.Catalogue.Offers
import Tariff.Proofs.Command.Files
import Tariff.Proofs.Document.RoundTrip

namespace Tariff

theorem Offer.exists_accept_eq_ok_iff {o : Offer} {id : Nat} {now : Timestamp} :
    (∃ a, o.accept id now = .ok a) ↔ o.problem? = none := by
  simp only [accept_eq_ok, exists_and_left, exists_eq', and_true]

namespace Catalogue

-- A catalogue is nothing but the offers that it holds.
theorem Holds.eq {c other : Catalogue} {past : List Acceptance} (h : Holds c past)
    (hother : Holds other past) : c = other := by
  obtain ⟨entries, nextId⟩ := c
  obtain ⟨otherEntries, otherNextId⟩ := other
  obtain rfl : entries = otherEntries := h.entries_eq.trans hother.entries_eq.symm
  obtain rfl : nextId = otherNextId := h.nextId_eq.trans hother.nextId_eq.symm
  rfl

end Catalogue

namespace Command

open Catalogue (Holds Acceptance)

section Register

variable {c : Catalogue} {past : List Acceptance} {now : Timestamp} {position : Nat}
  {os : List Offer}

-- One offer with nothing wrong in it is put behind those that are held, and the rest is registered
-- from there.
theorem registerAll_cons_of_sound (h : Holds c past) {o : Offer} (hsound : o.problem? = none) :
    ∃ next, Holds next (past ++ [⟨o, now⟩]) ∧
      ∀ rest, registerAll now position c (o :: rest) =
        registerAll now (position + 1) next rest := by
  obtain ⟨asset, next, hregister⟩ := Catalogue.exists_register_eq_ok_iff.mpr hsound
  refine ⟨next, (Catalogue.register_eq_ok h hregister).2, fun rest => ?_⟩
  rw [registerAll, hregister]

-- The induction is on the offers with nothing wrong in them. It carries what is held so far, and
-- the position, which counts the offers that are behind.
theorem registerAll_append_of_sound (h : Holds c past) (hsound : ∀ o ∈ os, o.problem? = none) :
    ∃ next, Holds next (past ++ os.map (⟨·, now⟩)) ∧
      ∀ rest, registerAll now position c (os ++ rest) =
        registerAll now (position + os.length) next rest := by
  induction os generalizing c past position with
  | nil => exact ⟨c, by simpa using h, fun _ => rfl⟩
  | cons o os ih =>
    obtain ⟨ho, hos⟩ := List.forall_mem_cons.1 hsound
    obtain ⟨next, hnext, hfirst⟩ := registerAll_cons_of_sound h ho
    obtain ⟨last, hlast, hrest⟩ := ih hnext hos
    refine ⟨last, by simpa using hlast, fun rest => ?_⟩
    rw [List.cons_append, hfirst, hrest, List.length_cons, Nat.add_right_comm, Nat.add_assoc]

-- The offer at a position has a problem, and none before it has one.
structure FirstRefused (os : List Offer) (position : Nat) (o : Offer) (error : PricingError) :
    Prop where
  offered : os[position]? = some o
  problem : o.problem? = some error
  sound_before : ∀ i < position, ∀ p, os[i]? = some p → p.problem? = none

theorem FirstRefused.registerAll_eq {i : Nat} {o : Offer} {error : PricingError}
    (hrefused : FirstRefused os i o error) (h : Holds c past) :
    registerAll now position c os =
      .error (.other (s!"Asset #{position + i} ({o.name}) rejected: " ++ error.message)) := by
  obtain ⟨hlt, hget⟩ := List.getElem?_eq_some_iff.1 hrefused.offered
  have hbefore : ∀ p ∈ os.take i, p.problem? = none := by
    intro p hp
    obtain ⟨j, hj, rfl⟩ := List.mem_take_iff_getElem.1 hp
    exact hrefused.sound_before j (by omega) _ (List.getElem?_eq_getElem _)
  have hsplit : os = os.take i ++ o :: os.drop (i + 1) := by
    rw [← hget, List.getElem_cons_drop, List.take_append_drop]
  have hlength : (os.take i).length = i := List.length_take_of_le (Nat.le_of_lt hlt)
  obtain ⟨next, -, hrest⟩ := registerAll_append_of_sound h hbefore
  rw [hsplit, hrest, hlength, registerAll, next.register_of_problem hrefused.problem]

-- The least position with a problem is the one that is searched for from the front.
theorem sound_or_firstRefused (os : List Offer) :
    (∀ o ∈ os, o.problem? = none) ∨ ∃ position o error, FirstRefused os position o error := by
  cases hfind : os.findIdx? (·.problem?.isSome) with
  | none =>
    left
    simpa using List.findIdx?_eq_none_iff.1 hfind
  | some position =>
    right
    obtain ⟨hlt, hsome, hbefore⟩ := List.findIdx?_eq_some_iff_getElem.1 hfind
    obtain ⟨error, hproblem⟩ := Option.isSome_iff_exists.1 hsome
    refine ⟨position, os[position], error, List.getElem?_eq_getElem hlt, hproblem, ?_⟩
    intro i hi p hp
    obtain ⟨hlen, rfl⟩ := List.getElem?_eq_some_iff.1 hp
    simpa using hbefore i hi

end Register

section Whole

variable {now : Timestamp} {os : List Offer}

theorem registerAll_of_sound (hsound : ∀ o ∈ os, o.problem? = none) :
    ∃ c, registerAll now 0 .empty os = .ok c ∧ Holds c (os.map (⟨·, now⟩)) := by
  obtain ⟨c, hc, hrest⟩ := registerAll_append_of_sound Catalogue.holds_empty hsound
  refine ⟨c, ?_, hc⟩
  simpa [registerAll] using hrest []

theorem registerAll_eq_ok_iff {c : Catalogue} :
    registerAll now 0 .empty os = .ok c ↔
      (∀ o ∈ os, o.problem? = none) ∧ Holds c (os.map (⟨·, now⟩)) := by
  constructor
  · intro hall
    obtain hsound | ⟨i, o, error, hrefused⟩ := sound_or_firstRefused os
    · obtain ⟨found, hfound, hholds⟩ := registerAll_of_sound hsound
      cases hfound.symm.trans hall
      exact ⟨hsound, hholds⟩
    · cases hall.symm.trans (hrefused.registerAll_eq Catalogue.holds_empty)
  · rintro ⟨hsound, hholds⟩
    obtain ⟨found, hfound, hother⟩ := registerAll_of_sound hsound
    rw [hfound, hother.eq hholds]

theorem registerAll_eq_error_iff {e : Error} :
    registerAll now 0 .empty os = .error e ↔
      ∃ i o error, FirstRefused os i o error ∧
        e = .other (s!"Asset #{i} ({o.name}) rejected: " ++ error.message) := by
  constructor
  · intro hall
    obtain hsound | ⟨i, o, error, hrefused⟩ := sound_or_firstRefused os
    · obtain ⟨found, hfound, -⟩ := registerAll_of_sound hsound
      cases hfound.symm.trans hall
    · rw [hrefused.registerAll_eq Catalogue.holds_empty, Nat.zero_add] at hall
      exact ⟨i, o, error, hrefused, (Except.error.inj hall).symm⟩
  · rintro ⟨i, o, error, hrefused, rfl⟩
    rw [hrefused.registerAll_eq Catalogue.holds_empty, Nat.zero_add]

end Whole

theorem load_eq {files : Files} {path text : String} (hread : files.readText path = .ok text)
    (now : Timestamp) :
    load files path now =
      ((Json.Reader.document Document.offers text).mapError .document).bind
        (registerAll now 0 .empty) := by
  rw [load, loadOffers, hread]
  rfl

theorem load_of_offers {files : Files} {path text : String} {os : List Offer}
    (hread : files.readText path = .ok text)
    (hoffers : Json.Reader.document Document.offers text = .ok os) (now : Timestamp) :
    load files path now = registerAll now 0 .empty os := by
  rw [load_eq hread, hoffers]
  rfl

-- What is held once all offers of a file are registered.
section Held

variable {c : Catalogue} {now : Timestamp} {os : List Offer}

theorem size_of_holds (h : Holds c (os.map (⟨·, now⟩))) :
    c.size = os.length ∧ c.nextId = os.length + 1 := by
  refine ⟨h.size_eq.trans ?_, h.nextId_eq.trans ?_⟩ <;> rw [List.length_map]

theorem accept_of_holds (h : Holds c (os.map (⟨·, now⟩))) {i : Nat} {o : Offer}
    (ho : os[i]? = some o) :
    o.accept (i + 1) now = .ok (o.toAsset (i + 1) now) ∧
      c.get? (i + 1) = some (o.toAsset (i + 1) now) := by
  have hsound : o.problem? = none :=
    h.sound ⟨o, now⟩ (List.mem_map_of_mem (List.mem_of_getElem? ho))
  refine ⟨Offer.accept_eq_ok.2 ⟨hsound, rfl⟩, ?_⟩
  rw [h.get?_succ, List.getElem?_map, ho]
  rfl

theorem assets_of_holds (h : Holds c (os.map (⟨·, now⟩))) :
    c.assets.map .ok = os.mapIdx fun i o => o.accept (i + 1) now := by
  rw [h.assets_eq]
  apply List.ext_getElem
  · simp only [List.length_map, List.length_mapIdx]
  · intro i _ hi
    rw [List.length_mapIdx] at hi
    simp only [List.getElem_map, List.getElem_mapIdx]
    exact (accept_of_holds h (List.getElem?_eq_getElem hi)).1.symm

theorem get?_of_holds (h : Holds c (os.map (⟨·, now⟩))) {id : Nat}
    (hid : ¬(1 ≤ id ∧ id ≤ os.length)) : c.get? id = none := by
  apply h.get?_eq_none
  rwa [List.length_map]

end Held

-- On its own, an offer is checked under any number and at any time.
theorem files_are_loaded_whole_or_not_at_all {files : Files} {path text : String}
    {os : List Offer} (hread : files.readText path = .ok text)
    (hoffers : Json.Reader.document Document.offers text = .ok os) (now other : Timestamp)
    (number : Nat) :
    -- there is a catalogue just when every offer is accepted on its own
    ((∃ c, load files path now = .ok c) ↔ ∀ o ∈ os, ∃ a, o.accept number other = .ok a) ∧
    -- it holds the assets of the offers, numbered from one in the order of the file, and no others
    (∀ c, load files path now = .ok c →
      c.size = os.length ∧ c.nextId = os.length + 1 ∧
      c.assets.map .ok = os.mapIdx (fun i o => o.accept (i + 1) now) ∧
      (∀ i o, os[i]? = some o → ∃ a, o.accept (i + 1) now = .ok a ∧ c.get? (i + 1) = some a) ∧
      ∀ id, ¬(1 ≤ id ∧ id ≤ os.length) → c.get? id = none) ∧
    -- where there is none, the first offer that is refused on its own is reported
    ∀ e, load files path now = .error e ↔
      ∃ (i : Nat) (o : Offer) (error : PricingError),
        os[i]? = some o ∧ o.accept number other = .error error ∧
        (∀ j < i, ∀ p, os[j]? = some p → ∃ a, p.accept number other = .ok a) ∧
        e = .other (s!"Asset #{i} ({o.name}) rejected: " ++ error.message) := by
  simp only [load_of_offers hread hoffers, Offer.exists_accept_eq_ok_iff, Offer.accept_eq_error]
  refine ⟨?_, ?_, ?_⟩
  · constructor
    · rintro ⟨c, hc⟩
      exact (registerAll_eq_ok_iff.1 hc).1
    · intro hsound
      obtain ⟨c, hc, -⟩ := registerAll_of_sound hsound
      exact ⟨c, hc⟩
  · intro c hc
    obtain ⟨-, hholds⟩ := registerAll_eq_ok_iff.1 hc
    obtain ⟨hsize, hnext⟩ := size_of_holds hholds
    refine ⟨hsize, hnext, assets_of_holds hholds, ?_, fun _ => get?_of_holds hholds⟩
    intro i o ho
    exact ⟨_, accept_of_holds hholds ho⟩
  · intro e
    rw [registerAll_eq_error_iff]
    constructor
    · rintro ⟨i, o, error, ⟨hoffered, hproblem, hbefore⟩, rfl⟩
      exact ⟨i, o, error, hoffered, hproblem, hbefore, rfl⟩
    · rintro ⟨i, o, error, hoffered, hproblem, hbefore, rfl⟩
      exact ⟨i, o, error, ⟨hoffered, hproblem, hbefore⟩, rfl⟩

-- The second offer has no currency, and the columns of the third do not fit together.
def brokenShelf : List Offer :=
  [.twoCurrencies, { Offer.twoCurrencies with name := "bare", currencies := .empty },
    { Offer.twoCurrencies with name := "lopsided", currencies := ⟨[.zero], [], []⟩ }]

def soundShelf : List Offer :=
  [.twoCurrencies, { Offer.twoCurrencies with name := "again" }]

def offersText (os : List Offer) : String :=
  (Json.Value.list (os.map Document.ofOffer)).prettyText

theorem files_are_loaded_whole_or_not_at_all_brokenShelf :
    (∃ files, Files.empty.writeText "assets.json" (offersText brokenShelf) = .ok files ∧
      load files "assets.json" .epoch =
        .error (.other "Asset #1 (bare) rejected: Empty currency list")) ∧
    ∃ files c, Files.empty.writeText "assets.json" (offersText soundShelf) = .ok files ∧
      load files "assets.json" .epoch = .ok c ∧ c.size = 2 ∧
      (c.get? 2).map (·.details.name) = some "again" ∧ c.get? 3 = none := by
  have hwritable {o : Offer} (hid : o.lootBoxId = 0)
      (hprogram : o.program = Offer.twoCurrencies.program) : o.Writable := by
    rw [Offer.Writable, hid, hprogram]
    refine ⟨by decide, ?_⟩
    simp only [Offer.twoCurrencies, Program.Canonical, List.forall_mem_singleton,
      ← Script.ofBytes_toBytes_iff]
    decide
  have hoffers {os : List Offer} (hos : ∀ o ∈ os, o.Writable) :
      Json.Reader.document Document.offers (offersText os) = .ok os :=
    Document.codec_offer.list.document_of_spelled (by decide) (Json.Value.ofText_prettyText _) hos
  have hwrite (text : String) : Files.empty.writeText "assets.json" text =
      .ok (Files.empty.put (Place.ofPath "assets.json") (Text.Utf8.encode text)) := rfl
  constructor
  · have hshelf : ∀ o ∈ brokenShelf, o.Writable := by
      simp only [brokenShelf, List.forall_mem_cons]
      exact ⟨hwritable rfl rfl, hwritable rfl rfl, hwritable rfl rfl, List.forall_mem_nil _⟩
    obtain ⟨-, -, hfails⟩ := files_are_loaded_whole_or_not_at_all
      (Files.readText_of_writeText (hwrite _)) (hoffers hshelf) .epoch .epoch 0
    refine ⟨_, hwrite _, (hfails _).2 ⟨1, _, .noCurrencies, rfl, rfl, ?_, rfl⟩⟩
    intro j hj p hp
    obtain rfl : j = 0 := by omega
    cases hp
    exact ⟨_, rfl⟩
  · have hshelf : ∀ o ∈ soundShelf, o.Writable := by
      simp only [soundShelf, List.forall_mem_cons]
      exact ⟨hwritable rfl rfl, hwritable rfl rfl, List.forall_mem_nil _⟩
    obtain ⟨hloads, hheld, -⟩ := files_are_loaded_whole_or_not_at_all
      (Files.readText_of_writeText (hwrite _)) (hoffers hshelf) .epoch .epoch 0
    have haccepted : ∀ o ∈ soundShelf, ∃ a, o.accept 0 .epoch = .ok a := by
      simp only [soundShelf, List.forall_mem_cons]
      exact ⟨⟨_, rfl⟩, ⟨_, rfl⟩, List.forall_mem_nil _⟩
    obtain ⟨c, hc⟩ := hloads.2 haccepted
    obtain ⟨hsize, -, -, hentry, hother⟩ := hheld c hc
    obtain ⟨a, ha, hget⟩ := hentry 1 _ rfl
    cases ha
    exact ⟨_, c, hwrite _, hc, hsize, by rw [hget]; rfl, hother 3 (by decide)⟩

end Command

end Tariff
