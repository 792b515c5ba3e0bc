import Tariff.Proofs.Command.Load
import Tariff.Proofs.Http.History
import Tariff.Proofs.Json.Room
import Tariff.Proofs.Json.Widening

namespace Tariff

-- The request for an offer that is already there.
def Offer.registration (o : Offer) : Registration :=
  ⟨o.lootBoxId, o.name, o.description, o.recipient, o.currencies, o.tokenUri, some o.program, none⟩

theorem Registration.toOffer_eq_ok_iff {r : Registration} (hsource : r.source = none) {o : Offer} :
    r.toOffer = .ok o ↔ r = o.registration := by
  obtain ⟨lootBoxId, name, description, recipient, currencies, tokenUri, program, source⟩ := r
  obtain rfl : source = none := hsource
  cases program with
  | none => simp [toOffer, theProgram, Offer.registration, Except.map]
  | some p =>
    cases o
    simp [toOffer, theProgram, Offer.registration, Except.map]

namespace Document

open Json (Reader Token Schema IsValue objectTokens listTokens)
open Json.Reader (Takes Exact Shallow)

theorem exact_offerField (f : OfferField) : Exact (offerSchema.read f) := by
  cases f with
  | lootBoxId => exact Reader.exact_natural _
  | name | description | tokenUri => exact Reader.exact_text
  | recipient => exact Reader.exact_parsed _ _
  | currencies => exact exact_currencyTable
  | program => exact exact_program

theorem exact_offer : Exact offer :=
  Schema.exact_readerOf _ exact_offerField

theorem shallow_literal : Shallow literal 0 := by
  intro room other used l hused _ htakes rest
  have h := htakes rest
  generalize used ++ rest = tokens at h ⊢
  unfold literal at h
  split at h
  · exact h
  · exact h
  · split at h <;> cases h

theorem shallow_amounts : Shallow amounts 1 := by
  intro room other used as hused hother htakes
  obtain ⟨ls, hls, has⟩ := amounts_eq_ok.1 (htakes [])
  obtain ⟨-, hlist⟩ := Reader.exact_list exact_literal hused hls
  have hother := Reader.shallow_list shallow_literal exact_literal hused hother hlist
  exact fun rest => amounts_eq_ok.2 ⟨ls, hother rest, has⟩

theorem shallow_currencyTable : Shallow currencyTable 3 := by
  refine Schema.shallow_readerOf _ ?_ exact_currencyTableField
  intro f
  cases f with
  | token =>
    exact (Reader.shallow_list (Reader.shallow_parsed _ _) (Reader.exact_parsed _ _)).mono
      (by decide)
  | tokenId => exact shallow_amounts.mono (by decide)
  | kind => exact Reader.shallow_list (Reader.shallow_choice _) (Reader.exact_choice _)

theorem shallow_program : Shallow program 2 := by
  refine Schema.shallow_readerOf _ ?_ exact_programField
  intro f
  cases f with
  | sources => exact Reader.shallow_list (Reader.shallow_parsed _ _) (Reader.exact_parsed _ _)
  | constants => exact shallow_amounts

theorem shallow_offer : Shallow offer 4 := by
  refine Schema.shallow_readerOf _ ?_ exact_offerField
  intro f
  cases f with
  | lootBoxId => exact (Reader.shallow_natural _).mono (by decide)
  | name | description | tokenUri => exact Reader.shallow_text.mono (by decide)
  | recipient => exact (Reader.shallow_parsed _ _).mono (by decide)
  | currencies => exact shallow_currencyTable
  | program => exact shallow_program.mono (by decide)

-- Apart from `null`, which it would not take itself, an optional value is read like any other.
theorem takes_optional_iff {α : Type} {read : Reader α} {room : Nat} {used : List Token} {x : α}
    (hnull : ¬Takes read room [.null] x) (hused : IsValue used) :
    Takes (Reader.optional read) room used (some x) ↔ Takes read room used x := by
  obtain ⟨t, more, rfl, -⟩ := hused.exists_cons
  by_cases ht : t = .null
  · subst ht
    have hsplit : (.null :: more) ++ [] = [.null] ++ more := by simp
    obtain ⟨-, rfl⟩ := hused.append_inj .null hsplit
    refine ⟨fun htakes => ?_, fun htakes => absurd htakes hnull⟩
    cases htakes []
  · rw [Reader.takes_optional_of_ne_null ht]
    simp

theorem not_takes_program_null {room : Nat} {p : Program} : ¬Takes program room [.null] p := by
  intro htakes
  have h := htakes []
  cases room <;> cases h

def OfferField.inRegistration : OfferField → RegistrationField
  | .lootBoxId => .lootBoxId
  | .name => .name
  | .description => .description
  | .recipient => .recipient
  | .currencies => .currencies
  | .tokenUri => .tokenUri
  | .program => .program

-- The assembly text is all that a registration has more.
theorem OfferField.exists_inRegistration {g : RegistrationField} (hg : g ≠ .source) :
    ∃ f : OfferField, f.inRegistration = g := by
  cases g with
  | lootBoxId => exact ⟨.lootBoxId, rfl⟩
  | name => exact ⟨.name, rfl⟩
  | description => exact ⟨.description, rfl⟩
  | recipient => exact ⟨.recipient, rfl⟩
  | currencies => exact ⟨.currencies, rfl⟩
  | tokenUri => exact ⟨.tokenUri, rfl⟩
  | program => exact ⟨.program, rfl⟩
  | source => exact absurd rfl hg

def offerInRegistration : Schema.Widening offerSchema registrationSchema where
  field := OfferField.inRegistration
  field_injective f g h := by cases f <;> cases g <;> first | rfl | cases h
  key_field f := by cases f <;> rfl
  embed
    | .lootBoxId => fun n => n
    | .name => fun s => s
    | .description => fun s => s
    | .recipient => fun a => a
    | .currencies => fun t => t
    | .tokenUri => fun s => s
    | .program => fun p => some p
  embed_injective f x y h := by
    cases f with
    | program => exact Option.some.inj h
    | _ => exact h
  takes_iff {f _ _ _} hused := by
    cases f with
    | program => exact takes_optional_iff not_takes_program_null hused
    | _ => exact Iff.rfl
  absent_iff {f _} := by
    cases f with
    | program => constructor <;> intro h <;> cases h
    | _ => exact Iff.rfl
  optional_outside g := by
    by_cases hg : g = .source
    · subst hg
      exact .inr ⟨none, rfl⟩
    · exact .inl (OfferField.exists_inRegistration hg)

-- The members of an object, none of which is assembly text.
def Textless (ms : List (Option String × List Token)) : Prop :=
  ∀ m ∈ ms, IsValue m.2 ∧ m.1 ≠ some "source"

section Textless

variable {ms : List (Option String × List Token)}

theorem Textless.isValue (h : Textless ms) : IsValue (objectTokens ms) :=
  .object fun m hm => (h m hm).1

theorem Textless.inside (h : Textless ms) : offerInRegistration.Inside ms := by
  intro m hm key g hkey hg
  apply OfferField.exists_inRegistration
  rintro rfl
  rw [← Schema.key_of_fieldNamed? hg] at hkey
  exact (h m hm).2 hkey

theorem Textless.source_eq_none (h : Textless ms) {room : Nat} {wide : registrationSchema.Members}
    (htakes : Takes registrationSchema.reader room (objectTokens ms) wide) :
    wide .source = (none : Option String) := by
  have houtside : ¬∃ f, offerInRegistration.field f = RegistrationField.source := by
    rintro ⟨f, hf⟩
    cases f <;> cases hf
  have habsent := offerInRegistration.absent_of_takes (fun m hm => (h m hm).1) h.inside
    exact_registrationField htakes houtside
  exact (Option.some.inj habsent).symm

theorem Textless.takes_widened_iff (h : Textless ms) {room : Nat} {all : offerSchema.Members} :
    Takes offerSchema.reader room (objectTokens ms) all ↔
      ∃ wide : registrationSchema.Members,
        Takes registrationSchema.reader room (objectTokens ms) wide ∧
        ∀ f, wide (offerInRegistration.field f) = offerInRegistration.embed f (all f) :=
  offerInRegistration.takes_object_iff (by decide) (by decide) (fun m hm => (h m hm).1) h.inside
    exact_offerField exact_registrationField

theorem Textless.takes_offer_iff (h : Textless ms) {room : Nat} {o : Offer} :
    Takes offer room (objectTokens ms) o ↔
      Takes registration room (objectTokens ms) o.registration := by
  rw [offer, registration,
    Schema.takes_readerOf_iff (Schema.exact_reader exact_offerField) h.isValue,
    Schema.takes_readerOf_iff (Schema.exact_reader exact_registrationField) h.isValue]
  constructor
  · rintro ⟨all, hall, rfl⟩
    obtain ⟨wide, hwide, hsame⟩ := h.takes_widened_iff.1 hall
    have hparts : wide = registrationParts (Offer.registration ⟨all .lootBoxId, all .name,
        all .description, all .recipient, all .currencies, all .tokenUri, all .program⟩) := by
      funext g
      cases g with
      | lootBoxId => exact hsame .lootBoxId
      | name => exact hsame .name
      | description => exact hsame .description
      | recipient => exact hsame .recipient
      | currencies => exact hsame .currencies
      | tokenUri => exact hsame .tokenUri
      | program => exact hsame .program
      | source => exact h.source_eq_none hwide
    exact ⟨wide, hwide, by rw [hparts]; rfl⟩
  · rintro ⟨wide, hwide, heq⟩
    refine ⟨offerParts o, h.takes_widened_iff.2 ⟨wide, hwide, fun f => ?_⟩, rfl⟩
    cases f with
    | lootBoxId => exact congrArg Registration.lootBoxId heq
    | name => exact congrArg Registration.name heq
    | description => exact congrArg Registration.description heq
    | recipient => exact congrArg Registration.recipient heq
    | currencies => exact congrArg Registration.currencies heq
    | tokenUri => exact congrArg Registration.tokenUri heq
    | program => exact congrArg Registration.program heq

theorem Textless.document_offer_iff (h : Textless ms) {text : String}
    (htext : Token.ofText text = objectTokens ms) {o : Offer} :
    Reader.document offer text = .ok o ↔
      ∃ r, Reader.document registration text = .ok r ∧ r.toOffer = .ok o := by
  have hvalue : IsValue (Token.ofText text) := htext ▸ h.isValue
  have hexact : Exact registration := Schema.exact_readerOf _ exact_registrationField
  rw [Reader.document_iff_takes exact_offer hvalue, htext, h.takes_offer_iff]
  constructor
  · intro htakes
    refine ⟨o.registration, ?_, (Registration.toOffer_eq_ok_iff rfl).2 rfl⟩
    rw [Reader.document_iff_takes hexact hvalue, htext]
    exact htakes
  · rintro ⟨r, hr, hoffer⟩
    rw [Reader.document_iff_takes hexact hvalue, htext] at hr
    obtain ⟨wide, hwide, rfl⟩ :=
      (Schema.takes_readerOf_iff (Schema.exact_reader exact_registrationField) h.isValue).1 hr
    rw [Registration.toOffer_eq_ok_iff (h.source_eq_none hwide)] at hoffer
    rwa [hoffer] at hr

-- The object in a file is one level deeper than in a body, and an offer is not that deep.
theorem Textless.document_offers_iff (h : Textless ms) {fileText text : String}
    (hfile : Token.ofText fileText = listTokens [objectTokens ms])
    (htext : Token.ofText text = objectTokens ms) {os : List Offer} :
    Reader.document offers fileText = .ok os ↔
      ∃ o, os = [o] ∧ Reader.document offer text = .ok o := by
  have hlist : IsValue (Token.ofText fileText) :=
    hfile ▸ .list (List.forall_mem_singleton.2 h.isValue)
  have hvalue : IsValue (Token.ofText text) := htext ▸ h.isValue
  have hroom (o : Offer) :
      Takes offer 126 (objectTokens ms) o ↔ Takes offer 127 (objectTokens ms) o :=
    ⟨shallow_offer h.isValue (by decide), shallow_offer h.isValue (by decide)⟩
  have hexact : Exact offers := Reader.exact_list exact_offer
  have hone : ∀ used ∈ [objectTokens ms], IsValue used := List.forall_mem_singleton.2 h.isValue
  rw [Reader.document_iff_takes hexact hlist, hfile, offers, Reader.takes_list_iff exact_offer hone]
  simp only [Reader.document_iff_takes exact_offer hvalue, htext, ← hroom]
  constructor
  · rintro ⟨inner, hinner, hall⟩
    cases hinner
    obtain ⟨o, more, ho, hmore, rfl⟩ := List.forall₂_cons_left_iff.1 hall
    obtain rfl := List.forall₂_nil_left_iff.1 hmore
    exact ⟨o, rfl, ho⟩
  · rintro ⟨o, rfl, ho⟩
    exact ⟨126, rfl, .cons ho .nil⟩

end Textless

end Document

namespace Command

open Json (Reader Token listTokens objectTokens)

theorem registerAll_singleton_iff {now : Timestamp} {o : Offer} {c : Catalogue} :
    registerAll now 0 .empty [o] = .ok c ↔ o.Sound ∧ c = ⟨[(1, o.toAsset 1 now)], 2⟩ := by
  rw [registerAll_eq_ok_iff, List.forall_mem_singleton, Offer.problem?_eq_none_iff]
  apply and_congr_right
  intro hsound
  have hone : Catalogue.Holds ⟨[(1, o.toAsset 1 now)], 2⟩ [⟨o, now⟩] :=
    ⟨List.forall_mem_singleton.2 hsound.problem?_eq_none, rfl, rfl⟩
  constructor
  · intro hholds
    exact hholds.eq hone
  · rintro rfl
    exact hone

-- A file with one object is loaded when the object is an offer with nothing wrong in it.
theorem load_singleton_iff {ms : List (Option String × List Token)} (h : Document.Textless ms)
    {files : Files} {path fileText text : String} (hread : files.readText path = .ok fileText)
    (hfile : Token.ofText fileText = listTokens [objectTokens ms])
    (htext : Token.ofText text = objectTokens ms) {now : Timestamp} {c : Catalogue} :
    load files path now = .ok c ↔
      ∃ o : Offer, Reader.document Document.offer text = .ok o ∧ o.Sound ∧
        c = ⟨[(1, o.toAsset 1 now)], 2⟩ := by
  rw [load_eq hread]
  cases hoffers : Reader.document Document.offers fileText with
  | error e =>
    have hnone (o : Offer) : Reader.document Document.offer text ≠ .ok o := by
      intro ho
      rw [(h.document_offers_iff hfile htext).2 ⟨o, rfl, ho⟩] at hoffers
      cases hoffers
    simp [Except.mapError, Except.bind, hnone]
  | ok os =>
    obtain ⟨o, rfl, ho⟩ := (h.document_offers_iff hfile htext).1 hoffers
    simp [Except.mapError, Except.bind, ho, registerAll_singleton_iff]

end Command

namespace Http.Service

open Json (Reader Value Token objectTokens listTokens)

-- A file with one object leads to the same catalogue as a request with the object in its body.
theorem files_and_requests_offer_alike :
    -- an object without assembly text is the same offer in both forms, or in none
    (∀ text ms, Token.ofText text = objectTokens ms → Document.Textless ms →
      ∀ o, Reader.document Document.offer text = .ok o ↔
        ∃ r, Reader.document Document.registration text = .ok r ∧ r.toOffer = .ok o) ∧
    -- and where nothing is registered yet, a file with the object and a request with it as the body
    -- register the same asset, or both are refused
    ∀ (files : Files) path fileText ms r, files.readText path = .ok fileText →
      Token.ofText fileText = listTokens [objectTokens ms] → Document.Textless ms → Sent r →
      Token.ofText r.body = objectTokens ms → ∀ now other,
        (∃ a b : Asset, a.untimed = b.untimed ∧
          Command.load files path now = .ok ⟨[(1, a)], 2⟩ ∧
          respond .empty other r = (creation 1 b.program, ⟨[(1, b)], 2⟩)) ∨
        (∃ error, Command.load files path now = .error error) ∧
          (respond .empty other r).1.status ≠ 201 ∧ (respond .empty other r).2 = .empty := by
  refine ⟨fun text ms htext h o => h.document_offer_iff htext, ?_⟩
  intro files path fileText ms r hread hfile h hsent hbody now other
  have hload (c : Catalogue) : Command.load files path now = .ok c ↔
      ∃ o : Offer, Reader.document Document.offer r.body = .ok o ∧ o.Sound ∧
        c = ⟨[(1, o.toAsset 1 now)], 2⟩ :=
    Command.load_singleton_iff h hread hfile hbody
  by_cases hoffer : ∃ o : Offer, Reader.document Document.offer r.body = .ok o ∧ o.Sound
  · obtain ⟨o, ho, hsound⟩ := hoffer
    have hregisters : Registers r o := ⟨hsent, (h.document_offer_iff hbody).1 ho, hsound⟩
    obtain ⟨next, hnext, hrespond⟩ := hregisters.exists_respond_eq .empty other
    refine .inl ⟨o.toAsset 1 now, o.toAsset 1 other, rfl, (hload _).2 ⟨o, ho, hsound, rfl⟩, ?_⟩
    rw [hrespond]
    rw [Catalogue.register_of_sound _ hsound.problem?_eq_none] at hnext
    cases hnext
    rfl
  · have hstatus : (respond .empty other r).1.status ≠ 201 := by
      intro hcreated
      obtain ⟨o, hregisters⟩ := (status_respond_iff .empty other r).1 hcreated
      exact hoffer ⟨o, (h.document_offer_iff hbody).2 hregisters.body, hregisters.sound⟩
    refine .inr ⟨?_, hstatus, respond_of_status_ne hstatus⟩
    cases hresult : Command.load files path now with
    | error error => exact ⟨error, rfl⟩
    | ok c =>
      obtain ⟨o, ho, hsound, -⟩ := (hload c).1 hresult
      exact absurd ⟨o, ho, hsound⟩ hoffer

-- The program comes first, and one member means nothing.
def redAxeMembers : List (String × Value) :=
  [("vm_state_config", Document.ofProgram axe.program), ("colour", .list [.text "red", .null]),
    ("name", .text axe.name), ("recipient", Document.ofAddress axe.recipient),
    ("currencies", Document.ofCurrencyTable axe.currencies)]

def redAxeFile : String :=
  (Value.list [.object redAxeMembers]).prettyText

def redAxeRequest : Request :=
  ⟨"POST", "/api/assets", some "application/json", (Value.object redAxeMembers).compactText⟩

theorem files_and_requests_offer_alike_redAxe :
    ∃ files a b, Files.empty.writeText "assets.json" redAxeFile = .ok files ∧ Sent redAxeRequest ∧
      Reader.document Document.offer redAxeRequest.body = .ok axe ∧ a.untimed = b.untimed ∧
      Command.load files "assets.json" .epoch = .ok ⟨[(1, a)], 2⟩ ∧
      respond .empty .epoch redAxeRequest = (creation 1 b.program, ⟨[(1, b)], 2⟩) := by
  obtain ⟨hread, halike⟩ := files_and_requests_offer_alike
  have hbody : Token.ofText redAxeRequest.body =
      objectTokens (Value.tokensOfMembers redAxeMembers) := Value.ofText_compactText _
  have hfile : Token.ofText redAxeFile =
      listTokens [objectTokens (Value.tokensOfMembers redAxeMembers)] := Value.ofText_prettyText _
  have htextless : Document.Textless (Value.tokensOfMembers redAxeMembers) := by
    intro m hm
    refine ⟨Value.isValue_of_mem_tokensOfMembers _ m hm, ?_⟩
    have hkeys : ∀ m ∈ Value.tokensOfMembers redAxeMembers, m.1 ≠ some "source" := by decide
    exact hkeys m hm
  have hsent : Sent redAxeRequest := sent_ofList (by decide +kernel)
  have hregisters : Registers redAxeRequest axe := by
    refine ⟨hsent, ⟨axe.registration, ?_, rfl⟩, Offer.problem?_eq_none_iff.mp rfl⟩
    rw [Reader.document_eq_ok, hbody]
    rfl
  have hwrite : Files.empty.writeText "assets.json" redAxeFile =
      .ok (Files.empty.put (Place.ofPath "assets.json") (Text.Utf8.encode redAxeFile)) := rfl
  obtain ⟨a, b, hsame, hload, hrespond⟩ | ⟨-, hstatus, -⟩ := halike _ _ _ _ redAxeRequest
    (Files.readText_of_writeText hwrite) hfile htextless hsent hbody .epoch .epoch
  · exact ⟨_, a, b, hwrite, hsent, (hread _ _ hbody htextless axe).2 hregisters.body, hsame, hload,
      hrespond⟩
  · exact absurd ((status_respond_iff .empty .epoch redAxeRequest).2 ⟨axe, hregisters⟩) hstatus

end Http.Service

end Tariff
