import Tariff.Document.Asset
import Tariff.Document.Price
import Tariff.Proofs.Document.Basic

namespace Tariff

-- No script has a stray operand.
def Program.Canonical (p : Program) : Prop :=
  ∀ s ∈ p.sources, s.Canonical

-- The number of an offer fits a machine word, and no script has a stray operand.
def Offer.Writable (o : Offer) : Prop :=
  o.lootBoxId < Nat.pow 2 64 ∧ o.program.Canonical

namespace Document

open Json (Reader Value Schema Codec)

def currencyParts (c : Currency) : currencySchema.Members
  | .token => c.token
  | .tokenId => c.tokenId
  | .kind => c.kind

def writeCurrencyField : (f : CurrencyField) → currencySchema.Content f → Value
  | .token => ofAddress
  | .tokenId => ofAmount
  | .kind => ofTokenKind

theorem codec_currency : Codec currency ofCurrency (fun _ => True) 1 := by
  refine .freeRecord currencyParts writeCurrencyField ?_ (by decide) (fun _ => rfl) ?_
  · intro f
    cases f with
    | token => exact codec_address
    | tokenId => exact codec_amount
    | kind => exact codec_tokenKind
  · intro all
    funext f
    cases f <;> rfl

def currencyTableParts (t : CurrencyTable) : currencyTableSchema.Members
  | .token => t.tokens
  | .tokenId => t.tokenIds
  | .kind => t.kinds

def writeCurrencyColumn : (f : CurrencyField) → currencyTableSchema.Content f → Value
  | .token => fun tokens => .list (tokens.map ofAddress)
  | .tokenId => ofAmounts
  | .kind => fun kinds => .list (kinds.map ofTokenKind)

theorem codec_currencyTable : Codec currencyTable ofCurrencyTable (fun _ => True) 2 := by
  refine .freeRecord currencyTableParts writeCurrencyColumn ?_ (by decide) (fun _ => rfl) ?_
  · intro f
    cases f with
    | token => exact codec_address.list.congr_valid (by simp)
    | tokenId => exact codec_amounts
    | kind => exact codec_tokenKind.list.congr_valid (by simp)
  · intro all
    funext f
    cases f <;> rfl

def contextParts (c : Context) : contextSchema.Members
  | .buyer => c.buyer
  | .units => c.units

def writeContextField : (f : ContextField) → contextSchema.Content f → Value
  | .buyer => ofAddress
  | .units => ofAmount

theorem codec_context : Codec context ofContext (fun _ => True) 1 := by
  refine .freeRecord contextParts writeContextField ?_ (by decide) (fun _ => rfl) ?_
  · intro f
    cases f with
    | buyer => exact codec_address
    | units => exact codec_amount
  · intro all
    funext f
    cases f <;> rfl

def pairParts (p : PricePair) : pairSchema.Members
  | .maxUnits => p.maxUnits
  | .price => p.price

theorem codec_pair : Codec pair ofPair (fun _ => True) 1 := by
  refine .freeRecord pairParts (fun _ => ofAmount) (fun _ => codec_amount) (by decide)
    (fun _ => rfl) ?_
  intro all
  funext f
  cases f <;> rfl

def costParts (c : Cost) : costSchema.Members
  | .maxUnits => c.maxUnits
  | .prices => c.prices
  | .pairs => c.pairs

def writeCostField : (f : CostField) → costSchema.Content f → Value
  | .maxUnits => ofAmount
  | .prices => ofAmounts
  | .pairs => fun pairs => .list (pairs.map ofPair)

theorem codec_cost : Codec cost ofCost (fun _ => True) 3 := by
  refine .freeRecord costParts writeCostField ?_ (by decide) (fun _ => rfl) ?_
  · intro f
    cases f with
    | maxUnits => exact codec_amount.mono (by decide)
    | prices => exact codec_amounts.mono (by decide)
    | pairs => exact codec_pair.list.congr_valid (by simp)
  · intro all
    funext f
    cases f <;> rfl

def programParts (p : Program) : programSchema.Members
  | .sources => p.sources
  | .constants => p.constants

def writeProgramField : (f : ProgramField) → programSchema.Content f → Value
  | .sources => fun sources => .list (sources.map ofScript)
  | .constants => ofAmounts

def WritableProgramField : (f : ProgramField) → programSchema.Content f → Prop
  | .sources => fun sources : List Script => ∀ s ∈ sources, s.Canonical
  | .constants => fun _ => True

theorem codec_program : Codec program ofProgram Program.Canonical 2 := by
  refine (Codec.record programParts writeProgramField WritableProgramField ?_ (by decide) ?_
    (fun _ => rfl) ?_).congr_valid ?_
  · intro f
    cases f with
    | sources => exact codec_script.list
    | constants => exact codec_amounts
  · intro f
    cases f <;> exact nofun
  · intro all
    funext f
    cases f <;> rfl
  · intro p
    refine ⟨fun hp f => ?_, fun hp => hp .sources⟩
    cases f with
    | sources => exact hp
    | constants => trivial

def offerParts (o : Offer) : offerSchema.Members
  | .lootBoxId => o.lootBoxId
  | .name => o.name
  | .description => o.description
  | .recipient => o.recipient
  | .currencies => o.currencies
  | .tokenUri => o.tokenUri
  | .program => o.program

def writeOfferField : (f : OfferField) → offerSchema.Content f → Value
  | .lootBoxId => .natural
  | .name => .text
  | .description => .text
  | .recipient => ofAddress
  | .currencies => ofCurrencyTable
  | .tokenUri => .text
  | .program => ofProgram

def WritableOfferField : (f : OfferField) → offerSchema.Content f → Prop
  | .lootBoxId => fun n : Nat => n < Nat.pow 2 64
  | .program => Program.Canonical
  | _ => fun _ => True

theorem codec_offer : Codec offer ofOffer Offer.Writable 3 := by
  refine (Codec.record offerParts writeOfferField WritableOfferField ?_ (by decide) ?_
    (fun _ => rfl) ?_).congr_valid ?_
  · intro f
    cases f with
    | lootBoxId => exact (Codec.natural _).mono (by decide)
    | name | description | tokenUri => exact Codec.text.mono (by decide)
    | recipient => exact codec_address.mono (by decide)
    | currencies => exact codec_currencyTable
    | program => exact codec_program
  · intro f x hx
    cases f with
    | lootBoxId =>
      cases hx
      show 0 < Nat.pow 2 64
      decide
    | program => cases hx
    | _ => trivial
  · intro all
    funext f
    cases f <;> rfl
  · intro o
    refine ⟨fun ho f => ?_, fun ho => ⟨ho .lootBoxId, ho .program⟩⟩
    cases f with
    | lootBoxId => exact ho.1
    | program => exact ho.2
    | _ => trivial

def detailsParts (d : Details) : detailsSchema.Members
  | .lootBoxId => d.lootBoxId
  | .name => d.name
  | .description => d.description
  | .recipient => d.recipient
  | .tokenUri => d.tokenUri

def writeDetailsField : (f : DetailsField) → detailsSchema.Content f → Value
  | .lootBoxId => .natural
  | .name => .text
  | .description => .text
  | .recipient => ofAddress
  | .tokenUri => .text

def WritableDetailsField : (f : DetailsField) → detailsSchema.Content f → Prop
  | .lootBoxId => fun n : Nat => n < Nat.pow 2 64
  | _ => fun _ => True

theorem codec_details : Codec details ofDetails (·.lootBoxId < Nat.pow 2 64) 1 := by
  refine (Codec.record detailsParts writeDetailsField WritableDetailsField ?_ (by decide) ?_
    (fun _ => rfl) ?_).congr_valid ?_
  · intro f
    cases f with
    | lootBoxId => exact Codec.natural _
    | name | description | tokenUri => exact Codec.text
    | recipient => exact codec_address
  · intro f
    cases f <;> exact nofun
  · intro all
    funext f
    cases f <;> rfl
  · intro d
    refine ⟨fun hd f => ?_, fun hd => hd .lootBoxId⟩
    cases f with
    | lootBoxId => exact hd
    | _ => trivial

def quoteParts (q : Quote) : quoteSchema.Members
  | .currencyIndex => q.currencyIndex
  | .units => q.units
  | .maxUnits => q.maxUnits
  | .price => q.price
  | .total => q.total

def writeQuoteField : (f : QuoteField) → quoteSchema.Content f → Value
  | .currencyIndex => .natural
  | .units => ofAmount
  | .maxUnits => ofAmount
  | .price => ofAmount
  | .total => ofAmount

def WritableQuoteField : (f : QuoteField) → quoteSchema.Content f → Prop
  | .currencyIndex => fun n : Nat => n < Nat.pow 2 64
  | _ => fun _ => True

theorem codec_quote : Codec quote ofQuote (·.currencyIndex < Nat.pow 2 64) 1 := by
  refine (Codec.record quoteParts writeQuoteField WritableQuoteField ?_ (by decide) ?_
    (fun _ => rfl) ?_).congr_valid ?_
  · intro f
    cases f with
    | currencyIndex => exact Codec.natural _
    | units | maxUnits | price | total => exact codec_amount
  · intro f
    cases f <;> exact nofun
  · intro all
    funext f
    cases f <;> rfl
  · intro q
    refine ⟨fun hq f => ?_, fun hq => hq .currencyIndex⟩
    cases f with
    | currencyIndex => exact hq
    | _ => trivial

-- Exactly the valid values are read back from what is written for them. What was read from any
-- text is read back and is written the same way again.
def RoundTrips {α : Type} (read : Reader α) (write : α → Value) (valid : α → Prop) : Prop :=
  (∀ x, Reader.document read (write x).compactText = .ok x ↔ valid x) ∧
  ∀ t x, Reader.document read t = .ok x →
    Reader.document read (write x).compactText = .ok x ∧
    (Reader.document read (write x).compactText).map (fun y => (write y).compactText) =
      .ok (write x).compactText

theorem roundTrips_of_codec {α : Type} {read : Reader α} {write : α → Value} {valid : α → Prop}
    {depth : Nat} (h : Codec read write valid depth) (hdepth : depth ≤ 127) :
    RoundTrips read write valid := by
  have hback {x : α} (hx : valid x) : Reader.document read (write x).compactText = .ok x :=
    h.document_of_spelled hdepth (Value.ofText_compactText _) hx
  refine ⟨fun x => ⟨h.valid_of_document, hback⟩, fun t x ht => ?_⟩
  have hx := hback (h.valid_of_document ht)
  exact ⟨hx, by rw [hx]; rfl⟩

-- What was written is read back, and what was read is written in one way.
theorem documents_read_back :
    RoundTrips offer ofOffer Offer.Writable ∧
    RoundTrips program ofProgram Program.Canonical ∧
    RoundTrips context ofContext (fun _ => True) ∧
    RoundTrips currency ofCurrency (fun _ => True) ∧
    RoundTrips currencyTable ofCurrencyTable (fun _ => True) ∧
    RoundTrips details ofDetails (·.lootBoxId < Nat.pow 2 64) ∧
    RoundTrips pair ofPair (fun _ => True) ∧
    RoundTrips cost ofCost (fun _ => True) ∧
    RoundTrips quote ofQuote (·.currencyIndex < Nat.pow 2 64) :=
  ⟨roundTrips_of_codec codec_offer (by decide), roundTrips_of_codec codec_program (by decide),
    roundTrips_of_codec codec_context (by decide), roundTrips_of_codec codec_currency (by decide),
    roundTrips_of_codec codec_currencyTable (by decide),
    roundTrips_of_codec codec_details (by decide), roundTrips_of_codec codec_pair (by decide),
    roundTrips_of_codec codec_cost (by decide), roundTrips_of_codec codec_quote (by decide)⟩

-- The largest numbers, a script with an unknown opcode, columns of different lengths, and strings
-- with every kind of character.
def awkwardOffer : Offer where
  lootBoxId := 18446744073709551615
  name := "\"quoted\" \\ \n\t\x00\x1f\x7f"
  description := "é😀\u2028\ufeff"
  recipient := .zero
  currencies := ⟨[.zero], [⟨Nat.pow 2 256 - 1, by decide⟩, .zero], []⟩
  tokenUri := ""
  program := ⟨[⟨[⟨0xff, 7⟩, ⟨0x10, 0⟩]⟩, ⟨[]⟩], [⟨Nat.pow 2 64, by decide⟩]⟩

theorem documents_read_back_awkwardOffer :
    awkwardOffer.Writable ∧
      Reader.document offer (ofOffer awkwardOffer).compactText = .ok awkwardOffer := by
  have hwritable : awkwardOffer.Writable := by
    refine ⟨by decide, ?_⟩
    simp only [awkwardOffer, Program.Canonical, List.forall_mem_cons, ← Script.ofBytes_toBytes_iff]
    decide
  exact ⟨hwritable, (documents_read_back.1.1 awkwardOffer).2 hwritable⟩

end Document

end Tariff
