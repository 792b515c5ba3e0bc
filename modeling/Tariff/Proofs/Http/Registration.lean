import Tariff.Proofs.Command.Compile
import Tariff.Proofs.Http.Session

namespace Tariff

-- The same registration with a program in the place of its text.
def Registration.withProgram (r : Registration) (p : Program) : Registration :=
  { r with program := some p, source := none }

namespace Document

open Json (Reader Value Token IsValue objectTokens)
open Json.Reader (Takes Exact)

def registrationParts (r : Registration) : registrationSchema.Members
  | .lootBoxId => r.lootBoxId
  | .name => r.name
  | .description => r.description
  | .recipient => r.recipient
  | .currencies => r.currencies
  | .tokenUri => r.tokenUri
  | .program => r.program
  | .source => r.source

theorem exact_currencyTableField (f : CurrencyField) : Exact (currencyTableSchema.read f) := by
  cases f with
  | token => exact Reader.exact_list (Reader.exact_parsed _ _)
  | tokenId => exact exact_amounts
  | kind => exact Reader.exact_list (Reader.exact_choice _)

theorem exact_currencyTable : Exact currencyTable :=
  Json.Schema.exact_readerOf _ exact_currencyTableField

theorem exact_programField (f : ProgramField) : Exact (programSchema.read f) := by
  cases f with
  | sources => exact Reader.exact_list (Reader.exact_parsed _ _)
  | constants => exact exact_amounts

theorem exact_program : Exact program :=
  Json.Schema.exact_readerOf _ exact_programField

theorem exact_registrationField (f : RegistrationField) : Exact (registrationSchema.read f) := by
  cases f with
  | lootBoxId => exact Reader.exact_natural _
  | name | description | tokenUri => exact Reader.exact_text
  | recipient => exact Reader.exact_parsed _ _
  | currencies => exact exact_currencyTable
  | program => exact Reader.exact_optional exact_program
  | source => exact Reader.exact_optional Reader.exact_text

-- The document of a program is no `null`.
theorem takes_optional_program {p : Program} (h : p.Canonical) {room : Nat} (hroom : 2 ≤ room) :
    Takes (Reader.optional program) room (ofProgram p).tokens (some p) := by
  intro rest
  have htakes := codec_program.takes h hroom rest
  have htokens : (ofProgram p).tokens ++ rest =
      .openObject :: ((ofProgram p).tokens.tail ++ rest) := rfl
  rw [htokens] at htakes ⊢
  rw [Reader.optional_of_ne_null (by simp), htakes]
  rfl

-- What is read from a body with a text in it, and what from the same body with a program.
theorem registration_exchange {before after : List (Option String × List Token)}
    (hothers : ∀ m ∈ before ++ after,
      IsValue m.2 ∧ m.1 ≠ some "source" ∧ m.1 ≠ some "vm_state_config")
    {text body other : String} {p : Program} (hp : p.Canonical)
    (hbody : Token.ofText body =
      objectTokens (before ++ (some "source", (Value.text text).tokens) :: after))
    (hother : Token.ofText other =
      objectTokens (before ++ (some "vm_state_config", (ofProgram p).tokens) :: after))
    {r : Registration} (hr : Reader.document registration body = .ok r) :
    r.program = none ∧ r.source = some text ∧
      Reader.document registration other = .ok (r.withProgram p) := by
  have htakes : Takes (registrationSchema.read .program) 126 (ofProgram p).tokens (some p) :=
    takes_optional_program hp (by decide)
  have hnone : (registrationSchema.absent .source).ofObject? = some (none : Option String) := rfl
  have hne : RegistrationField.source ≠ .program := nofun
  rw [Reader.document_eq_ok, hbody] at hr
  obtain ⟨all, hall, rfl⟩ := Json.Schema.readerOf_eq_ok.1 hr
  obtain ⟨hsource, hprogram, found, hfound, hfoundSource, hfoundProgram, hsame⟩ :=
    Json.Schema.reader_exchange exact_registrationField (by decide) hne hothers (.text _)
      (Value.isValue_tokens _) htakes hnone hall
  refine ⟨(Option.some.inj hprogram).symm, (Prod.mk.inj (Except.ok.inj (hsource []))).1.symm, ?_⟩
  apply Reader.document_of_takes
  rw [hother]
  have hparts : found = registrationParts (Registration.withProgram ⟨all .lootBoxId, all .name,
      all .description, all .recipient, all .currencies, all .tokenUri, all .program,
      all .source⟩ p) := by
    funext f
    cases f with
    | program => exact hfoundProgram
    | source => exact hfoundSource
    | _ => exact hsame _ nofun nofun
  rw [hparts] at hfound
  exact Json.Schema.takes_readerOf _ hfound

end Document

namespace Registration

theorem toOffer_withProgram {r : Registration} {text : String} {p : Program}
    (hprogram : r.program = none) (hsource : r.source = some text)
    (hp : Assembly.assemble text = .ok p) : (r.withProgram p).toOffer = r.toOffer := by
  simp only [toOffer, withProgram, hprogram, hsource, theProgram, hp]
  rfl

-- Nothing says what the program is, or two things do, or what does is no assembly text.
def Unusable (r : Registration) : Prop :=
  (∃ text error, r.source = some text ∧ Assembly.assemble text = .error error) ∨
    (r.program.isSome ∧ r.source.isSome) ∨ (r.program = none ∧ r.source = none)

theorem exists_toOffer_eq_error {r : Registration} (h : r.Unusable) :
    ∃ error, r.toOffer = .error error := by
  unfold toOffer
  obtain ⟨text, error, hsource, hassemble⟩ | ⟨hprogram, hsource⟩ | ⟨hprogram, hsource⟩ := h
  · cases hprogram : r.program with
    | none => exact ⟨.assembly error, by rw [hsource, theProgram, hassemble]; rfl⟩
    | some p => exact ⟨.both, by rw [hsource]; rfl⟩
  · obtain ⟨p, hp⟩ := Option.isSome_iff_exists.1 hprogram
    obtain ⟨text, htext⟩ := Option.isSome_iff_exists.1 hsource
    exact ⟨.both, by rw [hp, htext]; rfl⟩
  · exact ⟨.neither, by rw [hprogram, hsource]; rfl⟩

end Registration

namespace Http.Service

open Json (Reader Value Token IsValue objectTokens)

-- A request for a registration whose body is looked at: it is sent as JSON and is not too long.
structure Sent (r : Request) : Prop where
  isPost : r.method = "POST"
  toAssets : Route.ofPath r.path = some .assets
  isJson : r.contentType.any MediaType.isJson = true
  fits : r.body.utf8ByteSize ≤ bodyLimit

theorem sent_ofList {cs : List Char} (h : (cs.flatMap String.utf8EncodeChar).length ≤ bodyLimit) :
    Sent ⟨"POST", "/api/assets", some "application/json", String.ofList cs⟩ := by
  have hroute : Route.ofPath (Request.path ⟨"POST", "/api/assets", none, ""⟩) = some .assets := by
    decide
  have hjson : (some "application/json").any MediaType.isJson = true := by decide
  refine ⟨rfl, ?_, hjson, ?_⟩
  · simp only [Request.path, Request.visible] at hroute ⊢
    exact hroute
  · rw [Text.Utf8.utf8ByteSize_ofList]
    exact h

theorem Sent.respond_eq {r : Request} (h : Sent r) (c : Catalogue) (now : Timestamp) :
    respond c now r = post c now r := by
  simp [respond, h.isPost, h.toAssets]

theorem Sent.offerOf_eq {r : Request} (h : Sent r) {registration : Registration}
    (hr : Reader.document Document.registration r.body = .ok registration) :
    offerOf r = registration.toOffer.mapError fun e => .error 400 e.message := by
  have hfits : ¬ bodyLimit < r.body.utf8ByteSize := Nat.not_lt_of_le h.fits
  simp [offerOf, readBody, h.isJson, hfits, hr, bind, Except.bind]

theorem post_of_offerOf_eq {r q : Request} (h : offerOf r = offerOf q) (c : Catalogue)
    (now other : Timestamp) :
    (post c now r).1 = (post c other q).1 ∧
      (post c now r).2.untimed = (post c other q).2.untimed := by
  have hpost : post c.untimed .epoch r = post c.untimed .epoch q := by rw [post, post, h]
  obtain ⟨hr, hrafter⟩ := post_untimed c now .epoch r
  obtain ⟨hq, hqafter⟩ := post_untimed c other .epoch q
  rw [← hr, ← hrafter, ← hq, ← hqafter, hpost]
  exact ⟨rfl, rfl⟩

-- The two requests are answered alike at any times, and no later request tells which was made.
def Alike (c : Catalogue) (r q : Request) : Prop :=
  ∀ now other, (respond c now r).1 = (respond c other q).1 ∧
    ∀ calls others, calls.map (·.2) = others.map (·.2) →
      (session (respond c now r).2 calls).1.map Response.untimed =
        (session (respond c other q).2 others).1.map Response.untimed

theorem alike_of_offerOf_eq {r q : Request} (hr : Sent r) (hq : Sent q)
    (h : offerOf r = offerOf q) (c : Catalogue) : Alike c r q := by
  intro now other
  obtain ⟨hresponse, hafter⟩ := post_of_offerOf_eq h c now other
  rw [hr.respond_eq, hq.respond_eq]
  exact ⟨hresponse, fun calls others hcalls => session_untimed hafter hcalls⟩

theorem alike_of_sent {r q : Request} (hr : Sent r) (hq : Sent q) {registration : Registration}
    (hbody : Reader.document Document.registration r.body = .ok registration) {text : String}
    {p : Program} (hp : Assembly.assemble text = .ok p) (hprogram : registration.program = none)
    (hsource : registration.source = some text)
    (hother : Reader.document Document.registration q.body = .ok (registration.withProgram p))
    (c : Catalogue) : Alike c r q := by
  apply alike_of_offerOf_eq hr hq
  rw [hr.offerOf_eq hbody, hq.offerOf_eq hother,
    Registration.toOffer_withProgram hprogram hsource hp]

-- The bodies are objects that differ in one member: where the first has the text, the second has
-- the document of the program.
def DifferInForm (text : String) (p : Program) (r q : Request) : Prop :=
  ∃ before after : List (Option String × List Token),
    (∀ m ∈ before ++ after,
      IsValue m.2 ∧ m.1 ≠ some "source" ∧ m.1 ≠ some "vm_state_config") ∧
    Token.ofText r.body =
      objectTokens (before ++ (some "source", Token.ofText (Value.text text).compactText) :: after) ∧
    Token.ofText q.body = objectTokens (before ++
      (some "vm_state_config", Token.ofText (Document.ofProgram p).prettyText) :: after)

theorem text_and_program_register_alike :
    -- what the assembler hands out can be stored
    (∀ text p, Assembly.assemble text = .ok p →
      p.sources ≠ [] ∧ (∀ s ∈ p.sources, Script.ofBytes s.toBytes = .ok s) ∧
      Reader.document Document.program (Document.ofProgram p).prettyText = .ok p ∧
      ∀ (files : Files) (input : String), files.readText input = .ok text →
        (∃ heading, (Command.compile files input none).printed =
          heading ++ (Document.ofProgram p).prettyText ++ "\n") ∧
        ∀ path after, files.writeText path (Document.ofProgram p).prettyText = .ok after →
          (Command.compile files input (some path)).result = .ok p ∧
          (Command.compile files input (some path)).files.readText path =
            .ok (Document.ofProgram p).prettyText) ∧
    -- a text and its program are registered alike, in bodies that differ in nothing else
    (∀ text p, Assembly.assemble text = .ok p → ∀ r q, Sent r → Sent q →
      DifferInForm text p r q →
      ∀ registration, Reader.document Document.registration r.body = .ok registration →
        Reader.document Document.registration q.body = .ok (registration.withProgram p) ∧
        ∀ c, Alike c r q) ∧
    -- and in any bodies that are read as the same but for the form of the program
    (∀ text p, Assembly.assemble text = .ok p → ∀ r q, Sent r → Sent q →
      ∀ registration : Registration, registration.program = none →
      registration.source = some text →
      Reader.document Document.registration r.body = .ok registration →
      Reader.document Document.registration q.body = .ok (registration.withProgram p) →
      ∀ c, Alike c r q) ∧
    -- a body with no program, with two, or with a text that is none is refused
    ∀ r, Sent r → ∀ registration : Registration, registration.Unusable →
      Reader.document Document.registration r.body = .ok registration →
      ∀ c now, ∃ error : Registration.Error, respond c now r = (.error 400 error.message, c) := by
  refine ⟨?_, ?_, ?_, ?_⟩
  · intro text p hp
    obtain ⟨hsources, hcanonical⟩ := Assembly.storable_of_assemble hp
    refine ⟨hsources, fun s hs => Script.ofBytes_toBytes_iff.2 (hcanonical s hs), ?_, ?_⟩
    · exact Document.codec_program.document_of_spelled (by decide)
        (Value.ofText_prettyText _) hcanonical
    · intro files input hread
      exact ⟨Command.compile_to_output hread hp,
        fun path after hwrite => Command.compile_to_file hread hp hwrite⟩
  · rintro text p hp r q hr hq ⟨before, after, hothers, hbody, hother⟩ registration hregistration
    rw [Value.ofText_compactText] at hbody
    rw [Value.ofText_prettyText] at hother
    obtain ⟨hprogram, hsource, hexchanged⟩ := Document.registration_exchange hothers
      (Assembly.storable_of_assemble hp).2 hbody hother hregistration
    exact ⟨hexchanged, alike_of_sent hr hq hregistration hp hprogram hsource hexchanged⟩
  · intro text p hp r q hr hq registration hprogram hsource hbody hother
    exact alike_of_sent hr hq hbody hp hprogram hsource hother
  · intro r hr registration hunusable hbody c now
    obtain ⟨error, herror⟩ := Registration.exists_toOffer_eq_error hunusable
    refine ⟨error, ?_⟩
    rw [hr.respond_eq, post, hr.offerOf_eq hbody, herror]
    rfl

def swordMembers : List (String × Value) :=
  [("name", .text "\"sword\""), ("recipient", Document.ofAddress .zero),
    ("currencies", Document.ofCurrencyTable ⟨[.zero], [.one], [.erc20]⟩)]

def swordText : String := "CONTEXT 1 ; units\nconstant 0\n.constant 0x1"

def swordProgram : Program := ⟨[⟨[.of .context 1, .of .constant 0]⟩], [.one]⟩

def swordRegistration : Registration :=
  ⟨0, "\"sword\"", "", .zero, ⟨[.zero], [.one], [.erc20]⟩, "", none, some swordText⟩

-- One body is written without white space and the other one with it.
def swordByText : Request :=
  ⟨"POST", "/api/assets?", some "application/json; charset=utf-8",
    (Value.object (swordMembers ++ [("source", .text swordText)])).compactText⟩

def swordByProgram : Request :=
  ⟨"POST", "/api/assets", some "application/json",
    (Value.object (swordMembers ++
      [("vm_state_config", Document.ofProgram swordProgram)])).prettyText⟩

theorem text_and_program_register_alike_sword :
    Sent swordByText ∧ Sent swordByProgram ∧
      DifferInForm swordText swordProgram swordByText swordByProgram ∧
      Reader.document Document.registration swordByText.body = .ok swordRegistration ∧
      Reader.document Document.registration swordByProgram.body =
        .ok (swordRegistration.withProgram swordProgram) ∧
      Alike .empty swordByText swordByProgram := by
  have hp : Assembly.assemble swordText = .ok swordProgram := by decide
  have hr : Sent swordByText := by
    refine ⟨rfl, by decide, by decide, ?_⟩
    rw [swordByText, Value.compactText, Text.Utf8.utf8ByteSize_ofList]
    decide +kernel
  have hq : Sent swordByProgram := by
    refine ⟨rfl, by decide, by decide, ?_⟩
    rw [swordByProgram, Value.prettyText, Text.Utf8.utf8ByteSize_ofList]
    decide +kernel
  have htokens : Token.ofText swordByText.body =
      (Value.object (swordMembers ++ [("source", .text swordText)])).tokens :=
    Value.ofText_compactText _
  have hform : DifferInForm swordText swordProgram swordByText swordByProgram := by
    refine ⟨Value.tokensOfMembers swordMembers, [], ?_, ?_, ?_⟩
    · intro m hm
      rw [List.append_nil] at hm
      refine ⟨Value.isValue_of_mem_tokensOfMembers _ m hm, ?_⟩
      simp only [Value.tokensOfMembers_eq_map, swordMembers, List.map_cons, List.map_nil,
        List.mem_cons, List.not_mem_nil, or_false] at hm
      obtain rfl | rfl | rfl := hm <;> decide
    · rw [htokens, Value.ofText_compactText]
      rfl
    · rw [Value.ofText_prettyText]
      exact Value.ofText_prettyText _
  have hbody :
      Reader.document Document.registration swordByText.body = .ok swordRegistration := by
    rw [Reader.document_eq_ok, htokens]
    rfl
  obtain ⟨hother, halike⟩ :=
    text_and_program_register_alike.2.1 _ _ hp _ _ hr hq hform _ hbody
  exact ⟨hr, hq, hform, hbody, hother, halike .empty⟩

end Http.Service

end Tariff
