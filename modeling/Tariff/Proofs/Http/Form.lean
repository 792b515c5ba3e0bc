import Mathlib.Data.List.TakeWhile
import Tariff.Proofs.Http.Route
import Tariff.Proofs.Text.Hex

namespace Tariff.Http

-- Each byte as an escape, whether or not it needs one.
def escape (s : String) : List Char :=
  (Text.Utf8.encode s).flatMap fun b => '%' :: Text.Hex.ofByte b

theorem mem_escape {s : String} {c : Char} (h : c ∈ escape s) :
    c = '%' ∨ ∃ d < 16, c = Text.Hex.digit d := by
  obtain ⟨b, -, hc⟩ := List.mem_flatMap.mp h
  have hb : b.toNat < 256 := b.toNat_lt
  simp only [Text.Hex.ofByte, List.mem_cons, List.not_mem_nil, or_false] at hc
  rcases hc with hc | hc | hc
  · exact .inl hc
  · exact .inr ⟨b.toNat / 16, by omega, hc⟩
  · exact .inr ⟨b.toNat % 16, by omega, hc⟩

theorem not_mem_escape {c : Char} (hpercent : c ≠ '%')
    (hdigit : ∀ d < 16, c ≠ Text.Hex.digit d) (s : String) : c ∉ escape s := by
  intro h
  obtain hc | ⟨d, hd, hc⟩ := mem_escape h
  · exact hpercent hc
  · exact hdigit d hd hc

theorem unescape_ofByte (b : UInt8) (rest : List UInt8) :
    unescape (('%' :: Text.Hex.ofByte b).flatMap String.utf8EncodeChar ++ rest) =
      b :: unescape rest := by
  have hb : b.toNat < 256 := b.toNat_lt
  have hbyte {d : Nat} (hd : d < 16) : String.utf8EncodeChar (Text.Hex.digit d) =
      [UInt8.ofNat (Text.Hex.digit d).toNat] :=
    Text.Utf8.utf8EncodeChar_of_lt (Text.Hex.digit_toNat_lt d hd)
  have hread {d : Nat} (hd : d < 16) :
      Text.Hex.value? (Char.ofNat (UInt8.ofNat (Text.Hex.digit d).toNat).toNat) = some d := by
    have hlt := Text.Hex.digit_toNat_lt d hd
    rw [Text.Utf8.toNat_ofNat (by omega), Char.ofNat_toNat, Text.Hex.value?_digit hd]
  have hhigh : b.toNat / 16 < 16 := by omega
  have hlow : b.toNat % 16 < 16 := by omega
  have hpercent : String.utf8EncodeChar '%' = [0x25] := by decide
  have hvalue : 16 * (b.toNat / 16) + b.toNat % 16 = b.toNat := by omega
  simp only [Text.Hex.ofByte, List.flatMap_cons, List.flatMap_nil, hpercent, hbyte hhigh,
    hbyte hlow, List.cons_append, List.nil_append, unescape, hread hhigh, hread hlow, hvalue,
    UInt8.ofNat_toNat]

theorem unescape_escape (s : String) :
    unescape (Text.Utf8.encode (String.ofList (escape s))) = Text.Utf8.encode s := by
  rw [Text.Utf8.encode_ofList, escape]
  induction Text.Utf8.encode s with
  | nil => rfl
  | cons b bytes ih => rw [List.flatMap_cons, List.flatMap_append, unescape_ofByte, ih]

-- Nothing that was escaped looks like a blank.
theorem queryPart_escape (s : String) : queryPart (escape s) = s := by
  have hplus : '+' ∉ escape s := not_mem_escape (by decide) (by decide) s
  have hspaced : (escape s).map (fun c => if c = '+' then ' ' else c) = escape s := by
    have hsame : ∀ c ∈ escape s, (if c = '+' then ' ' else c) = id c := fun c hc =>
      if_neg (ne_of_mem_of_not_mem hc hplus)
    rw [List.map_congr_left hsame, List.map_id]
  have hencode := Text.Utf8.encode_ofList s.toList
  rw [String.ofList_toList] at hencode
  simp only [queryPart, hspaced]
  rw [unescape_escape, Text.Utf8.decodeLossy, hencode, Text.Utf8.scan_flatMap_encode, List.map_map]
  simp [Function.comp_def]

def writePair (p : String × String) : List Char :=
  escape p.1 ++ '=' :: escape p.2

def writePairs (ps : List (String × String)) : List Char :=
  ['&'].intercalate (ps.map writePair)

theorem not_mem_writePair {c : Char} (hpercent : c ≠ '%') (hequals : c ≠ '=')
    (hdigit : ∀ d < 16, c ≠ Text.Hex.digit d) (p : String × String) : c ∉ writePair p := by
  simp [writePair, not_mem_escape hpercent hdigit, hequals]

theorem not_mem_writePairs {c : Char} (hpercent : c ≠ '%') (hequals : c ≠ '=') (hand : c ≠ '&')
    (hdigit : ∀ d < 16, c ≠ Text.Hex.digit d) (ps : List (String × String)) :
    c ∉ writePairs ps := by
  apply Text.not_mem_intercalate hand
  intro piece hpiece
  obtain ⟨p, -, rfl⟩ := List.mem_map.mp hpiece
  exact not_mem_writePair hpercent hequals hdigit p

theorem pairs_writePairs (ps : List (String × String)) : pairs (writePairs ps) = ps := by
  have hand : ∀ piece ∈ ps.map writePair, '&' ∉ piece := by
    intro piece hpiece
    obtain ⟨p, -, rfl⟩ := List.mem_map.mp hpiece
    exact not_mem_writePair (by decide) (by decide) (by decide) p
  have hread (p : String × String) :
      (queryPart ((writePair p).takeWhile (· != '=')),
        queryPart (((writePair p).dropWhile (· != '=')).drop 1)) = p := by
    have hplain : ∀ c ∈ escape p.1, (c != '=') = true := by
      intro c hc
      exact bne_iff_ne.mpr (ne_of_mem_of_not_mem hc (not_mem_escape (by decide) (by decide) p.1))
    rw [writePair, List.takeWhile_append_of_pos hplain, List.dropWhile_append_of_pos hplain]
    simp [queryPart_escape]
  cases ps with
  | nil => rfl
  | cons p rest =>
    have hsplit : Text.splitOn (· == '&') (writePairs (p :: rest)) = (p :: rest).map writePair := by
      rw [Text.splitOn_eq_splitOnP]
      exact List.splitOn_intercalate '&' hand (by simp)
    have hfull : ((p :: rest).map writePair).filter (!·.isEmpty) = (p :: rest).map writePair := by
      rw [List.filter_eq_self]
      intro piece hpiece
      obtain ⟨q, -, rfl⟩ := List.mem_map.mp hpiece
      simp [writePair]
    rw [pairs, hsplit, hfull, List.map_map]
    exact List.map_id'' hread _

-- The target of a request is cut at the question mark, and nothing of it is a fragment.
theorem Request.path_and_query {r : Request} {rest asked : List Char}
    (h : r.target = String.ofList (('/' :: rest) ++ '?' :: asked)) (hquestion : '?' ∉ rest)
    (hfragment : '#' ∉ rest ++ asked) : r.path = '/' :: rest ∧ r.query = asked := by
  rw [List.mem_append, not_or] at hfragment
  have hvisible : r.visible = some (('/' :: rest) ++ '?' :: asked) := by
    have hwhole : (('/' :: rest) ++ '?' :: asked).takeWhile (· != '#') =
        ('/' :: rest) ++ '?' :: asked := by
      rw [List.takeWhile_eq_self_iff]
      intro c hc
      rw [bne_iff_ne]
      rintro rfl
      simp [hfragment] at hc
    rw [visible, h, String.toList_ofList, List.cons_append]
    exact congrArg some hwhole
  have hpath : ∀ c ∈ '/' :: rest, (c != '?') = true := by
    intro c hc
    rw [bne_iff_ne]
    rintro rfl
    simp [hquestion] at hc
  constructor
  · simp only [path, hvisible]
    rw [List.takeWhile_append_of_pos hpath]
    simp
  · rw [query, hvisible, Option.getD_some, List.dropWhile_append_of_pos hpath]
    simp

namespace Query

def toPairs (q : Query) : List (String × String) :=
  (q.buyer.map fun buyer => ("buyer", buyer)).toList ++
    (q.units.map fun units => ("units", units)).toList

def indexedPairs (index : Nat) (q : Query) : List (String × String) :=
  ("currency_index", String.ofList (Text.Decimal.ofNat index)) :: q.toPairs

theorem read?_toPairs (q : Query) : read? (writePairs q.toPairs) = some q := by
  obtain ⟨buyer, units⟩ := q
  rw [read?, pairs_writePairs]
  cases buyer <;> cases units <;> rfl

theorem readIndexed?_indexedPairs {index : Nat} (h : index < Nat.pow 2 64) (q : Query) :
    readIndexed? (writePairs (indexedPairs index q)) = some (index, q) := by
  have hread : read? (writePairs (indexedPairs index q)) = some q := by
    have hplain := read?_toPairs q
    rw [read?, pairs_writePairs] at hplain ⊢
    exact hplain
  have hindex : single? "currency_index" (indexedPairs index q) =
      some (some (String.ofList (Text.Decimal.ofNat index))) := by
    obtain ⟨buyer, units⟩ := q
    cases buyer <;> cases units <;> rfl
  simp only [readIndexed?, hread, pairs_writePairs, hindex, Option.bind_eq_bind, Option.bind_some,
    String.toList_ofList, Text.Decimal.unsigned?_ofNat h]

theorem lt_of_readIndexed? {query : List Char} {index : Nat} {q : Query}
    (h : readIndexed? query = some (index, q)) : index < Nat.pow 2 64 := by
  simp only [readIndexed?, Option.bind_eq_bind, Option.bind_eq_some_iff, Option.some.injEq,
    Prod.mk.injEq] at h
  obtain ⟨given, -, value, -, found, hfound, -, -, rfl, -⟩ := h
  exact Text.Decimal.lt_of_unsigned? hfound

end Query

namespace Service

-- A request that asks a question, however its path and its query are written.
def Carries (r : Request) (question : Question) : Prop :=
  r.method = "GET" ∧
    ∃ route, Route.ofPath r.path = some route ∧ question? route r.query = some question

theorem Carries.respond_eq {r : Request} {question : Question} (h : Carries r question)
    (c : Catalogue) (now : Timestamp) : respond c now r = (answer c question, c) := by
  obtain ⟨hget, route, hroute, hquestion⟩ := h
  simp [respond, hget, hroute, get, hquestion]

namespace Question

-- Numbers of assets and of currencies have 64 bits.
def Fits : Question → Prop
  | .health | .list => True
  | .asset id | .cost id _ => id < Nat.pow 2 64
  | .price id index _ | .quote id index _ => id < Nat.pow 2 64 ∧ index < Nat.pow 2 64

-- The parts of the path behind the first slash.
def parts : Question → List (List Char)
  | .health => ["health".toList]
  | .list => ["api".toList, "assets".toList]
  | .asset id => ["api".toList, "assets".toList, Text.Decimal.ofNat id]
  | .price id _ _ => ["api".toList, "assets".toList, Text.Decimal.ofNat id, "price".toList]
  | .cost id _ => ["api".toList, "assets".toList, Text.Decimal.ofNat id, "cost".toList]
  | .quote id _ _ => ["api".toList, "assets".toList, Text.Decimal.ofNat id, "quote".toList]

def toPairs : Question → List (String × String)
  | .health | .list | .asset _ => []
  | .cost _ q => q.toPairs
  | .price _ index q | .quote _ index q => q.indexedPairs index

def request (question : Question) : Request :=
  ⟨"GET", String.ofList (('/' :: ['/'].intercalate question.parts) ++ '?' ::
    writePairs question.toPairs), none, ""⟩

def route : Question → Route
  | .health => .health
  | .list => .assets
  | .asset id => .asset (Text.Decimal.ofNat id)
  | .price id _ _ => .price (Text.Decimal.ofNat id)
  | .cost id _ => .cost (Text.Decimal.ofNat id)
  | .quote id _ _ => .quote (Text.Decimal.ofNat id)

theorem not_mem_part {c : Char} (hc : c = '/' ∨ c = '?' ∨ c = '#') (question : Question) :
    ∀ part ∈ question.parts, c ∉ part := by
  have hdigits (n : Nat) : c ∉ Text.Decimal.ofNat n := by
    intro hmem
    have hdigit := Text.Decimal.isDigit_iff.mp (Text.Decimal.isDigit_of_mem_ofNat hmem)
    rcases hc with rfl | rfl | rfl
    · exact absurd hdigit (by decide)
    · exact absurd hdigit (by decide)
    · exact absurd hdigit (by decide)
  rcases hc with rfl | rfl | rfl
  all_goals cases question <;> simp [parts, hdigits]

theorem ofPath_parts (question : Question) :
    Route.ofPath ('/' :: ['/'].intercalate question.parts) = some question.route := by
  have hne : question.parts ≠ [] := by cases question <;> simp [parts]
  have hslash : ∀ part ∈ [] :: question.parts, '/' ∉ part :=
    List.forall_mem_cons.mpr ⟨List.not_mem_nil, not_mem_part (.inl rfl) question⟩
  have hpath : '/' :: ['/'].intercalate question.parts =
      ['/'].intercalate ([] :: question.parts) := by
    rw [List.intercalate_cons_of_ne_nil hne]
    rfl
  have hdigits (n : Nat) : Text.Decimal.ofNat n ≠ [] := Nat.toDigits_ne_nil
  rw [hpath, Route.ofPath_intercalate hslash (by simp)]
  cases question <;> simp [parts, route, Route.ofParts, hdigits]

theorem question?_toPairs {question : Question} (h : question.Fits) :
    question? question.route (writePairs question.toPairs) = some question := by
  cases question with
  | health => rfl
  | list => rfl
  | asset id => simp [question?, route, readId?_ofNat h]
  | price id index q =>
    simp [question?, route, toPairs, readId?_ofNat h.1, Query.readIndexed?_indexedPairs h.2]
  | cost id q => simp [question?, route, toPairs, readId?_ofNat h, Query.read?_toPairs]
  | quote id index q =>
    simp [question?, route, toPairs, readId?_ofNat h.1, Query.readIndexed?_indexedPairs h.2]

theorem carries_request {question : Question} (h : question.Fits) :
    Carries question.request question := by
  have hmark {c : Char} (hc : c = '?' ∨ c = '#') : c ∉ ['/'].intercalate question.parts :=
    Text.not_mem_intercalate (by rcases hc with rfl | rfl <;> decide)
      (not_mem_part (.inr hc) question)
  have hfragment : '#' ∉ writePairs question.toPairs :=
    not_mem_writePairs (by decide) (by decide) (by decide) (by decide) _
  obtain ⟨hpath, hquery⟩ := Request.path_and_query (r := question.request) rfl (hmark (.inl rfl))
    (by simp [hmark (.inr rfl), hfragment])
  refine ⟨rfl, question.route, ?_, ?_⟩
  · rw [hpath, ofPath_parts]
  · rw [hquery, question?_toPairs h]

-- A question that is asked has passed the bounds of its numbers.
theorem fits_of_carries {r : Request} {question : Question} (h : Carries r question) :
    question.Fits := by
  obtain ⟨-, route, -, hasked⟩ := h
  cases route with
  | health =>
    cases hasked
    trivial
  | assets =>
    cases hasked
    trivial
  | asset text =>
    simp only [question?, Option.map_eq_some_iff] at hasked
    obtain ⟨id, hid, rfl⟩ := hasked
    exact lt_of_readId? hid
  | cost text =>
    simp only [question?, Option.bind_eq_bind, Option.bind_eq_some_iff, Option.some.injEq] at hasked
    obtain ⟨id, hid, q, -, rfl⟩ := hasked
    exact lt_of_readId? hid
  | price text =>
    simp only [question?, Option.bind_eq_bind, Option.bind_eq_some_iff, Option.some.injEq] at hasked
    obtain ⟨id, hid, ⟨index, q⟩, hq, rfl⟩ := hasked
    exact ⟨lt_of_readId? hid, Query.lt_of_readIndexed? hq⟩
  | quote text =>
    simp only [question?, Option.bind_eq_bind, Option.bind_eq_some_iff, Option.some.injEq] at hasked
    obtain ⟨id, hid, ⟨index, q⟩, hq, rfl⟩ := hasked
    exact ⟨lt_of_readId? hid, Query.lt_of_readIndexed? hq⟩

end Question

end Service

end Tariff.Http
