import Tariff.Proofs.Json.Record
import Tariff.Proofs.Json.Spelling

namespace Tariff.Json

open Reader (Takes)

variable {α ε : Type}

-- `depth` is how many containers are open at once in what is written.
structure Codec (read : Reader α) (write : α → Value) (valid : α → Prop) (depth : Nat) : Prop where
  takes : ∀ {x : α} {room : Nat}, valid x → depth ≤ room → Takes read room (write x).tokens x
  valid_of_read : ∀ {room : Nat} {tokens rest : List Token} {x : α},
    read room tokens = .ok (x, rest) → valid x

namespace Codec

theorem mono {read : Reader α} {write : α → Value} {valid : α → Prop} {depth deeper : Nat}
    (h : Codec read write valid depth) (hle : depth ≤ deeper) : Codec read write valid deeper where
  takes hx hroom := h.takes hx (Nat.le_trans hle hroom)
  valid_of_read := h.valid_of_read

theorem congr_valid {read : Reader α} {write : α → Value} {valid other : α → Prop} {depth : Nat}
    (h : Codec read write valid depth) (hiff : ∀ x, other x ↔ valid x) :
    Codec read write other depth where
  takes hx hroom := h.takes ((hiff _).1 hx) hroom
  valid_of_read hread := (hiff _).2 (h.valid_of_read hread)

theorem text : Codec Reader.text .text (fun _ => True) 0 where
  takes _ _ := Reader.takes_text _ _
  valid_of_read _ := trivial

theorem natural (wanted : String) :
    Codec (Reader.natural wanted) .natural (fun n => n < Nat.pow 2 64) 0 where
  takes hn _ := Reader.takes_natural (Numeral.value?_ofNat hn) wanted _
  valid_of_read h := by
    unfold Reader.natural at h
    split at h
    · split at h
      · rename_i hvalue
        cases h
        exact Numeral.lt_of_value?_eq_natural hvalue
      all_goals cases h
    · cases h

theorem parsed {read : String → Except ε α} {reason : ε → String} {write : α → String}
    {valid : α → Prop} (hwrite : ∀ x, valid x → read (write x) = .ok x)
    (hread : ∀ s x, read s = .ok x → valid x) :
    Codec (Reader.parsed read reason) (fun x => .text (write x)) valid 0 where
  takes hx _ := Reader.takes_parsed (hwrite _ hx) _
  valid_of_read h := by
    obtain ⟨s, -, hs⟩ := Reader.parsed_eq_ok h
    exact hread s _ hs

theorem choice {choices : List (String × α)} {tag : α → String}
    (h : ∀ x, choices.lookup (tag x) = some x) :
    Codec (Reader.choice choices) (fun x => .text (tag x)) (fun _ => True) 0 where
  takes _ _ := Reader.takes_choice (h _) _
  valid_of_read _ := trivial

section List

variable {read : Reader α} {write : α → Value} {valid : α → Prop} {depth : Nat}

theorem forall₂_takes (h : Codec read write valid depth) {room : Nat} (hroom : depth ≤ room)
    {xs : List α} (hxs : ∀ x ∈ xs, valid x) :
    List.Forall₂ (Takes read room) ((xs.map write).map Value.tokens) xs := by
  rw [List.map_map, List.forall₂_map_left_iff, List.forall₂_same]
  exact fun x hx => h.takes (hxs x hx) hroom

theorem valid_of_items (h : Codec read write valid depth) {room fuel : Nat} {first : Bool}
    {tokens rest : List Token} {xs : List α}
    (hitems : Reader.items read room fuel first tokens = .ok (xs, rest)) : ∀ x ∈ xs, valid x := by
  induction fuel generalizing first tokens xs with
  | zero => cases hitems
  | succ fuel ih =>
    obtain ⟨-, rfl⟩ | ⟨due, x, left, more, -, -, hitem, hmore, rfl⟩ :=
      Reader.items_succ_eq_ok.1 hitems
    · exact List.forall_mem_nil _
    · exact List.forall_mem_cons.2 ⟨h.valid_of_read hitem, ih hmore⟩

theorem list (h : Codec read write valid depth) :
    Codec (Reader.list read) (fun xs => .list (xs.map write)) (fun xs => ∀ x ∈ xs, valid x)
      (depth + 1) where
  takes {xs room} hxs hroom := by
    obtain ⟨room, rfl⟩ := Nat.exists_eq_add_one_of_ne_zero (Nat.ne_zero_of_lt hroom)
    rw [Value.tokens]
    refine Reader.takes_list (Value.isValue_of_mem_tokensOfItems _) ?_
    rw [Value.tokensOfItems_eq_map]
    exact h.forall₂_takes (Nat.le_of_succ_le_succ hroom) hxs
  valid_of_read hread := by
    unfold Reader.list at hread
    split at hread
    · cases hread
    · exact h.valid_of_items hread
    · cases hread

end List

section Record

variable {s : Schema} {write : (f : s.Field) → s.Content f → Value}
  {valid : (f : s.Field) → s.Content f → Prop} {depth : Nat}

-- The members that are written: one for each field, in their order.
def writeMembers (write : (f : s.Field) → s.Content f → Value) (all : s.Members) :
    List (String × Value) :=
  s.fields.map fun f => (s.key f, write f (all f))

-- Members for some of the fields, none of which was read before.
theorem collects_fields (h : ∀ f, Codec (s.read f) (write f) (valid f) depth)
    (hkeys : (s.fields.map s.key).Nodup) {room : Nat} (hroom : depth ≤ room) {all : s.Members}
    (hall : ∀ f, valid f (all f)) {fields : List s.Field} (hnodup : fields.Nodup) {p : s.Partial}
    (hp : ∀ f ∈ fields, p f = none) :
    s.Collects room p (fields.map fun f => (some (s.key f), (write f (all f)).tokens))
      fun f => if f ∈ fields then some (all f) else p f := by
  induction fields generalizing p with
  | nil => simpa using Schema.Collects.nil p
  | cons f fields ih =>
    rw [List.forall_mem_cons] at hp
    rw [List.nodup_cons] at hnodup
    have hset : ∀ g ∈ fields, s.set p f (all f) g = none := by
      intro g hg
      have hne : f ≠ g := fun heq => hnodup.1 (heq ▸ hg)
      rw [Schema.set_of_ne hne, hp.2 g hg]
    have hmore := ih hnodup.2 hset
    have hlast : (fun g => if g ∈ fields then some (all g) else s.set p f (all f) g) =
        fun g => if g ∈ f :: fields then some (all g) else p g := by
      funext g
      by_cases hg : f = g
      · subst hg
        simp [Schema.set_self, hnodup.1]
      · simp [Schema.set_of_ne hg, Ne.symm hg]
    rw [hlast] at hmore
    exact .known (Schema.fieldNamed?_key hkeys f) hp.1 ((h f).takes (hall f) hroom) hmore

-- What has been read so far may be written.
def Fits (valid : (f : s.Field) → s.Content f → Prop) (p : s.Partial) : Prop :=
  ∀ f x, p f = some x → valid f x

theorem Fits.set {p : s.Partial} (hp : Fits valid p) {f : s.Field} {x : s.Content f}
    (hx : valid f x) : Fits valid (s.set p f x) := by
  intro g y hy
  by_cases hg : f = g
  · subst hg
    rw [Schema.set_self] at hy
    obtain rfl : x = y := Option.some.inj hy
    exact hx
  · rw [Schema.set_of_ne hg] at hy
    exact hp g y hy

theorem fits_of_members (h : ∀ f, Codec (s.read f) (write f) (valid f) depth) {room fuel : Nat}
    {first : Bool} {p q : s.Partial} (hp : Fits valid p) {tokens rest : List Token}
    (hmembers : s.members room fuel first p tokens = .ok (q, rest)) : Fits valid q := by
  induction fuel generalizing first p tokens with
  | zero => cases hmembers
  | succ fuel ih =>
    obtain ⟨-, rfl⟩ | ⟨key, due, next, left, -, hmember, hmore⟩ :=
      Schema.members_succ_eq_ok.1 hmembers
    · exact hp
    · obtain ⟨due, -, ⟨f, x, -, -, hread, rfl⟩ | ⟨-, -, rfl⟩⟩ := Schema.member_eq_ok.1 hmember
      · exact ih (hp.set ((h f).valid_of_read hread)) hmore
      · exact ih hp hmore

theorem fits_of_elements (h : ∀ f, Codec (s.read f) (write f) (valid f) depth)
    (habsent : ∀ f x, (s.absent f).ofList? = some x → valid f x) {room position : Nat}
    {fields : List s.Field} {p q : s.Partial} (hp : Fits valid p) {tokens rest : List Token}
    (helements : s.elements room fields position p tokens = .ok (q, rest)) : Fits valid q := by
  induction fields generalizing position p tokens with
  | nil =>
    obtain ⟨-, rfl⟩ := Schema.elements_nil_eq_ok.1 helements
    exact hp
  | cons f fields ih =>
    obtain ⟨x, -, hx, hmore⟩ | ⟨due, x, left, -, -, hread, hmore⟩ :=
      Schema.elements_cons_eq_ok.1 helements
    · exact ih (hp.set (habsent f x hx)) hmore
    · exact ih (hp.set ((h f).valid_of_read hread)) hmore

theorem valid_of_complete (habsent : ∀ f x, (s.absent f).ofObject? = some x → valid f x)
    {p : s.Partial} (hp : Fits valid p) {all : s.Members} (h : s.complete p = .ok all)
    (f : s.Field) : valid f (all f) := by
  have hf := Schema.complete_eq_ok.1 h f
  rw [Schema.filled, Option.or_eq_some_iff] at hf
  obtain hf | ⟨-, hf⟩ := hf
  · exact hp f _ hf
  · exact habsent f _ hf

theorem record {make : s.Members → α} (parts : α → s.Members)
    (write : (f : s.Field) → s.Content f → Value) (valid : (f : s.Field) → s.Content f → Prop)
    (h : ∀ f, Codec (s.read f) (write f) (valid f) depth) (hkeys : (s.fields.map s.key).Nodup)
    (habsent : ∀ f x, (s.absent f).ofObject? = some x → valid f x)
    (hmake : ∀ x, make (parts x) = x) (hparts : ∀ all, parts (make all) = all) :
    Codec (s.readerOf make) (fun x => .object (writeMembers write (parts x)))
      (fun x => ∀ f, valid f (parts x f)) (depth + 1) where
  takes {x room} hx hroom := by
    obtain ⟨room, rfl⟩ := Nat.exists_eq_add_one_of_ne_zero (Nat.ne_zero_of_lt hroom)
    have hcollects := collects_fields h hkeys (Nat.le_of_succ_le_succ hroom) hx
      (List.Nodup.of_map _ hkeys) (p := s.nothing) fun _ _ => rfl
    have htokens : (Value.object (writeMembers write (parts x))).tokens =
        objectTokens (s.fields.map fun f => (some (s.key f), (write f (parts x f)).tokens)) := by
      rw [Value.tokens, Value.tokensOfMembers_eq_map, writeMembers, List.map_map]
      rfl
    have hvalue : ∀ m ∈ s.fields.map fun f => (some (s.key f), (write f (parts x f)).tokens),
        IsValue m.2 := by
      simp [Value.isValue_tokens]
    have hcomplete : s.complete (fun f => if f ∈ s.fields then some (parts x f) else s.nothing f) =
        .ok (parts x) :=
      Schema.complete_eq_ok.2 fun f => by simp [Schema.filled, s.mem_fields f]
    have htakes := Schema.takes_readerOf make (Schema.takes_object hvalue hcollects hcomplete)
    rwa [hmake x, ← htokens] at htakes
  valid_of_read {room tokens rest x} hread := by
    obtain ⟨all, hall, rfl⟩ := Schema.readerOf_eq_ok.1 hread
    rw [hparts]
    have hlist : ∀ f x, (s.absent f).ofList? = some x → valid f x := by
      intro f x hx
      apply habsent f x
      cases habs : s.absent f <;> simp_all [Absence.ofList?, Absence.ofObject?]
    have hnothing : Fits valid s.nothing := by
      intro f x hx
      cases hx
    obtain ⟨inner, more, p, hp, hmembers | helements⟩ := Schema.reader_cases hall
    · exact valid_of_complete habsent (fits_of_members h hnothing hmembers) hp
    · exact valid_of_complete habsent (fits_of_elements h hlist hnothing helements) hp

-- A record all of whose fields may be written whatever they are.
theorem freeRecord {make : s.Members → α} (parts : α → s.Members)
    (write : (f : s.Field) → s.Content f → Value)
    (h : ∀ f, Codec (s.read f) (write f) (fun _ => True) depth)
    (hkeys : (s.fields.map s.key).Nodup) (hmake : ∀ x, make (parts x) = x)
    (hparts : ∀ all, parts (make all) = all) :
    Codec (s.readerOf make) (fun x => .object (writeMembers write (parts x))) (fun _ => True)
      (depth + 1) :=
  (record parts write _ h hkeys (fun _ _ _ => trivial) hmake hparts).congr_valid (by simp)

end Record

variable {read : Reader α} {write : α → Value} {valid : α → Prop} {depth : Nat}

theorem document_of_spelled (h : Codec read write valid depth) (hdepth : depth ≤ 127) {x : α}
    {t : String} (ht : Token.ofText t = (write x).tokens) (hx : valid x) :
    Reader.document read t = .ok x := by
  apply Reader.document_of_takes
  rw [ht]
  exact h.takes hx hdepth

theorem valid_of_document (h : Codec read write valid depth) {x : α} {t : String}
    (hx : Reader.document read t = .ok x) : valid x :=
  h.valid_of_read (Reader.document_eq_ok.1 hx)

end Codec

end Tariff.Json
