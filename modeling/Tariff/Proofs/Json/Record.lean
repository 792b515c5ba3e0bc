import Mathlib.Data.List.Nodup
import Tariff.Json.Record
import Tariff.Proofs.Json.Extent

namespace Tariff.Json.Schema

open Reader (Takes Exact due? due?_eq_some_iff)

variable {s : Schema}

theorem set_self (p : s.Partial) (f : s.Field) (x : s.Content f) : s.set p f x f = some x := by
  simp [set]

theorem set_of_ne {f g : s.Field} (h : f ≠ g) (p : s.Partial) (x : s.Content f) :
    s.set p f x g = p g :=
  dif_neg h

theorem fieldNamed?_key (hkeys : (s.fields.map s.key).Nodup) (f : s.Field) :
    s.fieldNamed? (s.key f) = some f := by
  cases hfound : s.fieldNamed? (s.key f) with
  | none =>
    have hnone := List.find?_eq_none.1 hfound f (s.mem_fields f)
    simp at hnone
  | some g =>
    have hkey : s.key g = s.key f := by simpa using List.find?_some hfound
    rw [List.inj_on_of_nodup_map hkeys (s.mem_fields g) (s.mem_fields f) hkey]

theorem key_of_fieldNamed? {name : String} {f : s.Field} (h : s.fieldNamed? name = some f) :
    s.key f = name := by
  simpa using List.find?_some h

-- All that a member can do: it is a field that was not read before, or it is passed over.
theorem member_eq_ok {room : Nat} {p q : s.Partial} {key : String} {tokens rest : List Token} :
    s.member room p key tokens = .ok (q, rest) ↔
      ∃ due, tokens = .colon :: due ∧
        ((∃ f x, s.fieldNamed? key = some f ∧ p f = none ∧ s.read f room due = .ok (x, rest) ∧
            q = s.set p f x) ∨
          (s.fieldNamed? key = none ∧ Reader.pass .shape .value [] due = some rest ∧ q = p)) := by
  constructor
  · intro h
    unfold member at h
    split at h
    · rename_i f hf
      split at h
      · cases h
      · rename_i hp
        split at h
        · rename_i due
          split at h
          · cases h
          · rename_i x left hread
            cases h
            exact ⟨due, rfl, .inl ⟨f, x, hf, by simpa using hp, hread, rfl⟩⟩
        · cases h
    · rename_i hf
      split at h
      · rename_i due
        split at h
        · rename_i left hpass
          cases h
          exact ⟨due, rfl, .inr ⟨hf, hpass, rfl⟩⟩
        · cases h
      · cases h
  · rintro ⟨due, rfl, ⟨f, x, hf, hp, hread, rfl⟩ | ⟨hf, hpass, rfl⟩⟩
    · simp [member, hf, hp, hread]
    · simp [member, hf, hpass]

theorem members_succ {room fuel : Nat} {first : Bool} {p : s.Partial} {tokens : List Token}
    (h : tokens.head? ≠ some .closeObject) :
    s.members room (fuel + 1) first p tokens =
      match due? first tokens with
      | some (.text (some key) :: rest) =>
        match s.member room p key rest with
        | .error e => .error e
        | .ok (next, rest) => s.members room fuel false next rest
      | _ => .error .malformed := by
  cases tokens with
  | nil => rfl
  | cons t rest => cases t <;> first | rfl | exact absurd rfl h

-- All that one step of the loop over the members can do.
theorem members_succ_eq_ok {room fuel : Nat} {first : Bool} {p q : s.Partial}
    {tokens after : List Token} :
    s.members room (fuel + 1) first p tokens = .ok (q, after) ↔
      (tokens = .closeObject :: after ∧ q = p) ∨
      ∃ key due next rest, tokens = lead first ++ .text (some key) :: due ∧
        s.member room p key due = .ok (next, rest) ∧
        s.members room fuel false next rest = .ok (q, after) := by
  by_cases hclose : tokens.head? = some .closeObject
  · obtain ⟨rest, rfl⟩ := List.head?_eq_some_iff.1 hclose
    cases first <;> simp [members, lead, eq_comm, and_comm]
  · rw [members_succ hclose]
    constructor
    · intro h
      refine .inr ?_
      split at h
      · rename_i key due hdue
        split at h
        · cases h
        · rename_i next rest hmember
          exact ⟨key, due, next, rest, due?_eq_some_iff.1 hdue, hmember, h⟩
      · cases h
    · rintro (⟨rfl, -⟩ | ⟨key, due, next, rest, htokens, hmember, hmore⟩)
      · exact absurd rfl hclose
      · simp only [due?_eq_some_iff.2 htokens, hmember, hmore]

theorem elements_nil_eq_ok {room position : Nat} {p q : s.Partial} {tokens after : List Token} :
    s.elements room [] position p tokens = .ok (q, after) ↔ tokens = .closeList :: after ∧ q = p := by
  unfold elements
  split
  · simp [eq_comm, and_comm]
  · simp_all
  · simp_all
  · simp_all

theorem elements_cons {room position : Nat} {f : s.Field} {fields : List s.Field} {p : s.Partial}
    {tokens : List Token} (h : tokens.head? ≠ some .closeList) :
    s.elements room (f :: fields) position p tokens =
      match due? (position == 0) tokens with
      | none => .error .malformed
      | some due =>
        match s.read f room due with
        | .error e => .error e
        | .ok (x, rest) => s.elements room fields (position + 1) (s.set p f x) rest := by
  cases tokens with
  | nil => cases position <;> rfl
  | cons t rest => cases position <;> cases t <;> first | rfl | exact absurd rfl h

-- All that one field can do in the list form: the list is over and the field has a fallback, or
-- the field stands there.
theorem elements_cons_eq_ok {room position : Nat} {f : s.Field} {fields : List s.Field}
    {p q : s.Partial} {tokens after : List Token} :
    s.elements room (f :: fields) position p tokens = .ok (q, after) ↔
      (∃ x, tokens.head? = some .closeList ∧ (s.absent f).ofList? = some x ∧
        s.elements room fields (position + 1) (s.set p f x) tokens = .ok (q, after)) ∨
      ∃ due x rest, tokens.head? ≠ some .closeList ∧ tokens = lead (position == 0) ++ due ∧
        s.read f room due = .ok (x, rest) ∧
        s.elements room fields (position + 1) (s.set p f x) rest = .ok (q, after) := by
  by_cases hclose : tokens.head? = some .closeList
  · obtain ⟨rest, rfl⟩ := List.head?_eq_some_iff.1 hclose
    cases habsent : (s.absent f).ofList? <;> simp [elements, habsent]
  · rw [elements_cons hclose]
    constructor
    · intro h
      refine .inr ?_
      split at h
      · cases h
      · rename_i due hdue
        split at h
        · cases h
        · rename_i x rest hread
          exact ⟨due, x, rest, hclose, due?_eq_some_iff.1 hdue, hread, h⟩
    · rintro (⟨x, htokens, -⟩ | ⟨due, x, rest, -, htokens, hread, hmore⟩)
      · exact absurd htokens hclose
      · simp only [due?_eq_some_iff.2 htokens, hread, hmore]

theorem complete_eq_ok {p : s.Partial} {all : s.Members} :
    s.complete p = .ok all ↔ ∀ f, s.filled p f = some (all f) := by
  unfold complete
  constructor
  · intro h
    split at h
    · cases h
      intro f
      rw [Option.some_get]
    · split at h <;> cases h
  · intro h
    rw [dif_pos fun f _ => by rw [h f]; rfl]
    simp [h]

theorem filled_of_some {p : s.Partial} {f : s.Field} {x : s.Content f} (h : p f = some x) :
    s.filled p f = some x := by
  rw [filled, h, Option.some_or]

theorem eq_of_complete {p : s.Partial} {all : s.Members} (h : s.complete p = .ok all) {f : s.Field}
    {x : s.Content f} (hp : p f = some x) : all f = x :=
  Option.some.inj ((complete_eq_ok.1 h f).symm.trans (filled_of_some hp))

theorem filled_of_none {p : s.Partial} {f : s.Field} (h : p f = none) :
    s.filled p f = (s.absent f).ofObject? := by
  rw [filled, h, Option.none_or]

theorem filled_congr {p q : s.Partial} {f : s.Field} (h : q f = p f) :
    s.filled q f = s.filled p f := by
  rw [filled, filled, h]

theorem reader_object_eq_ok {room : Nat} {tokens after : List Token} {all : s.Members} :
    s.reader (room + 1) (.openObject :: tokens) = .ok (all, after) ↔
      ∃ p, s.members room tokens.length true s.nothing tokens = .ok (p, after) ∧
        s.complete p = .ok all := by
  rw [reader]
  cases s.members room tokens.length true s.nothing tokens with
  | error e => simp
  | ok result => cases hall : s.complete result.1 <;> simp_all [Except.map, Prod.ext_iff, and_comm]

theorem reader_list_eq_ok {room : Nat} {tokens after : List Token} {all : s.Members} :
    s.reader (room + 1) (.openList :: tokens) = .ok (all, after) ↔
      ∃ p, s.elements room s.fields 0 s.nothing tokens = .ok (p, after) ∧
        s.complete p = .ok all := by
  rw [reader]
  cases s.elements room s.fields 0 s.nothing tokens with
  | error e => simp
  | ok result => cases hall : s.complete result.1 <;> simp_all [Except.map, Prod.ext_iff, and_comm]

-- A record is an object or a list.
theorem reader_cases {room : Nat} {tokens after : List Token} {all : s.Members}
    (h : s.reader room tokens = .ok (all, after)) :
    ∃ inner more p, s.complete p = .ok all ∧
      (s.members inner more.length true s.nothing more = .ok (p, after) ∨
        s.elements inner s.fields 0 s.nothing more = .ok (p, after)) := by
  unfold reader at h
  split at h
  · cases h
  · cases h
  · rename_i room more
    have hobject : s.reader (room + 1) (.openObject :: more) = .ok (all, after) := h
    obtain ⟨p, hmembers, hall⟩ := reader_object_eq_ok.1 hobject
    exact ⟨room, more, p, hall, .inl hmembers⟩
  · rename_i room more
    have hlist : s.reader (room + 1) (.openList :: more) = .ok (all, after) := h
    obtain ⟨p, helements, hall⟩ := reader_list_eq_ok.1 hlist
    exact ⟨room, more, p, hall, .inr helements⟩
  · cases h

theorem readerOf_eq_ok {α : Type} {make : s.Members → α} {room : Nat} {tokens after : List Token}
    {x : α} :
    s.readerOf make room tokens = .ok (x, after) ↔
      ∃ all, s.reader room tokens = .ok (all, after) ∧ make all = x := by
  simp only [readerOf]
  cases s.reader room tokens <;> simp [Except.map, Prod.ext_iff, and_comm]

theorem takes_readerOf {α : Type} (make : s.Members → α) {room : Nat} {used : List Token}
    {all : s.Members} (h : Takes s.reader room used all) :
    Takes (s.readerOf make) room used (make all) :=
  fun rest => readerOf_eq_ok.2 ⟨all, h rest, rfl⟩

-- What the members of an object add to the fields that were read before them.
inductive Collects (s : Schema) (room : Nat) :
    s.Partial → List (Option String × List Token) → s.Partial → Prop
  | nil (p : s.Partial) : Collects s room p [] p
  | known {p q : s.Partial} {key : String} {f : s.Field} {x : s.Content f} {tokens : List Token}
    {ms : List (Option String × List Token)} (hf : s.fieldNamed? key = some f) (hp : p f = none)
    (hx : Takes (s.read f) room tokens x) (h : Collects s room (s.set p f x) ms q) :
    Collects s room p ((some key, tokens) :: ms) q
  | unknown {p q : s.Partial} {key : String} {tokens : List Token}
    {ms : List (Option String × List Token)} (hf : s.fieldNamed? key = none)
    (h : Collects s room p ms q) : Collects s room p ((some key, tokens) :: ms) q

-- What the items of a list add to them, with a fallback for the fields that the list is short of.
inductive Lists (s : Schema) (room : Nat) :
    List s.Field → s.Partial → List (List Token) → s.Partial → Prop
  | nil (p : s.Partial) : Lists s room [] p [] p
  | fallback {f : s.Field} {fields : List s.Field} {p q : s.Partial} {x : s.Content f}
    (hx : (s.absent f).ofList? = some x) (h : Lists s room fields (s.set p f x) [] q) :
    Lists s room (f :: fields) p [] q
  | item {f : s.Field} {fields : List s.Field} {p q : s.Partial} {x : s.Content f}
    {used : List Token} {useds : List (List Token)} (hx : Takes (s.read f) room used x)
    (h : Lists s room fields (s.set p f x) useds q) : Lists s room (f :: fields) p (used :: useds) q

section Object

variable {room : Nat} {p q : s.Partial} {ms : List (Option String × List Token)}

theorem members_of_collects (hvalue : ∀ m ∈ ms, IsValue m.2) (h : Collects s room p ms q)
    {fuel : Nat} (hfuel : ms.length < fuel) (first : Bool) (rest : List Token) :
    s.members room fuel first p (separated first (ms.map memberTokens) ++ .closeObject :: rest) =
      .ok (q, rest) := by
  induction h generalizing fuel first with
  | nil p =>
    obtain ⟨fuel, rfl⟩ := Nat.exists_eq_add_one_of_ne_zero (Nat.ne_zero_of_lt hfuel)
    rfl
  | @known p q key f x tokens ms hf hp hx _ ih =>
    rw [List.forall_mem_cons] at hvalue
    obtain ⟨fuel, rfl⟩ := Nat.exists_eq_add_one_of_ne_zero (Nat.ne_zero_of_lt hfuel)
    rw [List.length_cons, Nat.add_lt_add_iff_right] at hfuel
    rw [List.map_cons, separated_cons_append, members_succ_eq_ok]
    refine .inr ⟨key, _, _, _, rfl, ?_, ih hvalue.2 hfuel false⟩
    exact member_eq_ok.2 ⟨_, rfl, .inl ⟨f, x, hf, hp, hx _, rfl⟩⟩
  | @unknown p q key tokens ms hf _ ih =>
    rw [List.forall_mem_cons] at hvalue
    obtain ⟨fuel, rfl⟩ := Nat.exists_eq_add_one_of_ne_zero (Nat.ne_zero_of_lt hfuel)
    rw [List.length_cons, Nat.add_lt_add_iff_right] at hfuel
    rw [List.map_cons, separated_cons_append, members_succ_eq_ok]
    refine .inr ⟨key, _, _, _, rfl, ?_, ih hvalue.2 hfuel false⟩
    exact member_eq_ok.2 ⟨_, rfl, .inr ⟨hf, Reader.pass_of_isValue hvalue.1 [] _, rfl⟩⟩

theorem collects_of_members (hread : ∀ f, Exact (s.read f)) (hvalue : ∀ m ∈ ms, IsValue m.2)
    {fuel : Nat} {first : Bool} {rest after : List Token}
    (h : s.members room fuel first p
      (separated first (ms.map memberTokens) ++ .closeObject :: rest) = .ok (q, after)) :
    after = rest ∧ Collects s room p ms q := by
  induction ms generalizing fuel first p with
  | nil =>
    cases fuel with
    | zero => cases h
    | succ fuel =>
      cases h
      exact ⟨rfl, .nil _⟩
  | cons m ms ih =>
    obtain ⟨name, tokens⟩ := m
    rw [List.forall_mem_cons] at hvalue
    cases fuel with
    | zero => cases h
    | succ fuel =>
      rw [List.map_cons, separated_cons_append, members_succ_eq_ok] at h
      obtain ⟨hclose, -⟩ | ⟨key, due, next, left, htokens, hmember, hmore⟩ := h
      · cases first <;> cases hclose
      · have hdue := List.append_cancel_left htokens
        simp only [memberTokens, List.cons_append, List.cons.injEq, Token.text.injEq] at hdue
        obtain ⟨rfl, rfl⟩ := hdue
        obtain ⟨due, hcolon, ⟨f, x, hf, hp, hx, rfl⟩ | ⟨hf, hpass, rfl⟩⟩ := member_eq_ok.1 hmember
        · obtain rfl := (List.cons.inj hcolon).2
          obtain ⟨rfl, htakes⟩ := hread f hvalue.1 hx
          obtain ⟨hafter, hcollects⟩ := ih hvalue.2 hmore
          exact ⟨hafter, .known hf hp htakes hcollects⟩
        · obtain rfl := (List.cons.inj hcolon).2
          rw [Reader.pass_of_isValue hvalue.1] at hpass
          obtain rfl := Option.some.inj hpass
          obtain ⟨hafter, hcollects⟩ := ih hvalue.2 hmore
          exact ⟨hafter, .unknown hf hcollects⟩

theorem takes_object (hvalue : ∀ m ∈ ms, IsValue m.2) (h : Collects s room s.nothing ms p)
    {all : s.Members} (hall : s.complete p = .ok all) :
    Takes s.reader (room + 1) (objectTokens ms) all := by
  intro rest
  rw [objectTokens_append, reader_object_eq_ok, ← separated_true]
  refine ⟨p, members_of_collects hvalue h ?_ true rest, hall⟩
  have hne (piece : List Token) (hpiece : piece ∈ ms.map memberTokens) : piece ≠ [] := by
    obtain ⟨m, -, rfl⟩ := List.mem_map.1 hpiece
    simp [memberTokens]
  have hlength := length_le_separated true hne
  simp only [List.length_append, List.length_cons, List.length_map] at hlength ⊢
  omega

theorem collects_of_reader (hread : ∀ f, Exact (s.read f)) (hvalue : ∀ m ∈ ms, IsValue m.2)
    {rest after : List Token} {all : s.Members}
    (h : s.reader (room + 1) (objectTokens ms ++ rest) = .ok (all, after)) :
    after = rest ∧ ∃ p, Collects s room s.nothing ms p ∧ s.complete p = .ok all := by
  rw [objectTokens_append, reader_object_eq_ok, ← separated_true] at h
  obtain ⟨p, hmembers, hall⟩ := h
  obtain ⟨hafter, hcollects⟩ := collects_of_members hread hvalue hmembers
  exact ⟨hafter, p, hcollects, hall⟩

end Object

section Exchange

variable {room : Nat}

theorem collects_append {p q : s.Partial} {ms ns : List (Option String × List Token)} :
    s.Collects room p (ms ++ ns) q ↔ ∃ r, s.Collects room p ms r ∧ s.Collects room r ns q := by
  constructor
  · intro h
    induction ms generalizing p with
    | nil => exact ⟨p, .nil p, h⟩
    | cons m ms ih =>
      cases h with
      | known hf hp hx hmore =>
        obtain ⟨r, hms, hns⟩ := ih hmore
        exact ⟨r, .known hf hp hx hms, hns⟩
      | unknown hf hmore =>
        obtain ⟨r, hms, hns⟩ := ih hmore
        exact ⟨r, .unknown hf hms, hns⟩
  · rintro ⟨r, hms, hns⟩
    induction hms with
    | nil p => exact hns
    | known hf hp hx _ ih => exact .known hf hp hx (ih hns)
    | unknown hf _ ih => exact .unknown hf (ih hns)

-- A field that has been read stays as it was read.
theorem Collects.keeps {p q : s.Partial} {ms : List (Option String × List Token)}
    (h : s.Collects room p ms q) {f : s.Field} {x : s.Content f} (hx : p f = some x) :
    q f = some x := by
  induction h with
  | nil p => exact hx
  | @known p q key g y tokens ms hg hp hy _ ih =>
    have hne : g ≠ f := by
      rintro rfl
      rw [hp] at hx
      cases hx
    exact ih ((set_of_ne hne p y).trans hx)
  | unknown hf _ ih => exact ih hx

-- Members that belong to none of some fields neither change these fields nor depend on them.
theorem Collects.frame {p q : s.Partial} {ms : List (Option String × List Token)}
    (h : s.Collects room p ms q) {S : s.Field → Prop}
    (hS : ∀ m ∈ ms, ∀ key f, m.1 = some key → s.fieldNamed? key = some f → ¬ S f)
    {p' : s.Partial} (hp' : ∀ f, ¬ S f → p' f = p f) :
    (∀ f, S f → q f = p f) ∧
      ∃ q', s.Collects room p' ms q' ∧ (∀ f, ¬ S f → q' f = q f) ∧ ∀ f, S f → q' f = p' f := by
  induction h generalizing p' with
  | nil p => exact ⟨fun _ _ => rfl, p', .nil p', hp', fun _ _ => rfl⟩
  | @known p q key f x tokens ms hf hp hx _ ih =>
    rw [List.forall_mem_cons] at hS
    have hfS : ¬ S f := hS.1 key f rfl hf
    have hset : ∀ g, ¬ S g → s.set p' f x g = s.set p f x g := by
      intro g hg
      by_cases hfg : f = g
      · subst hfg
        rw [set_self, set_self]
      · rw [set_of_ne hfg, set_of_ne hfg, hp' g hg]
    have hother (r : s.Partial) {g : s.Field} (hg : S g) : s.set r f x g = r g := by
      have hfg : f ≠ g := fun heq => hfS (heq ▸ hg)
      exact set_of_ne hfg r x
    obtain ⟨hkept, q', hcollects, hsame, hkept'⟩ := ih hS.2 hset
    refine ⟨fun g hg => (hkept g hg).trans (hother p hg), q', ?_, hsame,
      fun g hg => (hkept' g hg).trans (hother p' hg)⟩
    exact .known hf ((hp' f hfS).trans hp) hx hcollects
  | unknown hf _ ih =>
    rw [List.forall_mem_cons] at hS
    obtain ⟨hkept, q', hcollects, hsame, hkept'⟩ := ih hS.2 hp'
    exact ⟨hkept, q', .unknown hf hcollects, hsame, hkept'⟩

-- One member is replaced by a member for another field, and no other member is for either field.
theorem Collects.exchange {p q : s.Partial} {before after : List (Option String × List Token)}
    {f g : s.Field} {tokens used : List Token} {y : s.Content g}
    (h : s.Collects room p (before ++ (some (s.key f), tokens) :: after) q)
    (hkeys : (s.fields.map s.key).Nodup) (hfg : f ≠ g)
    (houtside : ∀ m ∈ before ++ after, m.1 ≠ some (s.key f) ∧ m.1 ≠ some (s.key g))
    (hg : p g = none) (hy : Takes (s.read g) room used y) :
    ∃ x q', Takes (s.read f) room tokens x ∧ q f = some x ∧ q g = none ∧
      s.Collects room p (before ++ (some (s.key g), used) :: after) q' ∧ q' f = none ∧
      q' g = some y ∧ ∀ field, field ≠ f → field ≠ g → q' field = q field := by
  have hS (m) (hm : m ∈ before ++ after) (name : String) (field : s.Field) (hname : m.1 = some name)
      (hfield : s.fieldNamed? name = some field) : ¬ (field = f ∨ field = g) := by
    have hkey : m.1 = some (s.key field) := by rw [hname, key_of_fieldNamed? hfield]
    rintro (rfl | rfl)
    · exact (houtside m hm).1 hkey
    · exact (houtside m hm).2 hkey
  obtain ⟨r, hbefore, hmore⟩ := collects_append.1 h
  obtain ⟨hkept, -⟩ := hbefore.frame (fun m hm => hS m (List.mem_append_left _ hm))
    fun _ _ => rfl
  have hkey := fieldNamed?_key hkeys f
  cases hmore with
  | unknown hnone _ =>
    rw [hkey] at hnone
    cases hnone
  | @known _ _ _ field x _ _ hfield hr hx hafter =>
    obtain rfl : f = field := Option.some.inj (hkey.symm.trans hfield)
    have hset (field : s.Field) (houter : ¬ (field = f ∨ field = g)) :
        s.set r g y field = s.set r f x field := by
      rw [not_or] at houter
      rw [set_of_ne (Ne.symm houter.2), set_of_ne (Ne.symm houter.1)]
    obtain ⟨hq, q', hcollects, hsame, hq'⟩ :=
      hafter.frame (fun m hm => hS m (List.mem_append_right _ hm)) hset
    have hrg : r g = none := (hkept g (.inr rfl)).trans hg
    have hexchanged : s.Collects room p (before ++ (some (s.key g), used) :: after) q' :=
      collects_append.2 ⟨r, hbefore, .known (fieldNamed?_key hkeys g) hrg hy hcollects⟩
    refine ⟨x, q', hx, ?_, ?_, hexchanged, ?_, ?_,
      fun field hf hg => hsame field (not_or.2 ⟨hf, hg⟩)⟩
    · rw [hq f (.inl rfl), set_self]
    · rw [hq g (.inr rfl), set_of_ne hfg, hrg]
    · rw [hq' f (.inl rfl), set_of_ne (Ne.symm hfg), hr]
    · rw [hq' g (.inr rfl), set_self]

-- The same for whole records: the fields that lose or lack their member take their fallbacks.
theorem reader_exchange (hread : ∀ f, Exact (s.read f)) (hkeys : (s.fields.map s.key).Nodup)
    {before after : List (Option String × List Token)} {f g : s.Field} {tokens used : List Token}
    {x : s.Content f} {y : s.Content g} (hfg : f ≠ g)
    (hothers : ∀ m ∈ before ++ after,
      IsValue m.2 ∧ m.1 ≠ some (s.key f) ∧ m.1 ≠ some (s.key g))
    (htokens : IsValue tokens) (hused : IsValue used) (hy : Takes (s.read g) room used y)
    (hx : (s.absent f).ofObject? = some x) {all : s.Members}
    (h : s.reader (room + 1) (objectTokens (before ++ (some (s.key f), tokens) :: after)) =
      .ok (all, [])) :
    Takes (s.read f) room tokens (all f) ∧ (s.absent g).ofObject? = some (all g) ∧
      ∃ other, Takes s.reader (room + 1)
          (objectTokens (before ++ (some (s.key g), used) :: after)) other ∧
        other f = x ∧ other g = y ∧ ∀ field, field ≠ f → field ≠ g → other field = all field := by
  have hvalue {name : Option String} {ts : List Token} (hts : IsValue ts) :
      ∀ m ∈ before ++ (name, ts) :: after, IsValue m.2 := by
    intro m hm
    rw [List.mem_append, List.mem_cons] at hm
    obtain hm | rfl | hm := hm
    · exact (hothers m (List.mem_append_left _ hm)).1
    · exact hts
    · exact (hothers m (List.mem_append_right _ hm)).1
  rw [← List.append_nil (objectTokens _)] at h
  obtain ⟨-, p, hcollects, hcomplete⟩ := collects_of_reader hread (hvalue htokens) h
  rw [complete_eq_ok] at hcomplete
  obtain ⟨z, q, hz, hpf, hpg, hexchanged, hqf, hqg, hsame⟩ :=
    hcollects.exchange hkeys hfg (fun m hm => (hothers m hm).2) rfl hy
  obtain rfl : all f = z := Option.some.inj ((hcomplete f).symm.trans (filled_of_some hpf))
  have hq (field : s.Field) : s.filled q field = some ((s.filled q field).getD (all field)) := by
    by_cases hf : field = f
    · subst hf
      rw [filled_of_none hqf, hx, Option.getD_some]
    by_cases hg : field = g
    · subst hg
      rw [filled_of_some hqg, Option.getD_some]
    · rw [filled_congr (hsame field hf hg), hcomplete, Option.getD_some]
  refine ⟨hz, (filled_of_none hpg).symm.trans (hcomplete g), _,
    takes_object (hvalue hused) hexchanged (complete_eq_ok.2 hq), ?_, ?_, fun field hf hg => ?_⟩
  · rw [filled_of_none hqf, hx, Option.getD_some]
  · rw [filled_of_some hqg, Option.getD_some]
  · rw [filled_congr (hsame field hf hg), hcomplete, Option.getD_some]

end Exchange

section List

variable {room : Nat} {fields : List s.Field} {p q : s.Partial} {useds : List (List Token)}

theorem elements_of_lists (hvalue : ∀ used ∈ useds, IsValue used)
    (h : Lists s room fields p useds q) (position : Nat) (rest : List Token) :
    s.elements room fields position p (separated (position == 0) useds ++ .closeList :: rest) =
      .ok (q, rest) := by
  induction h generalizing position with
  | nil p => rfl
  | @fallback f fields p q x hx _ ih =>
    exact elements_cons_eq_ok.2 (.inl ⟨x, rfl, hx, ih hvalue (position + 1)⟩)
  | @item f fields p q x used useds hx _ ih =>
    rw [List.forall_mem_cons] at hvalue
    rw [separated_cons_append, elements_cons_eq_ok]
    exact .inr ⟨_, x, _, Reader.head?_lead_append_ne hvalue.1 _ _, rfl, hx _,
      ih hvalue.2 (position + 1)⟩

theorem lists_of_elements (hread : ∀ f, Exact (s.read f))
    (hvalue : ∀ used ∈ useds, IsValue used) (position : Nat) {rest after : List Token}
    (h : s.elements room fields position p
      (separated (position == 0) useds ++ .closeList :: rest) = .ok (q, after)) :
    after = rest ∧ Lists s room fields p useds q := by
  induction fields generalizing position p useds with
  | nil =>
    obtain ⟨htokens, rfl⟩ := elements_nil_eq_ok.1 h
    cases useds with
    | nil =>
      cases htokens
      exact ⟨rfl, .nil _⟩
    | cons used useds =>
      rw [separated_cons_append] at htokens
      have hhead := Reader.head?_lead_append_ne (hvalue used List.mem_cons_self) (position == 0)
        (separated false useds ++ .closeList :: rest)
      rw [htokens] at hhead
      exact absurd rfl hhead
  | cons f fields ih =>
    cases useds with
    | nil =>
      obtain ⟨x, -, hx, hmore⟩ | ⟨due, x, left, hhead, -⟩ := elements_cons_eq_ok.1 h
      · obtain ⟨hafter, hlists⟩ := ih hvalue (position + 1) hmore
        exact ⟨hafter, .fallback hx hlists⟩
      · exact absurd rfl hhead
    | cons used useds =>
      rw [List.forall_mem_cons] at hvalue
      have hhead := Reader.head?_lead_append_ne hvalue.1 (position == 0)
        (separated false useds ++ .closeList :: rest)
      rw [separated_cons_append, elements_cons_eq_ok] at h
      obtain ⟨x, hclose, -⟩ | ⟨due, x, left, -, htokens, hx, hmore⟩ := h
      · exact absurd hclose hhead
      · obtain rfl := List.append_cancel_left htokens
        obtain ⟨rfl, htakes⟩ := hread f hvalue.1 hx
        obtain ⟨hafter, hlists⟩ := ih hvalue.2 (position + 1) hmore
        exact ⟨hafter, .item htakes hlists⟩

theorem takes_elements (hvalue : ∀ used ∈ useds, IsValue used)
    (h : Lists s room s.fields s.nothing useds p) {all : s.Members}
    (hall : s.complete p = .ok all) :
    Takes s.reader (room + 1) (listTokens useds) all := by
  intro rest
  rw [listTokens_append, reader_list_eq_ok, ← separated_true]
  exact ⟨p, elements_of_lists hvalue h 0 rest, hall⟩

end List

section Reader

variable (hread : ∀ f, Exact (s.read f)) {room : Nat} {all : s.Members}

include hread

theorem takes_reader_object_iff {ms : List (Option String × List Token)}
    (hvalue : ∀ m ∈ ms, IsValue m.2) :
    Takes s.reader room (objectTokens ms) all ↔
      ∃ inner p, room = inner + 1 ∧ s.Collects inner s.nothing ms p ∧ s.complete p = .ok all := by
  constructor
  · intro htakes
    have h := htakes []
    cases room with
    | zero => cases h
    | succ inner =>
      obtain ⟨-, p, hcollects, hall⟩ := collects_of_reader hread hvalue h
      exact ⟨inner, p, rfl, hcollects, hall⟩
  · rintro ⟨inner, p, rfl, hcollects, hall⟩
    exact takes_object hvalue hcollects hall

theorem takes_reader_list_iff {useds : List (List Token)} (hvalue : ∀ used ∈ useds, IsValue used) :
    Takes s.reader room (listTokens useds) all ↔
      ∃ inner p, room = inner + 1 ∧ s.Lists inner s.fields s.nothing useds p ∧
        s.complete p = .ok all := by
  constructor
  · intro htakes
    have h := htakes []
    cases room with
    | zero => cases h
    | succ inner =>
      rw [listTokens_append, reader_list_eq_ok, ← separated_true] at h
      obtain ⟨p, helements, hall⟩ := h
      exact ⟨inner, p, rfl, (lists_of_elements hread hvalue 0 helements).2, hall⟩
  · rintro ⟨inner, p, rfl, hlists, hall⟩
    exact takes_elements hvalue hlists hall

end Reader

theorem exact_reader (hread : ∀ f, Exact (s.read f)) : Exact s.reader := by
  intro room used rest after all hused h
  cases hused with
  | @object ms hvalue =>
    cases room with
    | zero => cases h
    | succ room =>
      obtain ⟨rfl, p, hcollects, hall⟩ := collects_of_reader hread hvalue h
      exact ⟨rfl, takes_object hvalue hcollects hall⟩
  | @list useds hvalue =>
    cases room with
    | zero => cases h
    | succ room =>
      rw [listTokens_append, reader_list_eq_ok, ← separated_true] at h
      obtain ⟨p, helements, hall⟩ := h
      obtain ⟨hafter, hlists⟩ := lists_of_elements hread hvalue 0 helements
      exact ⟨hafter, takes_elements hvalue hlists hall⟩
  | _ => cases room <;> cases h

theorem exact_readerOf_of_exact {α : Type} (make : s.Members → α) (hread : Exact s.reader) :
    Exact (s.readerOf make) := by
  intro room used rest after x hused h
  obtain ⟨all, hall, rfl⟩ := readerOf_eq_ok.1 h
  obtain ⟨hafter, htakes⟩ := hread hused hall
  exact ⟨hafter, takes_readerOf make htakes⟩

theorem exact_readerOf {α : Type} (make : s.Members → α) (hread : ∀ f, Exact (s.read f)) :
    Exact (s.readerOf make) :=
  exact_readerOf_of_exact make (exact_reader hread)

theorem takes_readerOf_iff {α : Type} {make : s.Members → α} (hread : Exact s.reader)
    {room : Nat} {used : List Token} (hused : IsValue used) {x : α} :
    Takes (s.readerOf make) room used x ↔ ∃ all, Takes s.reader room used all ∧ make all = x := by
  constructor
  · intro htakes
    obtain ⟨all, hall, hx⟩ := readerOf_eq_ok.1 (htakes [])
    exact ⟨all, (hread hused hall).2, hx⟩
  · rintro ⟨all, htakes, rfl⟩
    exact takes_readerOf make htakes

end Tariff.Json.Schema
