import Mathlib.Data.List.Induction
import Mathlib.Data.List.Nodup
import Tariff.Catalogue

namespace Tariff

namespace Catalogue

inductive Call
  | register (offer : Offer) (now : Timestamp)
  | get (id : Nat)
  | list
  | count
  | contains (id : Nat)
  | price (id index : Nat) (context : Context)
  | cost (id : Nat) (context : Context)
  | quote (id index : Nat) (context : Context)

inductive Reply
  | registered (result : Except PricingError Nat)
  | asset (found : Option Asset)
  | assets (all : List Asset)
  | count (size : Nat)
  | contained (found : Bool)
  | price (result : Except PricingError Amount)
  | cost (result : Except PricingError Cost)
  | quote (result : Except PricingError Quote)

-- A refused offer leaves the catalogue that it was offered to.
def serve (c : Catalogue) : Call → Reply × Catalogue
  | .register offer now =>
    match c.register offer now with
    | .error error => (.registered (.error error), c)
    | .ok (asset, next) => (.registered (.ok asset.id), next)
  | .get id => (.asset (c.get? id), c)
  | .list => (.assets c.assets, c)
  | .count => (.count c.size, c)
  | .contains id => (.contained (c.contains id), c)
  | .price id index context => (.price (c.price id index context), c)
  | .cost id context => (.cost (c.cost id context), c)
  | .quote id index context => (.quote (c.quote id index context), c)

def serveAll (c : Catalogue) : List Call → List Reply × Catalogue
  | [] => ([], c)
  | call :: rest =>
    let (reply, next) := c.serve call
    let (replies, last) := next.serveAll rest
    (reply :: replies, last)

-- The number that a reply gives out.
def Reply.issued? : Reply → Option Nat
  | .registered (.ok id) => some id
  | _ => none

structure Acceptance where
  offer : Offer
  now : Timestamp

namespace Acceptance

def asset (a : Acceptance) (id : Nat) : Asset :=
  a.offer.toAsset id a.now

end Acceptance

def Call.acceptance? : Call → Reply → Option Acceptance
  | .register offer now, .registered (.ok _) => some ⟨offer, now⟩
  | _, _ => none

-- The offers that were accepted, in their order.
def accepted (calls : List Call) (replies : List Reply) : List Acceptance :=
  (calls.zip replies).filterMap fun (call, reply) => call.acceptance? reply

def numbered (history : List Acceptance) : List (Nat × Asset) :=
  (history.mapIdx fun k a => (k + 1, a.asset (k + 1))).reverse

-- The catalogue holds these offers and nothing else.
structure Holds (c : Catalogue) (history : List Acceptance) : Prop where
  sound : ∀ a ∈ history, a.offer.problem? = none
  nextId_eq : c.nextId = history.length + 1
  entries_eq : c.entries = numbered history

theorem numbered_concat (history : List Acceptance) (a : Acceptance) :
    numbered (history ++ [a]) =
      (history.length + 1, a.asset (history.length + 1)) :: numbered history := by
  simp only [numbered, List.mapIdx_concat, List.reverse_append, List.reverse_cons, List.reverse_nil,
    List.nil_append, List.cons_append]

theorem mem_numbered {history : List Acceptance} {entry : Nat × Asset}
    (h : entry ∈ numbered history) :
    ∃ k a, history[k]? = some a ∧ entry = (k + 1, a.asset (k + 1)) := by
  simp only [numbered, List.mem_reverse, List.mem_mapIdx] at h
  obtain ⟨k, hk, rfl⟩ := h
  exact ⟨k, history[k], List.getElem?_eq_getElem hk, rfl⟩

theorem lookup_numbered (history : List Acceptance) (k : Nat) :
    (numbered history).lookup (k + 1) = history[k]?.map (·.asset (k + 1)) := by
  induction history using List.reverseRecOn with
  | nil => rfl
  | append_singleton history a ih =>
    rw [numbered_concat, List.lookup_cons]
    by_cases hk : k = history.length
    · subst hk
      simp
    · have hne : (k + 1 == history.length + 1) = false := by simpa using hk
      rw [hne, ih]
      by_cases hlt : k < history.length
      · rw [List.getElem?_append_left hlt]
      · rw [List.getElem?_eq_none (by omega), List.getElem?_eq_none (by simp; omega)]

theorem holds_empty : Holds empty [] where
  sound := by simp
  nextId_eq := rfl
  entries_eq := rfl

-- Every number in use is below the next one, so no entry is replaced.
theorem insert_nextId {c : Catalogue} {history : List Acceptance} (h : Holds c history)
    (asset : Asset) :
    (c.insert c.nextId asset).entries = (history.length + 1, asset) :: numbered history := by
  have hfresh : ∀ entry ∈ numbered history, (entry.1 != history.length + 1) = true := by
    intro entry hentry
    obtain ⟨k, a, hk, rfl⟩ := mem_numbered hentry
    obtain ⟨hlt, -⟩ := List.getElem?_eq_some_iff.mp hk
    rw [bne_iff_ne]
    omega
  simp only [insert, h.entries_eq, h.nextId_eq, List.filter_eq_self.mpr hfresh]

theorem register_of_problem (c : Catalogue) {o : Offer} {error : PricingError}
    (h : o.problem? = some error) (now : Timestamp) : c.register o now = .error error := by
  rw [register, Offer.accept_eq_error.2 h]

theorem register_of_sound (c : Catalogue) {o : Offer} (h : o.problem? = none) (now : Timestamp) :
    c.register o now = .ok (o.toAsset c.nextId now,
      { c.insert c.nextId (o.toAsset c.nextId now) with nextId := c.nextId + 1 }) := by
  rw [register, Offer.accept_eq_ok.2 ⟨h, rfl⟩]
  rfl

theorem get?_insert (c : Catalogue) (id : Nat) (a : Asset) :
    (c.insert id a).get? id = some a := by
  simp [get?, insert]

theorem get?_of_register {c next : Catalogue} {o : Offer} {now : Timestamp} {a : Asset}
    (h : c.register o now = .ok (a, next)) : next.get? a.id = some a := by
  cases hproblem : o.problem? with
  | some error => cases h.symm.trans (c.register_of_problem hproblem now)
  | none =>
    cases h.symm.trans (c.register_of_sound hproblem now)
    exact c.get?_insert c.nextId _

theorem register_eq_ok {c next : Catalogue} {history : List Acceptance} (h : Holds c history)
    {offer : Offer} {now : Timestamp} {asset : Asset}
    (hr : c.register offer now = .ok (asset, next)) :
    asset.id = history.length + 1 ∧ Holds next (history ++ [⟨offer, now⟩]) := by
  unfold register at hr
  cases ha : offer.accept unassignedId now with
  | error error =>
    rw [ha] at hr
    cases hr
  | ok built =>
    rw [ha] at hr
    cases hr
    obtain ⟨hproblem, rfl⟩ := Offer.accept_eq_ok.mp ha
    refine ⟨h.nextId_eq, ?_, ?_, ?_⟩
    · intro a hmem
      rcases List.mem_append.mp hmem with hold | hnew
      · exact h.sound a hold
      · rw [List.mem_singleton.mp hnew]
        exact hproblem
    · simp only [h.nextId_eq, List.length_append, List.length_singleton]
    · rw [numbered_concat]
      simp only [insert_nextId h]
      rw [h.nextId_eq]
      rfl

theorem Holds.serve {c : Catalogue} {history : List Acceptance} (h : Holds c history)
    (call : Call) :
    Holds (c.serve call).2 (history ++ (call.acceptance? (c.serve call).1).toList) ∧
      (c.serve call).1.issued? =
        (call.acceptance? (c.serve call).1).map fun _ => history.length + 1 := by
  cases call with
  | register offer now =>
    simp only [Catalogue.serve]
    cases hr : c.register offer now with
    | error error => simpa [Call.acceptance?, Reply.issued?] using h
    | ok result =>
      obtain ⟨asset, next⟩ := result
      obtain ⟨hid, hnext⟩ := register_eq_ok h hr
      exact ⟨hnext, congrArg some hid⟩
  | get | list | count | contains | price | cost | quote =>
    simpa [Catalogue.serve, Call.acceptance?, Reply.issued?] using h

theorem accepted_cons (call : Call) (calls : List Call) (reply : Reply) (replies : List Reply) :
    accepted (call :: calls) (reply :: replies) =
      (call.acceptance? reply).toList ++ accepted calls replies := by
  cases h : call.acceptance? reply <;> simp [accepted, h]

-- The induction is on the calls that are left, with the history that came before them.
theorem Holds.serveAll {c : Catalogue} {history : List Acceptance} (h : Holds c history)
    (calls : List Call) :
    Holds (c.serveAll calls).2 (history ++ accepted calls (c.serveAll calls).1) ∧
      (c.serveAll calls).1.filterMap Reply.issued? =
        List.range' (history.length + 1) (accepted calls (c.serveAll calls).1).length := by
  induction calls generalizing c history with
  | nil => exact ⟨by simpa [accepted, Catalogue.serveAll] using h, rfl⟩
  | cons call rest ih =>
    obtain ⟨hnext, hissued⟩ := h.serve call
    obtain ⟨hlast, hrest⟩ := ih hnext
    simp only [Catalogue.serveAll, accepted_cons]
    refine ⟨by rwa [← List.append_assoc], ?_⟩
    rw [List.filterMap_cons, hissued, hrest]
    cases call.acceptance? (c.serve call).1 with
    | none => simp
    | some a => simp [List.range'_succ]

-- A word that starts at the first number and is increased by each acceptance.
def counter (history : List Acceptance) : UInt64 :=
  history.foldl (fun next _ => next + 1) (UInt64.ofNat firstId)

theorem counter_eq (history : List Acceptance) :
    counter history = UInt64.ofNat (history.length + 1) := by
  induction history using List.reverseRecOn with
  | nil => rfl
  | append_singleton history a ih =>
    have hstep : counter (history ++ [a]) = counter history + 1 := by
      simp only [counter, List.foldl_append, List.foldl_cons, List.foldl_nil]
    rw [hstep, ih, List.length_append, List.length_singleton]
    exact (UInt64.ofNat_add (history.length + 1) 1).symm

-- The word shows the next number for as long as there is one more word.
theorem Holds.toNat_counter {c : Catalogue} {history : List Acceptance} (h : Holds c history)
    (hroom : history.length < Nat.pow 2 64 - 1) : (counter history).toNat = c.nextId := by
  rw [counter_eq, h.nextId_eq]
  exact UInt64.toNat_ofNat_of_lt' (Nat.add_lt_of_lt_sub hroom)

theorem Holds.size_eq {c : Catalogue} {history : List Acceptance} (h : Holds c history) :
    c.size = history.length := by
  simp [size, h.entries_eq, numbered]

theorem Holds.get?_succ {c : Catalogue} {history : List Acceptance} (h : Holds c history)
    (k : Nat) : c.get? (k + 1) = history[k]?.map (·.asset (k + 1)) := by
  rw [get?, h.entries_eq, lookup_numbered]

theorem Holds.contains_iff {c : Catalogue} {history : List Acceptance} (h : Holds c history)
    (id : Nat) : c.contains id = true ↔ 1 ≤ id ∧ id ≤ history.length := by
  simp only [contains, h.entries_eq, List.any_eq_true, beq_iff_eq]
  constructor
  · rintro ⟨entry, hentry, rfl⟩
    obtain ⟨k, a, hk, rfl⟩ := mem_numbered hentry
    obtain ⟨hlt, -⟩ := List.getElem?_eq_some_iff.mp hk
    exact ⟨Nat.le_add_left 1 k, hlt⟩
  · rintro ⟨hpos, hle⟩
    obtain ⟨k, rfl⟩ : ∃ k, id = k + 1 := ⟨id - 1, by omega⟩
    refine ⟨(k + 1, history[k].asset (k + 1)), ?_, rfl⟩
    simp only [numbered, List.mem_reverse, List.mem_mapIdx]
    exact ⟨k, hle, rfl⟩

theorem Holds.get?_eq_none {c : Catalogue} {history : List Acceptance} (h : Holds c history)
    {id : Nat} (hid : ¬(1 ≤ id ∧ id ≤ history.length)) : c.get? id = none := by
  rw [get?, List.lookup_eq_none_iff]
  intro entry hentry
  rw [bne_iff_ne]
  rintro rfl
  exact hid ((h.contains_iff _).mp (List.any_eq_true.mpr ⟨entry, hentry, beq_self_eq_true _⟩))

-- Assets in strict order are the sorted list of every catalogue that holds just them.
theorem assets_eq_of_perm {c : Catalogue} {sorted : List Asset}
    (hperm : (c.entries.map (·.2)).Perm sorted) (hsorted : sorted.Pairwise fun a b => a.id < b.id) :
    c.assets = sorted := by
  have hle : sorted.Pairwise fun a b => decide (a.id ≤ b.id) = true :=
    hsorted.imp fun hlt => decide_eq_true (Nat.le_of_lt hlt)
  have hids : (sorted.map Asset.id).Nodup := List.pairwise_map.mpr (hsorted.imp Nat.ne_of_lt)
  rw [assets]
  refine List.Perm.eq_of_pairwise ?_ (List.pairwise_mergeSort ?_ ?_ _) hle
    ((List.mergeSort_perm _ _).trans hperm)
  · intro a b ha hb hab hba
    rw [List.mem_mergeSort, hperm.mem_iff] at ha
    have hsame : a.id = b.id := Nat.le_antisymm (of_decide_eq_true hab) (of_decide_eq_true hba)
    exact List.inj_on_of_nodup_map hids ha hb hsame
  · intro a b c hab hbc
    simp only [decide_eq_true_eq] at hab hbc ⊢
    omega
  · intro a b
    simp only [Bool.or_eq_true, decide_eq_true_eq]
    omega

-- In whatever order the entries stand, the list shows the assets as they were accepted.
theorem Holds.assets_of_perm {c : Catalogue} {history : List Acceptance} (h : Holds c history)
    {entries : List (Nat × Asset)} (hperm : entries.Perm c.entries) :
    assets { c with entries := entries } = history.mapIdx fun k a => a.asset (k + 1) := by
  have hvalues : c.entries.map (·.2) = (history.mapIdx fun k a => a.asset (k + 1)).reverse := by
    rw [h.entries_eq, numbered, List.map_reverse]
    congr 1
    apply List.ext_getElem <;> simp
  apply assets_eq_of_perm
  · apply (hperm.map (·.2)).trans
    rw [hvalues]
    exact List.reverse_perm _
  · rw [List.pairwise_iff_getElem]
    intro i j hi hj hij
    simp only [List.getElem_mapIdx, Acceptance.asset, Offer.toAsset]
    omega

theorem Holds.assets_eq {c : Catalogue} {history : List Acceptance} (h : Holds c history) :
    c.assets = history.mapIdx fun k a => a.asset (k + 1) :=
  h.assets_of_perm (.refl _)

-- What an empty catalogue has become after the calls, what it has replied, and the offers that it
-- has accepted.
def after (calls : List Call) : Catalogue :=
  (empty.serveAll calls).2

def repliesTo (calls : List Call) : List Reply :=
  (empty.serveAll calls).1

def history (calls : List Call) : List Acceptance :=
  accepted calls (repliesTo calls)

theorem holds_after (calls : List Call) : Holds (after calls) (history calls) :=
  (holds_empty.serveAll calls).1

theorem issued_repliesTo (calls : List Call) :
    (repliesTo calls).filterMap Reply.issued? = List.range' 1 (history calls).length :=
  (holds_empty.serveAll calls).2

end Catalogue

end Tariff
