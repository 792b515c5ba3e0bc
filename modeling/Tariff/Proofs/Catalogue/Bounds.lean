import Tariff.Proofs.Catalogue.Offers

namespace Tariff

namespace Offer

theorem program_of_problem?_eq_none {o : Offer} (h : o.problem? = none) :
    0 < o.program.sources.length ∧ o.program.outOfPool? = none := by
  have hsound := problem?_eq_none_iff.mp h
  exact ⟨hsound.source, Program.outOfPool?_eq_none_iff.mpr hsound.constants⟩

theorem outOfPool?_of_problem? {o : Offer} {source position poolSize : Nat} {index : UInt8}
    (h : o.problem? = some (.scriptBounds source position index poolSize)) :
    o.program.outOfPool? = some (source, position, index) ∧
      poolSize = o.program.constants.length := by
  cases problem?_eq_some_iff.mp h with
  | noConstant _ _ _ hmisses hfirst =>
    exact ⟨Program.outOfPool?_eq_some_iff.mpr ⟨hmisses, hfirst⟩, rfl⟩

end Offer

namespace Catalogue

theorem offer_of_mem_assets {calls : List Call} {a : Asset} (h : a ∈ (after calls).assets) :
    ∃ o : Offer, o.problem? = none ∧ o.program = a.program := by
  have hholds := holds_after calls
  rw [hholds.assets_eq, List.mem_mapIdx] at h
  obtain ⟨k, hk, rfl⟩ := h
  exact ⟨_, hholds.sound _ (List.getElem_mem hk), rfl⟩

-- An offer that is refused for a constant could not have been priced: its source stops at the
-- invocation that the refusal names, or before it.
theorem bounds_check_exact :
    (∀ calls : List Call, ∀ a ∈ (after calls).assets, ∀ context : Context,
      (∀ source < a.program.sources.length, ∀ error,
        a.program.run source context = .error error → error.isOutOfBounds = false) ∧
      ∀ error, a.evaluate context = .error (.run error) → error.isOutOfBounds = false) ∧
    (∀ (o : Offer) (id : Nat) (now : Timestamp) (source position : Nat) (index : UInt8)
      (poolSize : Nat), o.accept id now = .error (.scriptBounds source position index poolSize) →
      ∀ context : Context, ∃ failure, o.program.run source context = .error (.step failure) ∧
        failure.position ≤ position ∧
        (failure.position = position → failure.fault = .constantOutOfRange index poolSize)) := by
  constructor
  · intro calls a ha context
    obtain ⟨o, hproblem, hprogram⟩ := offer_of_mem_assets ha
    obtain ⟨hpos, hpool⟩ := Offer.program_of_problem?_eq_none hproblem
    rw [hprogram] at hpos hpool
    refine ⟨fun source hsource error h => Program.run_of_outOfPool?_eq_none hpool hsource h, ?_⟩
    intro error h
    obtain ⟨cause, hrun, hcause⟩ | ⟨stack, -, -, hmalformed⟩ := Asset.evaluate_eq_error h
    · cases hcause
      exact Program.run_of_outOfPool?_eq_none hpool hpos hrun
    · cases hmalformed
  · intro o id now source position index poolSize hrefused context
    obtain ⟨hpool, rfl⟩ := Offer.outOfPool?_of_problem? (Offer.accept_eq_error.mp hrefused)
    exact Program.run_of_outOfPool?_eq_some hpool context

-- Divides the units by themselves, and then asks for a constant of an empty pool.
def missingConstant : Offer :=
  { Offer.twoCurrencies with
    program :=
      ⟨[⟨[.of .context 1, .of .context 1, .of .div 0, .of .constant 9]⟩], []⟩ }

-- Adds to an empty stack: accepted, although it can never be priced.
def emptyAddition : Offer :=
  { Offer.twoCurrencies with program := ⟨[⟨[.of .add 0]⟩], []⟩ }

theorem bounds_check_missingConstant :
    (∃ failure, missingConstant.program.run 0 ⟨.zero, .one⟩ = .error (.step failure) ∧
      failure.position ≤ 3 ∧ (failure.position = 3 → failure.fault = .constantOutOfRange 9 0)) ∧
    (∃ a ∈ (after [.register missingConstant .epoch, .register emptyAddition .epoch]).assets,
      ∃ error, a.program.run 0 ⟨.zero, .one⟩ = .error error ∧ error.isOutOfBounds = false) := by
  refine ⟨bounds_check_exact.2 missingConstant 0 .epoch 0 3 9 0 rfl ⟨.zero, .one⟩, ?_⟩
  have hmem : emptyAddition.toAsset 1 .epoch ∈
      (after [.register missingConstant .epoch, .register emptyAddition .epoch]).assets := by
    rw [(holds_after _).assets_eq]
    exact List.mem_singleton_self _
  obtain ⟨hrun, -⟩ := bounds_check_exact.1 _ _ hmem ⟨.zero, .one⟩
  exact ⟨_, hmem, _, rfl, hrun 0 (by decide) _ rfl⟩

end Catalogue

end Tariff
