import Tariff.Proofs.Machine.Execute
import Tariff.Proofs.Machine.Height
import Tariff.Proofs.Pricing.Agreement

namespace Tariff

namespace Machine

-- Both runs agree with one run of heights, and the first has shown how that one ends.
theorem run_ok_of_run_ok {left right : Environment}
    (hpool : left.constants.length = right.constants.length) {script : Script} {stack : Stack}
    (h : run left script = .ok stack) :
    (∃ other, run right script = .ok other ∧ other.length = stack.length) ∨
      ∃ failure, run right script = .error failure ∧ failure.fault.isArithmetic = true := by
  have hright := run_agrees right script
  rw [← hpool, heights_of_run_ok h] at hright
  cases hr : run right script with
  | ok other =>
    rw [hr] at hright
    exact .inl ⟨other, rfl, hright⟩
  | error failure =>
    rw [hr] at hright
    exact .inr ⟨failure, rfl, hright⟩

theorem run_error_of_run_error {left right : Environment}
    (hpool : left.constants.length = right.constants.length) {script : Script} {failure : Failure}
    (h : run left script = .error failure) (hfault : failure.fault.isArithmetic = false) :
    run right script = .error failure ∨
      ∃ earlier, run right script = .error earlier ∧ earlier.position < failure.position ∧
        earlier.fault.isArithmetic = true := by
  have hright := run_agrees right script
  rw [← hpool, heights_of_run_error h hfault] at hright
  cases hr : run right script with
  | ok other =>
    rw [hr] at hright
    exact hright.elim
  | error found =>
    rw [hr] at hright
    obtain rfl | ⟨hlt, harith⟩ := hright
    · exact .inl rfl
    · exact .inr ⟨found, rfl, hlt, harith⟩

end Machine

-- The pool is the program's own, so only the contexts differ.
theorem Program.run_ok_of_run_ok {p : Program} {index : Nat} {context : Context}
    {stack : List Amount} (h : p.run index context = .ok stack) (other : Context) :
    (∃ found, p.run index other = .ok found ∧ found.length = stack.length) ∨
      ∃ failure : Machine.Failure, p.run index other = .error (.step failure) ∧
        failure.fault.isArithmetic = true := by
  have hpool : (p.environment context).constants.length =
      (p.environment other).constants.length := rfl
  obtain ⟨script, first, hs, hr, rfl⟩ := Program.run_eq_ok h
  simp only [Program.run, hs]
  obtain ⟨second, hsecond, hheight⟩ | ⟨failure, hfailure, harith⟩ :=
    Machine.run_ok_of_run_ok hpool hr
  · rw [hsecond]
    refine .inl ⟨_, rfl, ?_⟩
    simp only [Machine.bottomUp, List.length_reverse, hheight]
  · rw [hfailure]
    exact .inr ⟨failure, rfl, harith⟩

theorem Asset.evaluate_of_evaluate_ok {a : Asset} {context : Context} {pairs : List PricePair}
    (h : a.evaluate context = .ok pairs) (other : Context) :
    (∃ found, a.evaluate other = .ok found) ∨
      ∃ failure : Machine.Failure, a.evaluate other = .error (.run (.step failure)) ∧
        failure.fault.isArithmetic = true := by
  obtain ⟨stack, hrun, hlen, -⟩ := evaluate_eq_ok h
  have hother := Program.run_ok_of_run_ok hrun other
  cases he : a.evaluate other with
  | ok found => exact .inl ⟨found, rfl⟩
  | error error =>
    obtain ⟨cause, hcause, rfl⟩ | ⟨second, hsecond, hne, -⟩ := evaluate_eq_error he
    · obtain ⟨found, hfound, -⟩ | ⟨failure, hfailure, harith⟩ := hother
      · cases hfound.symm.trans hcause
      · cases hfailure.symm.trans hcause
        exact .inr ⟨failure, rfl, harith⟩
    · obtain ⟨found, hfound, hsame⟩ | ⟨failure, hfailure, -⟩ := hother
      · cases hfound.symm.trans hsecond
        exact absurd (hsame.trans hlen) hne
      · cases hfailure.symm.trans hsecond

-- Two runs over pools of one size go through the same heights, so only arithmetic can fail in one
-- and not in the other.
theorem evaluation_shape_independent_of_values :
    (∀ (script : Script) (left right : Machine.Environment),
      left.constants.length = right.constants.length →
      (∀ stack, Machine.run left script = .ok stack →
        (∃ other, Machine.run right script = .ok other ∧ other.length = stack.length) ∨
          ∃ failure, Machine.run right script = .error failure ∧
            failure.fault.isArithmetic = true) ∧
      ∀ failure, Machine.run left script = .error failure →
        failure.fault.isArithmetic = false →
        Machine.run right script = .error failure ∨
          ∃ earlier, Machine.run right script = .error earlier ∧
            earlier.position < failure.position ∧ earlier.fault.isArithmetic = true) ∧
    ∀ (a : Asset) (context other : Context) (pairs : List PricePair),
      a.evaluate context = .ok pairs →
      (∃ found, a.evaluate other = .ok found) ∨
        ∃ failure : Machine.Failure, a.evaluate other = .error (.run (.step failure)) ∧
          failure.fault.isArithmetic = true := by
  constructor
  · intro script left right hpool
    refine ⟨fun stack h => Machine.run_ok_of_run_ok hpool h, ?_⟩
    intro failure h hfault
    exact Machine.run_error_of_run_error hpool h hfault
  · intro a context other pairs h
    exact Asset.evaluate_of_evaluate_ok h other

-- Divides a constant by the units, and then adds to a stack of one.
def brokenQuotient : Script :=
  ⟨[.of .constant 0, .of .context 1, .of .div 0, .of .add 0]⟩

-- With no units the same script stops one step earlier.
theorem evaluation_shape_brokenQuotient :
    (Machine.run ⟨[.one], ⟨.zero, .one⟩⟩ brokenQuotient = .error ⟨3, .stackUnderflow 2 1⟩ ∧
      (Machine.run ⟨[.zero], ⟨.zero, .zero⟩⟩ brokenQuotient = .error ⟨3, .stackUnderflow 2 1⟩ ∨
        ∃ earlier, Machine.run ⟨[.zero], ⟨.zero, .zero⟩⟩ brokenQuotient = .error earlier ∧
          earlier.position < 3 ∧ earlier.fault.isArithmetic = true)) ∧
    ∀ other : Context, (∃ found, (Offer.twoCurrencies.toAsset 1 .epoch).evaluate other = .ok found) ∨
      ∃ failure : Machine.Failure,
        (Offer.twoCurrencies.toAsset 1 .epoch).evaluate other = .error (.run (.step failure)) ∧
          failure.fault.isArithmetic = true := by
  obtain ⟨hruns, hassets⟩ := evaluation_shape_independent_of_values
  have hfirst : Machine.run ⟨[.one], ⟨.zero, .one⟩⟩ brokenQuotient =
      .error ⟨3, .stackUnderflow 2 1⟩ := rfl
  obtain ⟨-, hfails⟩ :=
    hruns brokenQuotient ⟨[.one], ⟨.zero, .one⟩⟩ ⟨[.zero], ⟨.zero, .zero⟩⟩ rfl
  refine ⟨⟨hfirst, hfails _ hfirst rfl⟩, ?_⟩
  intro other
  exact hassets _ ⟨.zero, .one⟩ other _ rfl

end Tariff
