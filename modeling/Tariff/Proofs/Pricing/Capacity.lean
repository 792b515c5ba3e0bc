import Tariff.Proofs.Catalogue.Offers
import Tariff.Proofs.Machine.Depth

namespace Tariff

open Machine (Action Environment Failure Stack State)

theorem Program.length_of_run_ok {p : Program} {index : Nat} {context : Context}
    {values : List Amount} (h : p.run index context = .ok values) :
    values.length ≤ Machine.maxDepth := by
  obtain ⟨script, stack, -, hrun, rfl⟩ := run_eq_ok h
  rw [Machine.bottomUp, List.length_reverse]
  exact Machine.length_of_run_ok hrun

-- A pair for each currency is more than the stack can hold.
theorem Asset.exists_evaluate_eq_error {a : Asset} (h : 512 < a.currencies.length)
    (context : Context) : ∃ error, a.evaluate context = .error error := by
  cases heval : a.evaluate context with
  | error error => exact ⟨error, rfl⟩
  | ok pairs =>
    obtain ⟨stack, hrun, hlen, -⟩ := evaluate_eq_ok heval
    have hdepth : stack.length ≤ 1024 := Program.length_of_run_ok hrun
    omega

namespace Offer

-- The same offer in as many currencies as are asked for.
def widened (o : Offer) (count : Nat) : Offer :=
  { o with
    currencies :=
      ⟨List.replicate count .zero, List.replicate count .zero, List.replicate count .erc20⟩ }

theorem Sound.widened {o : Offer} (h : o.Sound) {count : Nat} (hcount : 0 < count) :
    (o.widened count).Sound where
  aligned := by simp [CurrencyTable.Aligned, Offer.widened]
  currency := by simpa [Offer.widened] using hcount
  source := h.source
  constants := h.constants

theorem Sound.register_widened {o : Offer} (h : o.Sound) {count : Nat} (hcount : 0 < count)
    (c : Catalogue) (now : Timestamp) :
    ∃ a next, c.register (o.widened count) now = .ok (a, next) ∧ a.program = o.program ∧
      a.currencies.length = count := by
  have hsound := h.widened hcount
  have hkept := hsound.keptBy_toAsset c.nextId now
  refine ⟨_, _, c.register_of_sound hsound.problem?_eq_none now, hkept.program, ?_⟩
  rw [hkept.length_currencies]
  exact List.length_replicate

end Offer

theorem stack_bounded_and_failures_accounted_for :
    -- whatever is done to a machine, and whatever fails
    (∀ (env : Environment) (actions : List Action) (s : State),
      (State.new env).afterAll actions = s →
      s.stack.length ≤ 1024 ∧ s.env = env ∧
      ∀ action fault left, s.attempt action = .failed fault left →
        s.FailsWith action fault left) ∧
    -- what this means for runs
    (∀ (env : Environment) (script : Script) (stack : Stack),
      Machine.run env script = .ok stack → (Machine.bottomUp stack).length ≤ 1024) ∧
    (∀ (env : Environment) (script : Script), script.length ≤ 1024 →
      ∀ failure : Failure, Machine.run env script = .error failure →
        failure.fault ≠ .stackOverflow) ∧
    -- and for assets
    (∀ a : Asset, 512 < a.currencies.length → ∀ context, ∃ error,
      a.evaluate context = .error error) ∧
    ∀ o : Offer, o.Sound → ∀ count, 512 < count → ∀ (c : Catalogue) (now : Timestamp),
      ∃ a next, c.register (o.widened count) now = .ok (a, next) ∧ a.program = o.program ∧
        a.currencies.length = count ∧ ∀ context, ∃ error, a.evaluate context = .error error := by
  refine ⟨?_, ?_, fun _ _ hshort _ => Machine.run_ne_overflow hshort,
    fun _ => Asset.exists_evaluate_eq_error, ?_⟩
  · rintro env actions s rfl
    have hdepth : ((State.new env).afterAll actions).stack.length ≤ Machine.maxDepth :=
      State.length_afterAll_le (Nat.zero_le _) actions
    exact ⟨hdepth, State.env_afterAll _ actions,
      fun action fault left => State.failsWith_of_attempt hdepth⟩
  · intro env script stack hrun
    rw [Machine.bottomUp, List.length_reverse]
    exact Machine.length_of_run_ok hrun
  · intro o hsound count hcount c now
    obtain ⟨a, next, hregister, hprogram, hlen⟩ :=
      hsound.register_widened (Nat.zero_lt_of_lt hcount) c now
    refine ⟨a, next, hregister, hprogram, hlen, ?_⟩
    exact Asset.exists_evaluate_eq_error (by rw [hlen]; exact hcount)

-- The stack is filled to the last place, and then the units are asked for as well. One divided by
-- nothing is gone together with its divisor. Nothing is wrong with 513 currencies but that no price
-- comes of them.
theorem stack_bounded_fullStack :
    (∃ s left, (State.new ⟨[], ⟨.zero, .one⟩⟩).afterAll (List.replicate 1024 (.push .one)) = s ∧
      s.attempt (.execute (.of .context 1)) = .failed .stackOverflow left ∧ left = s.stack ∧
      s.stack.length = 1024) ∧
    (∃ s left upper lower,
      (State.new ⟨[], ⟨.zero, .one⟩⟩).afterAll [.push .one, .pop, .pop, .push .one, .push .zero] =
        s ∧
      s.attempt (.execute (.of .div 0)) = .failed .divisionByZero left ∧
      s.stack = upper :: lower :: left) ∧
    ∃ a next, Catalogue.empty.register (Offer.twoCurrencies.widened 513) .epoch = .ok (a, next) ∧
      ∀ context, ∃ error, a.evaluate context = .error error := by
  obtain ⟨hactions, -, -, -, hassets⟩ := stack_bounded_and_failures_accounted_for
  refine ⟨?_, ?_, ?_⟩
  · have hstack := State.afterAll_push (.new ⟨[], ⟨.zero, .one⟩⟩) .one
      (show 0 + 1024 ≤ Machine.maxDepth by decide)
    generalize hs : (State.new ⟨[], ⟨.zero, .one⟩⟩).afterAll (List.replicate 1024 (.push .one)) = s
    obtain ⟨-, henv, hfails⟩ := hactions _ _ s hs
    have hlen : s.stack.length = Machine.maxDepth := by
      rw [← hs, hstack, List.length_append, List.length_replicate]
      rfl
    have hattempt : s.attempt (.execute (.of .context 1)) = .failed .stackOverflow s.stack := by
      rw [State.attempt, henv]
      change Machine.pushOn s.stack .one = _
      exact Machine.pushOn_of_le (Nat.le_of_eq hlen.symm) .one
    have hwith := hfails _ _ _ hattempt
    exact ⟨s, s.stack, rfl, hattempt, hwith.kept rfl, (hwith.full rfl).1⟩
  · obtain ⟨-, -, hfails⟩ := hactions ⟨[], ⟨.zero, .one⟩⟩
      [.push .one, .pop, .pop, .push .one, .push .zero] _ rfl
    have hwith := hfails (.execute (.of .div 0)) .divisionByZero [] rfl
    obtain ⟨upper, lower, hstack⟩ := hwith.taken rfl
    exact ⟨_, [], upper, lower, rfl, rfl, hstack⟩
  · have hsound : Offer.twoCurrencies.Sound := Offer.problem?_eq_none_iff.mp rfl
    obtain ⟨a, next, hregister, -, -, hnone⟩ := hassets _ hsound 513 (by decide) .empty .epoch
    exact ⟨a, next, hregister, hnone⟩

end Tariff
