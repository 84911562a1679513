import CrossChain.Evm.RateLimits
import CrossChain.Lib.DecayWindow
import CrossChain.Lib.Run

/-!
# CrossChain.Evm.Flow

How much `OFTWrapperUpgradeable` mints and burns in a span of time.

Every `_debit` and every `_credit` charges its amount to a slot of the rate
limiter before the token is called: a debit to the slot of its destination, a
credit to the inbound slot of its source.  So what a run charges to a slot is
a `Path` of `CrossChain.Lib.DecayWindow` (`path`), as long as the slot is not
configured, and what it mints or burns there is part of that.  Two ids that
share a slot share its limit.
-/

namespace CrossChain.Evm

/-- An entry of the mapping, as the library has it. -/
def RateLimit.slot (rl : RateLimit) : DecayWindow.Slot :=
  ⟨rl.amountInFlight, rl.lastUpdated, rl.limit, rl.window⟩

/-- What `_outflow` is documented to do: an amount above what the limit
leaves reverts, and one that does not is in flight from then on. -/
def RateLimiter.Decays (lib : RateLimiter) : Prop :=
  ∀ now rl amount rl', lib.outflowEntry now rl amount = some rl' →
    amount ≤ rl.limit - rl.slot.inFlightAt now ∧
      rl' = { rl with amountInFlight := rl.slot.inFlightAt now + amount, lastUpdated := now }

/-- An outflow that succeeds is a charge. -/
theorem RateLimiter.Decays.step {lib : RateLimiter} (hlib : lib.Decays) {now amount : ℕ}
    {m m' : RateLimits} {key : UInt32} (h : lib.outflow now m key amount = some m') :
    (m key).slot.Step now amount (m' key).slot := by
  obtain ⟨hfits, hentry⟩ := hlib _ _ _ _ (outflow_self h)
  rw [hentry]
  exact .charge hfits

theorem RateLimiter.sampleAmounts_eq {now : ℕ} {rl : RateLimit} {r : ℕ × ℕ}
    (h : sampleAmounts now rl = some r) :
    r = (rl.slot.inFlightAt now, rl.limit - rl.slot.inFlightAt now) := by
  unfold sampleAmounts at h
  split at h
  · contradiction
  · split at h
    · next hpassed =>
      have hzero : rl.slot.inFlightAt now = 0 := if_pos hpassed
      rw [← Option.some.inj h, hzero, Nat.sub_zero]
    · next hpassed =>
      have hdecayed : rl.slot.inFlightAt now =
          rl.amountInFlight - rl.limit * (now - rl.lastUpdated) / rl.window := if_neg hpassed
      rw [← Option.some.inj h, hdecayed]

theorem RateLimiter.decays_sample : RateLimiter.sample.Decays := by
  intro now rl amount rl' h
  obtain ⟨r, hamounts, hrest⟩ := Option.bind_eq_some_iff.mp h
  obtain rfl := sampleAmounts_eq hamounts
  simp only at hrest
  split at hrest
  · next hle => exact ⟨hle, (Option.some.inj hrest).symm⟩
  · contradiction

namespace OFTWrapperUpgradeable

/-- A call to the wrapper or to its token. -/
inductive Call (d : Deployment) where
  | credit (holder : Address) (amountLD : ℕ) (srcEid : UInt32)
  | debit (holder : Address) (amountLD minAmountLD : ℕ) (dstEid : UInt32)
  | setOutboundRateLimits (sender : Address) (configs : List RateLimitConfig)
  | setInboundRateLimits (sender : Address) (configs : List RateLimitConfig)
  /-- whatever else changes the owner or the token -/
  | other (owner : Address) (token : d.paxosToken.State)

variable {d : Deployment}

/-- A call in the block of timestamp `now`; `none` if it reverts. -/
def Call.run (w : Wrapper d) (now : ℕ) : Call d → Option (Wrapper d)
  | .credit holder amountLD srcEid =>
      (OFTWrapperUpgradeable.credit w now holder amountLD srcEid).map (·.1)
  | .debit holder amountLD minAmountLD dstEid =>
      (OFTWrapperUpgradeable.debit w now holder amountLD minAmountLD dstEid).map (·.1)
  | .setOutboundRateLimits sender configs =>
      OFTWrapperUpgradeable.setOutboundRateLimits w now sender configs
  | .setInboundRateLimits sender configs =>
      OFTWrapperUpgradeable.setInboundRateLimits w now sender configs
  | .other owner token => some { w with owner, token }

/-- A call that reverts changes nothing. -/
def step (w : Wrapper d) (c : ℕ × Call d) : Wrapper d := (c.2.run w c.1).getD w

/-- The call writes a limit to the slot `key`. -/
def Call.Names (key : UInt32) : Call d → Prop
  | .setOutboundRateLimits _ configs => ∃ c ∈ configs, c.dstEid = key
  | .setInboundRateLimits _ configs =>
      ∃ c ∈ configs, c.dstEid.checkedAdd INBOUND_EID_OFFSET = some key
  | _ => False

instance (key : UInt32) : (call : Call d) → Decidable (call.Names key)
  | .setOutboundRateLimits _ configs => inferInstanceAs (Decidable (∃ c ∈ configs, _))
  | .setInboundRateLimits _ configs => inferInstanceAs (Decidable (∃ c ∈ configs, _))
  | .credit .. | .debit .. | .other .. => inferInstanceAs (Decidable False)

/-- A step that configures the slot `key`. -/
def Reconfigures (key : UInt32) (e : Wrapper d × ℕ × Call d) : Prop :=
  e.2.2.Names key ∧ (e.2.2.run e.1 e.2.1).isSome

instance (key : UInt32) (e : Wrapper d × ℕ × Call d) : Decidable (Reconfigures key e) :=
  inferInstanceAs (Decidable (_ ∧ _))

/-- What a step mints by a credit from `srcEid`. -/
def minted (srcEid : UInt32) (e : Wrapper d × ℕ × Call d) : ℕ :=
  match e.2.2 with
  | .credit _ _ eid => if eid = srcEid then (step e.1 e.2).totalSupply - e.1.totalSupply else 0
  | _ => 0

/-- What a step burns by a debit to `dstEid`. -/
def burned (dstEid : UInt32) (e : Wrapper d × ℕ × Call d) : ℕ :=
  match e.2.2 with
  | .debit _ _ _ eid => if eid = dstEid then e.1.totalSupply - (step e.1 e.2).totalSupply else 0
  | _ => 0

/-- What a step charges to the slot `key`. -/
def charged (key : UInt32) (e : Wrapper d × ℕ × Call d) : ℕ :=
  match e.2.2 with
  | .credit _ _ eid =>
      if eid.checkedAdd INBOUND_EID_OFFSET = some key then
        (step e.1 e.2).totalSupply - e.1.totalSupply else 0
  | .debit _ _ _ eid => if eid = key then e.1.totalSupply - (step e.1 e.2).totalSupply else 0
  | _ => 0

theorem minted_le_charged {srcEid key : UInt32}
    (hkey : srcEid.checkedAdd INBOUND_EID_OFFSET = some key) (e : Wrapper d × ℕ × Call d) :
    minted srcEid e ≤ charged key e := by
  obtain ⟨w, now, call⟩ := e
  cases call with
  | credit holder amountLD eid =>
      simp only [minted, charged]
      split
      · next heq => rw [heq, if_pos hkey]
      · exact Nat.zero_le _
  | debit | setOutboundRateLimits | setInboundRateLimits | other => exact Nat.zero_le _

theorem burned_le_charged (key : UInt32) (e : Wrapper d × ℕ × Call d) :
    burned key e ≤ charged key e := by
  obtain ⟨w, now, call⟩ := e
  cases call with
  | debit => exact le_rfl
  | credit | setOutboundRateLimits | setInboundRateLimits | other => exact Nat.zero_le _

/-! ## one call -/

theorem step_of_run {w w' : Wrapper d} {now : ℕ} {call : Call d}
    (h : call.run w now = some w') : step w (now, call) = w' := by
  rw [step, h, Option.getD_some]

theorem step_of_revert {w : Wrapper d} {now : ℕ} {call : Call d} (h : call.run w now = none) :
    step w (now, call) = w := by
  rw [step, h, Option.getD_none]

theorem charged_of_revert {key : UInt32} {w : Wrapper d} {now : ℕ} {call : Call d}
    (h : call.run w now = none) : charged key (w, now, call) = 0 := by
  cases call with
  | credit | debit =>
      simp only [charged, step_of_revert h, Nat.sub_self]
      exact ite_self 0
  | setOutboundRateLimits | setInboundRateLimits | other => rfl

/-- A step that does not configure the slot charges it, or leaves it alone. -/
theorem slot_step (hlib : d.limiter.Decays) {key : UInt32} {w : Wrapper d} {c : ℕ × Call d}
    (h : ¬ Reconfigures key (w, c)) :
    (w.rateLimits key).slot.Step c.1 (charged key (w, c)) ((step w c).rateLimits key).slot := by
  obtain ⟨now, call⟩ := c
  cases hrun : call.run w now with
  | none =>
      rw [charged_of_revert hrun, step_of_revert hrun]
      exact .idle
  | some w' =>
      have hkept : ¬ call.Names key :=
        fun hnames => h ⟨hnames, Option.isSome_iff_exists.mpr ⟨w', hrun⟩⟩
      rw [step_of_run hrun]
      cases call with
      | credit holder amountLD eid =>
          have hmap : (OFTWrapperUpgradeable.credit w now holder amountLD eid).map (·.1) =
            some w' := hrun
          obtain ⟨⟨w'', received⟩, hcredit, rfl⟩ := Option.map_eq_some_iff.mp hmap
          obtain ⟨⟨slot, hslot, houtflow⟩, hsupply⟩ := credited hcredit
          have hminted : (step w (now, .credit holder amountLD eid)).totalSupply - w.totalSupply =
              amountLD := by
            rw [step_of_run hrun, hsupply, Nat.add_sub_cancel_left]
          simp only [charged, hminted, hslot, Option.some.injEq]
          split
          · next heq => exact hlib.step (heq ▸ houtflow)
          · next hne =>
            rw [RateLimiter.outflow_of_ne houtflow (Ne.symm hne)]
            exact .idle
      | debit holder amountLD minAmountLD eid =>
          obtain ⟨⟨w'', sent, received⟩, hdebit, rfl⟩ := Option.map_eq_some_iff.mp hrun
          obtain ⟨-, hdebited⟩ := Wrapper.debited hdebit
          have hburned : w.totalSupply -
              (step w (now, .debit holder amountLD minAmountLD eid)).totalSupply = sent := by
            rw [step_of_run hrun, ← hdebited.supply, Nat.add_sub_cancel_left]
          simp only [charged, hburned]
          split
          · next heq => exact hlib.step (heq ▸ hdebited.outflow)
          · next hne =>
            rw [RateLimiter.outflow_of_ne hdebited.outflow (Ne.symm hne)]
            exact .idle
      | setOutboundRateLimits sender configs =>
          obtain ⟨-, m', hm', rfl⟩ := Wrapper.configure_eq_some.mp hrun
          have hsame : m' key = w.rateLimits key :=
            RateLimiter.setRateLimits_of_not_mem hm' fun c hc heq => hkept ⟨c, hc, heq⟩
          simp only [hsame]
          exact .idle
      | setInboundRateLimits sender configs =>
          obtain ⟨offset, hoffset, hconfigure⟩ := Option.bind_eq_some_iff.mp hrun
          obtain ⟨-, m', hm', rfl⟩ := Wrapper.configure_eq_some.mp hconfigure
          have hsame : m' key = w.rateLimits key := by
            refine RateLimiter.setRateLimits_of_not_mem hm' fun c hc heq => ?_
            obtain ⟨c', hc', hkey⟩ := (offsetConfigs_eq_some hoffset key).mp ⟨c, hc, heq⟩
            exact hkept ⟨c', hc', key_iff.mpr hkey⟩
          simp only [hsame]
          exact .idle
      | other owner token =>
          obtain rfl := Option.some.inj hrun
          exact .idle

/-! ## a run of calls -/

/-- What a run charges to a slot that it does not configure. -/
theorem path (hlib : d.limiter.Decays) {key : UInt32} {w : Wrapper d}
    {calls : List (ℕ × Call d)} (h : ∀ e ∈ Run.trace step w calls, ¬ Reconfigures key e) :
    (w.rateLimits key).slot.Path
      ((Run.trace step w calls).map fun e => (e.2.1, charged key e))
      ((Run.final step w calls).rateLimits key).slot := by
  induction calls generalizing w with
  | nil => exact .nil _
  | cons c calls ih =>
      rw [Run.trace_cons, List.forall_mem_cons] at h
      exact .cons (slot_step hlib h.1) (ih h.2)

theorem charged_le (hlib : d.limiter.Decays) {key : UInt32} {w : Wrapper d}
    {calls : List (ℕ × Call d)} (h : ∀ e ∈ Run.trace step w calls, ¬ Reconfigures key e)
    (hwindow : 0 < (w.rateLimits key).window) {t₁ t₂ : ℕ}
    (htimes : DecayWindow.Timed t₁ t₂ (calls.map (·.1))) :
    ((Run.trace step w calls).map (charged key)).sum ≤ (w.rateLimits key).limit +
      (w.rateLimits key).limit * (t₂ - t₁) / (w.rateLimits key).window := by
  have htimes' : DecayWindow.Timed t₁ t₂
      (((Run.trace step w calls).map fun e => (e.2.1, charged key e)).map (·.1)) := by
    rw [← Run.map_snd_trace step w calls, List.map_map] at htimes
    rw [List.map_map]
    exact htimes
  have hsum := (path hlib h).sum_le hwindow htimes'
  rw [List.map_map] at hsum
  exact hsum

/-- A slot that was never configured admits nothing. -/
theorem charged_eq_zero (hlib : d.limiter.Decays) {key : UInt32} {w : Wrapper d}
    {calls : List (ℕ × Call d)} (h : ∀ e ∈ Run.trace step w calls, ¬ Reconfigures key e)
    (hunset : w.rateLimits key = unset) : ∀ e ∈ Run.trace step w calls, charged key e = 0 := by
  intro e he
  have hlimit : (w.rateLimits key).slot.limit = 0 := by rw [hunset]; rfl
  have hsum := (path hlib h).sum_eq_zero hlimit
  rw [List.map_map] at hsum
  have hle := List.single_le_sum (fun _ _ => Nat.zero_le _) _
    (List.mem_map_of_mem (f := charged key) he)
  exact Nat.le_zero.mp (hle.trans_eq hsum)

/-- A source whose key would be no `uint32` cannot be credited from. -/
theorem minted_of_no_key {srcEid : UInt32} (h : srcEid.checkedAdd INBOUND_EID_OFFSET = none)
    (e : Wrapper d × ℕ × Call d) : minted srcEid e = 0 := by
  obtain ⟨w, now, call⟩ := e
  cases call with
  | credit holder amountLD eid =>
      simp only [minted]
      split
      · next heq =>
        subst heq
        have hcredit : OFTWrapperUpgradeable.credit w now holder amountLD eid = none := by
          rw [OFTWrapperUpgradeable.credit, h]
          rfl
        have hrun : (Call.credit holder amountLD eid).run w now = none := by
          rw [Call.run, hcredit, Option.map_none]
        rw [step_of_revert hrun, Nat.sub_self]
      · rfl
  | debit | setOutboundRateLimits | setInboundRateLimits | other => rfl

/-- In any span of time, what is minted by credits from a source is at most
the source's limit and that limit's share of the span in windows, as long as
it is not configured again; and so is what is burned by debits to a
destination.  Where no limit was ever configured, nothing is. -/
theorem mint_burn_bounded (d : Deployment) (hlib : d.limiter.Decays) (w : Wrapper d)
    (calls : List (ℕ × Call d)) (t₁ t₂ : ℕ)
    (htimes : DecayWindow.Timed t₁ t₂ (calls.map (·.1))) :
    let run := Run.trace step w calls
    (∀ src rl, inboundRateLimits w src = some rl → 0 < rl.window →
      (∀ key, src.checkedAdd INBOUND_EID_OFFSET = some key → ∀ e ∈ run, ¬ Reconfigures key e) →
      (run.map (minted src)).sum ≤ rl.limit + rl.limit * (t₂ - t₁) / rl.window) ∧
    (∀ dst, 0 < (w.rateLimits dst).window → (∀ e ∈ run, ¬ Reconfigures dst e) →
      (run.map (burned dst)).sum ≤ (w.rateLimits dst).limit +
        (w.rateLimits dst).limit * (t₂ - t₁) / (w.rateLimits dst).window) ∧
    (∀ src, (∀ key, src.checkedAdd INBOUND_EID_OFFSET = some key →
        w.rateLimits key = unset ∧ ∀ e ∈ run, ¬ Reconfigures key e) →
      ∀ e ∈ run, minted src e = 0) ∧
    ∀ dst, w.rateLimits dst = unset → (∀ e ∈ run, ¬ Reconfigures dst e) →
      ∀ e ∈ run, burned dst e = 0 := by
  intro run
  refine ⟨?_, ?_, ?_, ?_⟩
  · intro src rl hrl hwindow hkept
    simp only [inboundRateLimits, bind, Option.bind_eq_some_iff, pure, Option.some.injEq] at hrl
    obtain ⟨key, hkey, rfl⟩ := hrl
    have hle : (run.map (minted src)).sum ≤ (run.map (charged key)).sum :=
      List.sum_le_sum fun e _ => minted_le_charged hkey e
    exact hle.trans (charged_le hlib (hkept key hkey) hwindow htimes)
  · intro dst hwindow hkept
    have hle : (run.map (burned dst)).sum ≤ (run.map (charged dst)).sum :=
      List.sum_le_sum fun e _ => burned_le_charged dst e
    exact hle.trans (charged_le hlib hkept hwindow htimes)
  · intro src hunset e he
    cases hkey : src.checkedAdd INBOUND_EID_OFFSET with
    | none => exact minted_of_no_key hkey e
    | some key =>
        obtain ⟨hlimit, hkept⟩ := hunset key hkey
        have hzero := charged_eq_zero hlib hkept hlimit e he
        exact Nat.le_zero.mp (hzero ▸ minted_le_charged hkey e)
  · intro dst hunset hkept e he
    have hzero := charged_eq_zero hlib hkept hunset e he
    exact Nat.le_zero.mp (hzero ▸ burned_le_charged dst e)

/-- A wrapper that lets 1000 through a minute, wherever to or from. -/
def limitedWrapper : Wrapper (.sample 0) :=
  ⟨FixedBytes.zero 20, fun _ => ⟨0, 0, 1000, 60⟩, (0, fun _ => 0)⟩

/-- Half a minute of credits from source 1: the last one reverts. -/
def sampleCredits : List (ℕ × Call (.sample 0)) :=
  [(100, .credit (FixedBytes.zero 20) 900 1), (130, .credit (FixedBytes.zero 20) 600 1),
    (130, .credit (FixedBytes.zero 20) 1 1)]

theorem mint_burn_bounded_example :
    ((Run.trace step limitedWrapper sampleCredits).map (minted 1)).sum = 1500 ∧
      ((Run.trace step limitedWrapper sampleCredits).map (minted 1)).sum ≤
        1000 + 1000 * (130 - 100) / 60 := by
  obtain ⟨hminted, -⟩ := mint_burn_bounded (.sample 0) RateLimiter.decays_sample limitedWrapper
    sampleCredits 100 130 (by decide)
  have hkept : ∀ key, UInt32.checkedAdd 1 INBOUND_EID_OFFSET = some key →
      ∀ e ∈ Run.trace step limitedWrapper sampleCredits, ¬ Reconfigures key e := by
    intro key hkey
    obtain rfl := Option.some.inj hkey
    decide +kernel
  exact ⟨by decide +kernel, hminted 1 ⟨0, 0, 1000, 60⟩ rfl (by decide) hkept⟩

end OFTWrapperUpgradeable

end CrossChain.Evm
