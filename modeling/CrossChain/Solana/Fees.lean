import CrossChain.Solana.Program

/-!
# CrossChain.Solana.Fees

The amounts of a transfer as functions of the amount it is asked to move.

They are the charge of `CrossChain.Lib.Charging`: on its way to an adapter a
transfer loses the fee of the mint, on its way to a native store nothing,
and the whole units are those of shared decimals.  The code computes this in
`u64`, and where the rate is not zero and the fee below 100% it always gets
to the end (`exists_amounts`).  `Chargeable` says that a store and its peers
are so, and every run keeps it.
-/

namespace CrossChain

/-! ## the gross-up is the inverse of the fee -/

/-- `calculate_pre_fee_amount` is the least inverse of the transfer fee: what
it returns leaves exactly `x`, nothing less leaves as much, and it returns
nothing where no `u64` leaves `x`, and only there. -/
theorem calculatePreFeeAmount_least (fee : TransferFee) (x : UInt64) :
    (∀ y, calculatePreFeeAmount fee x = some y →
      y.toNat - fee.charge y.toNat = x.toNat ∧
        ∀ z, x.toNat ≤ z - fee.charge z → y.toNat ≤ z) ∧
    (calculatePreFeeAmount fee x = none ↔
      ∀ y : UInt64, y.toNat - fee.charge y.toNat ≠ x.toNat) := by
  have hnet : ∀ z, z - fee.charge z = fee.net z := fun z => rfl
  simp only [hnet, calculatePreFeeAmount_eq, UInt64.ofNat?_eq_some, UInt64.ofNat?_eq_none]
  refine ⟨?_, ?_, ?_⟩
  · intro y hy
    rw [← hy]
    exact ⟨fee.net_gross x.toNat, fun z hz => (fee.gross_le_iff x.toNat z).mpr hz⟩
  · intro hlarge y hy
    have hle := (fee.gross_le_iff x.toNat y.toNat).mpr hy.ge
    have hlt := y.toNat_lt_two_pow
    omega
  · intro hnone
    by_contra hsmall
    obtain ⟨y, hy⟩ := UInt64.exists_toNat_eq (Nat.lt_of_not_le hsmall)
    exact hnone y (hy ▸ fee.net_gross x.toNat)

/-! ## the amounts as numbers -/

/-- The rate that applies to a transfer with a peer. -/
def OFTStore.finalFeeBps (s : OFTStore) (feeBps : Option UInt16) : ℕ :=
  (feeBps.getD s.defaultFeeBps).toNat

/-- The product of an amount and a rate of at most 100% survives the cast. -/
theorem toNat_calculateFee {x : UInt64} {s : OFTStore} {feeBps : Option UInt16}
    (h : s.finalFeeBps feeBps ≤ ONE_IN_BASIS_POINTS) :
    (calculateFee x s.defaultFeeBps feeBps).toNat =
      x.toNat * s.finalFeeBps feeBps / ONE_IN_BASIS_POINTS := by
  unfold calculateFee
  have hx := x.toNat_lt_two_pow
  have hzero : x = 0 ↔ x.toNat = 0 := by rw [← UInt64.toNat_inj]; rfl
  simp only [hzero]
  split
  · next h0 =>
    rcases h0 with h0 | h0
    · rw [OFTStore.finalFeeBps, h0]; simp
    · rw [h0]; simp
  · have hle : x.toNat * s.finalFeeBps feeBps / ONE_IN_BASIS_POINTS ≤ x.toNat :=
      Nat.div_le_of_le_mul (by rw [Nat.mul_comm]; exact Nat.mul_le_mul_right _ h)
    exact UInt64.toNat_ofNat_of_lt_two_pow (Nat.lt_of_le_of_lt hle hx)

section

variable {a : UInt64} {s : OFTStore} {m : Mint} {clock : Clock} {feeBps : Option UInt16}

/-- With a fee of at most 100%, the amounts are the charge. -/
theorem amounts_iff (hbps : s.finalFeeBps feeBps ≤ ONE_IN_BASIS_POINTS)
    {sent received fee : UInt64} :
    computeFeeAndAdjustAmount a s m clock feeBps = .ok (sent, received, fee) ↔
      s.ld2sdRate.toNat ≠ 0 ∧
      Charging.sent (s.needed m clock.epoch) (s.left m clock.epoch) s.ld2sdRate.toNat a.toNat =
        sent.toNat ∧
      Charging.received (s.left m clock.epoch) s.ld2sdRate.toNat ONE_IN_BASIS_POINTS
        (s.finalFeeBps feeBps) a.toNat = received.toNat ∧
      Charging.fee (s.left m clock.epoch) s.ld2sdRate.toNat ONE_IN_BASIS_POINTS
        (s.finalFeeBps feeBps) a.toNat = fee.toNat := by
  rw [computeFeeAndAdjustAmount_eq_ok, Charging.sent, Charging.fee]
  have hsum := Charging.received_add_fee (u := s.left m clock.epoch)
    (r := s.ld2sdRate.toNat) hbps a.toNat
  rw [Charging.fee] at hsum
  simp only [toNat_calculateFee hbps]
  constructor
  · rintro ⟨before, hrate, hbefore, hsent, hfee, hsub⟩
    rw [hbefore] at hsum ⊢
    exact ⟨hrate, hsent, by omega, hfee⟩
  · rintro ⟨hrate, hsent, hreceived, hfee⟩
    have hkept : Charging.kept (s.left m clock.epoch) s.ld2sdRate.toNat a.toNat ≤ a.toNat :=
      (Charging.kept_le _).trans (s.left_le m clock.epoch _)
    obtain ⟨before, hbefore⟩ := UInt64.exists_toNat_eq (hkept.trans_lt a.toNat_lt_two_pow)
    rw [hbefore] at hsent hfee hsum
    exact ⟨before, hrate, hbefore, hsent, hfee, by omega⟩

variable (a m clock) in
/-- The computation gets to the end for every amount: none of its steps
overflows, and no gross-up is without a result. -/
theorem exists_amounts (hrate : s.ld2sdRate.toNat ≠ 0)
    (hbps : s.finalFeeBps feeBps ≤ ONE_IN_BASIS_POINTS) :
    ∃ sent received fee,
      computeFeeAndAdjustAmount a s m clock feeBps = .ok (sent, received, fee) := by
  have ha := a.toNat_lt_two_pow
  have hsent := Charging.sent_le (r := s.ld2sdRate.toNat) (s.gc_needed_left m clock.epoch) a.toNat
  have hkept : Charging.kept (s.left m clock.epoch) s.ld2sdRate.toNat a.toNat ≤ a.toNat :=
    (Charging.kept_le _).trans (s.left_le m clock.epoch _)
  have hsum := Charging.received_add_fee (u := s.left m clock.epoch)
    (r := s.ld2sdRate.toNat) hbps a.toNat
  obtain ⟨sent, hsent'⟩ := UInt64.exists_toNat_eq (hsent.trans_lt ha)
  obtain ⟨received, hreceived⟩ := UInt64.exists_toNat_eq (n := Charging.received
    (s.left m clock.epoch) s.ld2sdRate.toNat ONE_IN_BASIS_POINTS (s.finalFeeBps feeBps) a.toNat)
    (by omega)
  obtain ⟨fee, hfee⟩ := UInt64.exists_toNat_eq (n := Charging.fee
    (s.left m clock.epoch) s.ld2sdRate.toNat ONE_IN_BASIS_POINTS (s.finalFeeBps feeBps) a.toNat)
    (by omega)
  exact ⟨sent, received, fee, (amounts_iff hbps).mpr ⟨hrate, hsent', hreceived, hfee⟩⟩

end

/-! ## reachable configurations -/

theorem InitOFT.defaultFeeBps_of_apply {env : Externals} {endpoint : Endpoint} {tokens : Tokens}
    {acc : Accounts} {remaining : List LzAccount} {params : InitOFTParams} {n : Node}
    (h : apply env endpoint tokens acc remaining params = .ok n) : n.store.defaultFeeBps = 0 := by
  simp only [apply, Except.bind_eq_ok, Except.pure_eq_ok] at h
  obtain ⟨-, -, -, -, -, -, -, -, -, -, -, -, opened, -, -, -, rate, -, -, -, rfl⟩ := h
  rfl

/-- `DefaultFee` is checked, and nothing else sets the default fee. -/
theorem SetOFTConfig.defaultFeeBps_of_apply {env : Externals} {endpoint : Endpoint} {n n' : Node}
    {acc : Accounts} {remaining : List LzAccount} {params : SetOFTConfigParams}
    (h : apply env endpoint n acc remaining params = .ok n') :
    n'.store.defaultFeeBps = n.store.defaultFeeBps ∨
      n'.store.defaultFeeBps < MAX_FEE_BASIS_POINTS := by
  obtain ⟨-, -, h⟩ := Except.bind_eq_ok.mp h
  cases params with
  | delegate =>
      simp only [Except.bind_eq_ok, Except.pure_eq_ok] at h
      obtain ⟨-, -, rfl⟩ := h
      exact .inl rfl
  | defaultFee =>
      simp only [Except.bind_eq_ok, Except.require_eq_ok, Except.pure_eq_ok] at h
      obtain ⟨-, hvalid, rfl⟩ := h
      exact .inr hvalid
  | admin | paused | pauser | unpauser =>
      rw [← Except.pure_eq_ok.mp h]
      exact .inl rfl

/-- `FeeBps` is checked, and nothing else sets the fee of a peer. -/
theorem SetPeerConfig.Updated.feeBps_valid {env : Externals} {clock : Clock}
    {old peer : PeerConfig} {config : PeerConfigParam} (h : Updated env clock old config peer)
    (hold : old.feeBps.all (· < MAX_FEE_BASIS_POINTS)) :
    peer.feeBps.all (· < MAX_FEE_BASIS_POINTS) := by
  cases h with
  | feeBps valid => exact valid
  | peerAddress | enforcedOptions | outboundRateLimit | inboundRateLimit => exact hold

namespace Node

/-- What the amounts of every transfer rest on: the rate is a power of ten,
and the fees are below 100%. -/
structure Chargeable (n : Node) : Prop where
  rate : ∃ k, n.store.ld2sdRate.toNat = 10 ^ k
  defaultFee : n.store.defaultFeeBps < MAX_FEE_BASIS_POINTS
  peerFee : ∀ eid peer, n.peers eid = some peer → peer.feeBps.all (· < MAX_FEE_BASIS_POINTS)

theorem Chargeable.rate_ne_zero {n : Node} (h : n.Chargeable) : n.store.ld2sdRate.toNat ≠ 0 := by
  obtain ⟨k, hk⟩ := h.rate
  rw [hk]
  exact Nat.ne_of_gt (Nat.pow_pos (by decide))

theorem Chargeable.finalFeeBps_lt {n : Node} {eid : UInt32} {peer : PeerConfig}
    (h : n.Chargeable) (hpeer : n.peers eid = some peer) :
    n.store.finalFeeBps peer.feeBps < ONE_IN_BASIS_POINTS := by
  have hvalid := h.peerFee eid peer hpeer
  unfold OFTStore.finalFeeBps
  cases hfee : peer.feeBps with
  | none => exact UInt16.lt_iff_toNat_lt.mp h.defaultFee
  | some bps =>
      rw [hfee, Option.all_some, decide_eq_true_eq] at hvalid
      exact UInt16.lt_iff_toNat_lt.mp hvalid

/-- Writing a peer with a valid fee keeps it. -/
theorem Chargeable.setPeer {n m : Node} (h : n.Chargeable) {eid : UInt32} {peer : PeerConfig}
    (hrate : m.store.ld2sdRate = n.store.ld2sdRate)
    (hdefault : m.store.defaultFeeBps = n.store.defaultFeeBps) (hpeers : m.peers = n.peers)
    (hpeer : peer.feeBps.all (· < MAX_FEE_BASIS_POINTS)) : (m.setPeer eid peer).Chargeable := by
  refine ⟨hrate ▸ h.rate, hdefault ▸ h.defaultFee, fun eid' peer' hfound => ?_⟩
  by_cases heid : eid' = eid
  · subst heid
    obtain rfl : peer = peer' := by simpa [Node.setPeer] using hfound
    exact hpeer
  · refine h.peerFee eid' peer' ?_
    simpa [Node.setPeer, heid, hpeers] using hfound

variable {env : Externals}

theorem chargeable_of_created {n : Node} (h : InitOFT.Created env n) : n.Chargeable := by
  obtain ⟨endpoint, tokens, acc, remaining, params, happly⟩ := h
  have hinit := InitOFT.initialized happly
  refine ⟨⟨_, hinit.rate⟩, ?_, fun eid peer hpeer => ?_⟩
  · rw [InitOFT.defaultFeeBps_of_apply happly]
    decide
  · rw [hinit.peers] at hpeer
    contradiction

variable (env) in
/-- The default fee after a `set_oft_config` step. -/
theorem defaultFeeBps_setOftConfig (n : Node) (clock : Clock) (endpoint : Endpoint)
    (acc : SetOFTConfig.Accounts) (remaining : List LzAccount) (params : SetOFTConfigParams) :
    let n' := n.step env (.tx ⟨clock, endpoint, .setOftConfig acc remaining params⟩)
    n'.store.defaultFeeBps = n.store.defaultFeeBps ∨
      n'.store.defaultFeeBps < MAX_FEE_BASIS_POINTS := by
  intro n'
  cases h : n.exec env ⟨clock, endpoint, .setOftConfig acc remaining params⟩ with
  | error e => exact .inl (by rw [show n' = n from step_of_error env h])
  | ok m =>
      rw [show n' = m from step_of_exec env h]
      exact SetOFTConfig.defaultFeeBps_of_apply h

theorem Chargeable.step {n : Node} (h : n.Chargeable) (ev : Event) :
    (n.step env ev).Chargeable := by
  have hstep := stepped env n ev
  generalize hn' : n.step env ev = n' at hstep
  cases hstep with
  | send _ hp =>
      have hpeer := h.peerFee _ _ hp.found
      rw [hp.node]
      exact h.setPeer rfl rfl rfl hpeer
  | lzReceive _ _ hd =>
      have hpeer := h.peerFee _ _ hd.found
      rw [hd.node]
      exact h.setPeer rfl rfl rfl hpeer
  | setOftConfig hc =>
      rename_i clock endpoint acc remaining params
      have hfee := defaultFeeBps_setOftConfig env n clock endpoint acc remaining params
      have hrate : n'.store.ld2sdRate = n.store.ld2sdRate := congrArg (fun o => o.2.1) hc.origin
      have hpeers : n'.peers = n.peers := by rw [hc.node]
      rw [hn'] at hfee
      refine ⟨hrate ▸ h.rate, ?_, hpeers ▸ h.peerFee⟩
      exact hfee.elim (fun heq => heq ▸ h.defaultFee) id
  | @setPeerConfig clock endpoint acc params n' peer _ hp =>
      have hold : ((n.peers params.remoteEid).getD .zeroed).feeBps.all
          (· < MAX_FEE_BASIS_POINTS) := by
        cases hfound : n.peers params.remoteEid with
        | none => rfl
        | some old => exact h.peerFee _ _ hfound
      rw [hp.node]
      exact h.setPeer rfl rfl rfl (hp.updated.feeBps_valid hold)
  | withdrawFee _ hw =>
      rw [hw.node]
      exact ⟨h.rate, h.defaultFee, h.peerFee⟩
  | setPause | external | idle => exact ⟨h.rate, h.defaultFee, h.peerFee⟩

theorem chargeable_final {n : Node} (h : InitOFT.Created env n) (events : List Event) :
    (Run.final (Node.step env) n events).Chargeable :=
  Run.final_of_step (I := Chargeable) (fun _ ev hn => hn.step ev) (chargeable_of_created h) events

/-! ## the amounts in every reachable configuration -/

/-- In every configuration a run from `init_oft` reaches, the amounts of
every transfer of every mint are computed to the end, and are exact: what is
received and the fee make up the dust-free part of what the transfer leaves,
and the fee is that part's share, nothing being cut off by the cast. -/
theorem amounts_never_fail (env : Externals) (n₀ : Node) (hinit : InitOFT.Created env n₀)
    (events : List Event) :
    let n := Run.final (step env) n₀ events
    n.Chargeable ∧ ∀ eid peer, n.peers eid = some peer → ∀ mint clock (amountLd : UInt64),
      ∃ sent received fee,
        computeFeeAndAdjustAmount amountLd n.store mint clock peer.feeBps =
          .ok (sent, received, fee) ∧
        Charged amountLd n.store mint clock.epoch sent received fee ∧
        (n.store.oftType = .native → n.store.removeDust amountLd = .ok sent) ∧
        (n.store.oftType = .adapter → ∃ postFee before,
          getPostFeeAmountLd mint clock amountLd = .ok postFee ∧
          n.store.removeDust postFee = .ok before ∧
          received.toNat + fee.toNat = before.toNat) ∧
        CappedFee.floorTo n.store.ld2sdRate.toNat ((received.toNat + fee.toNat) *
          n.store.finalFeeBps peer.feeBps / ONE_IN_BASIS_POINTS) = fee.toNat := by
  intro n
  have hn : n.Chargeable := chargeable_final hinit events
  refine ⟨hn, fun eid peer hpeer mint clock amountLd => ?_⟩
  have hbps := (hn.finalFeeBps_lt hpeer).le
  obtain ⟨sent, received, fee, hamounts⟩ :=
    exists_amounts amountLd mint clock hn.rate_ne_zero hbps
  obtain ⟨before, hrate, hbefore, hsent, hfee, hsum⟩ :=
    computeFeeAndAdjustAmount_eq_ok.mp hamounts
  rw [toNat_calculateFee hbps] at hfee
  refine ⟨sent, received, fee, hamounts, charged hamounts, ?_, ?_, hsum ▸ hfee⟩
  · intro hnative
    rw [OFTStore.removeDust_eq_ok]
    simp only [Charging.kept, OFTStore.needed, OFTStore.left, hnative] at hsent hbefore
    exact ⟨hrate, hbefore.trans hsent⟩
  · intro hadapter
    simp only [Charging.kept, OFTStore.left, hadapter] at hbefore
    obtain ⟨postFee, hpost⟩ := UInt64.exists_toNat_eq
      ((mint.net_le clock.epoch amountLd.toNat).trans_lt amountLd.toNat_lt_two_pow)
    refine ⟨postFee, before, getPostFeeAmountLd_eq_ok.mpr hpost, ?_, hsum⟩
    rw [OFTStore.removeDust_eq_ok, ← hpost]
    exact ⟨hrate, hbefore⟩

/-- A mint that takes 1% up to 5000. -/
def feeTokens : Tokens :=
  .sample 5000000 .default (some ⟨5000, 100, Nat.le_of_ble_eq_true rfl⟩)

/-- The admin sets a fee of 1%. -/
def feeRun : List Event := [.sample 0 (.sampleSetPeer 30101 (.feeBps (some 100)))]

def feePeer : PeerConfig := { PeerConfig.zeroed with feeBps := some 100, bump := 255 }

theorem created_feeTokens : InitOFT.Created .sample (sample .adapter feeTokens) :=
  ⟨.sample, feeTokens, .sample, [], ⟨.adapter, .ofByte 13, 6, none⟩, rfl⟩

theorem peers_feeRun :
    (Run.final (step .sample) (sample .adapter feeTokens) feeRun).peers 30101 = some feePeer := by
  decide +kernel

theorem amounts_never_fail_example :
    let n := Run.final (step .sample) (sample .adapter feeTokens) feeRun
    ∃ sent received fee,
      computeFeeAndAdjustAmount 2000500 n.store feeTokens.mint ⟨0, 0⟩ (some 100) =
        .ok (sent, received, fee) ∧
      received.toNat + fee.toNat = feeTokens.mint.net 0 sent.toNat := by
  intro n
  obtain ⟨-, hamounts⟩ := amounts_never_fail _ _ created_feeTokens feeRun
  obtain ⟨sent, received, fee, hrun, hcharged, -⟩ :=
    hamounts 30101 feePeer peers_feeRun feeTokens.mint ⟨0, 0⟩ 2000500
  exact ⟨sent, received, fee, hrun, hcharged.adapter (by decide +kernel)⟩

/-- In every configuration a run from `init_oft` reaches, the amount charged
is an interior operator of the amount asked for, and all three amounts grow
with it: charging for what was charged changes nothing, and more in is
accepted wherever less was. -/
theorem charge_interior (env : Externals) (n₀ : Node) (hinit : InitOFT.Created env n₀)
    (events : List Event) :
    let n := Run.final (step env) n₀ events
    ∀ eid peer, n.peers eid = some peer → ∀ mint clock (a b : UInt64), a ≤ b →
      ∃ sent received fee sent' received' fee',
        computeFeeAndAdjustAmount a n.store mint clock peer.feeBps = .ok (sent, received, fee) ∧
        computeFeeAndAdjustAmount b n.store mint clock peer.feeBps =
          .ok (sent', received', fee') ∧
        sent ≤ sent' ∧ received ≤ received' ∧ fee ≤ fee' ∧ sent ≤ a ∧
        computeFeeAndAdjustAmount sent n.store mint clock peer.feeBps =
          .ok (sent, received, fee) ∧
        ∀ minAmountLd, minAmountLd ≤ received → minAmountLd ≤ received' := by
  intro n eid peer hpeer mint clock a b hab
  have hn : n.Chargeable := chargeable_final hinit events
  have hbps := (hn.finalFeeBps_lt hpeer).le
  have hgc := n.store.gc_needed_left mint clock.epoch
  have hexact := n.store.left_needed mint clock.epoch
  obtain ⟨sent, received, fee, hamounts⟩ :=
    exists_amounts a mint clock hn.rate_ne_zero hbps
  obtain ⟨sent', received', fee', hamounts'⟩ :=
    exists_amounts b mint clock hn.rate_ne_zero hbps
  obtain ⟨hrate, hsent, hreceived, hfee⟩ := (amounts_iff hbps).mp hamounts
  obtain ⟨-, hsent', hreceived', hfee'⟩ := (amounts_iff hbps).mp hamounts'
  simp only [UInt64.le_iff_toNat_le] at hab ⊢
  have hmono : received.toNat ≤ received'.toNat := by
    rw [← hreceived, ← hreceived']
    exact Charging.received_mono hgc.monotone_u TransferFee.base_pos hbps hab
  refine ⟨sent, received, fee, sent', received', fee', hamounts, hamounts', ?_, hmono, ?_, ?_, ?_,
    fun minAmountLd hmin => hmin.trans hmono⟩
  · rw [← hsent, ← hsent']
    exact Charging.sent_mono hgc hab
  · rw [← hfee, ← hfee']
    exact Charging.fee_mono hgc.monotone_u hab
  · rw [← hsent]
    exact Charging.sent_le hgc a.toNat
  · rw [amounts_iff hbps]
    rw [← hsent, ← hreceived, ← hfee]
    exact ⟨hrate, Charging.sent_sent hexact _, Charging.received_sent hexact _,
      Charging.fee_sent hexact _⟩

theorem charge_interior_example :
    let n := Run.final (step .sample) (sample .adapter feeTokens) feeRun
    ∃ sent received fee sent' received' fee',
      computeFeeAndAdjustAmount 1000999 n.store feeTokens.mint ⟨0, 0⟩ (some 100) =
        .ok (sent, received, fee) ∧
      computeFeeAndAdjustAmount 2000500 n.store feeTokens.mint ⟨0, 0⟩ (some 100) =
        .ok (sent', received', fee') ∧
      sent ≤ sent' ∧ received ≤ received' ∧
      computeFeeAndAdjustAmount sent n.store feeTokens.mint ⟨0, 0⟩ (some 100) =
        .ok (sent, received, fee) := by
  intro n
  obtain ⟨sent, received, fee, sent', received', fee', hrun, hrun', hsent, hreceived, -, -, hagain,
    -⟩ := charge_interior _ _ created_feeTokens feeRun 30101 feePeer peers_feeRun feeTokens.mint
      ⟨0, 0⟩ 1000999 2000500 (by decide)
  exact ⟨sent, received, fee, sent', received', fee', hrun, hrun', hsent, hreceived, hagain⟩

end Node

end CrossChain
