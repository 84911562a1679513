import CrossChain.Solana.Agreement
import CrossChain.Solana.Delivery
import CrossChain.Solana.Fees

/-!
# CrossChain.Solana.Sending

When `send` succeeds, and when `quote_send` does.

In a reachable state the amounts of a transfer are always computed
(`Chargeable`), and the program's own accounts are as they should be
(`Genuine`).  What is left to fail on is in three parts.  The first, `Quotable`,
is what a quote checks as well.  The second, `Takes`, is what only a send
looks at: the owner of the tokens, the limiters, the value locked and the
endpoint.  The third, `CallsTaken`, is up to the token program.
-/

namespace CrossChain

/-! ## the amounts of a transfer -/

namespace Node

variable (n : Node) (epoch : UInt64) (feeBps : Option UInt16) (a : ℕ)

/-- `amount_sent_ld` for `a`. -/
def sentLd : ℕ :=
  Charging.sent (n.store.needed n.tokens.mint epoch) (n.store.left n.tokens.mint epoch)
    n.store.ld2sdRate.toNat a

/-- `amount_received_ld` for `a`. -/
def receivedLd : ℕ :=
  Charging.received (n.store.left n.tokens.mint epoch) n.store.ld2sdRate.toNat
    ONE_IN_BASIS_POINTS (n.store.finalFeeBps feeBps) a

/-- `oft_fee_ld` for `a`. -/
def oftFeeLd : ℕ :=
  Charging.fee (n.store.left n.tokens.mint epoch) n.store.ld2sdRate.toNat
    ONE_IN_BASIS_POINTS (n.store.finalFeeBps feeBps) a

variable {n}

/-- With a valid configuration the amounts are there. -/
theorem Chargeable.amounts (h : n.Chargeable) {eid : UInt32} {peer : PeerConfig}
    (hfound : n.peers eid = some peer) (clock : Clock) (amountLd : UInt64) :
    ∃ sent received fee : UInt64,
      computeFeeAndAdjustAmount amountLd n.store n.tokens.mint clock peer.feeBps =
        .ok (sent, received, fee) ∧
      n.sentLd clock.epoch amountLd.toNat = sent.toNat ∧
      n.receivedLd clock.epoch peer.feeBps amountLd.toNat = received.toNat ∧
      n.oftFeeLd clock.epoch peer.feeBps amountLd.toNat = fee.toNat := by
  have hbps := (h.finalFeeBps_lt hfound).le
  obtain ⟨sent, received, fee, hamounts⟩ :=
    exists_amounts amountLd n.tokens.mint clock h.rate_ne_zero hbps
  obtain ⟨-, hsent, hreceived, hfee⟩ := (amounts_iff hbps).mp hamounts
  exact ⟨sent, received, fee, hamounts, hsent, hreceived, hfee⟩

end Node

namespace Send

variable {env : Externals} {clock : Clock} {endpoint : Endpoint} {n : Node} {acc : Accounts}
  {remaining : List LzAccount} {params : SendParams}

/-! ## when the constraints pass -/

/-- The signer, address, seed and writability constraints of `Send`. -/
structure Addressed (env : Externals) (n : Node) (acc : Accounts) (params : SendParams) :
    Prop where
  signer : acc.signer.isSigner
  peer : acc.peer.pubkey =
    (env.findProgramAddress (Node.peerSeeds n.key params.dstEid) env.programId).1 ∧
      acc.peer.isWritable
  oftStore : n.StoreAt env acc.oftStore ∧ acc.oftStore.isWritable
  tokenSource : acc.tokenSource.isWritable
  tokenEscrow : acc.tokenEscrow.pubkey = n.store.tokenEscrow ∧ acc.tokenEscrow.isWritable
  tokenMint : n.MintAt acc.tokenMint acc.tokenProgram ∧ acc.tokenMint.isWritable
  tokenProgram : env.isTokenProgram acc.tokenProgram.pubkey
  eventCpi : EventCpi env acc.eventAuthority acc.program

theorem peerAt (hg : n.Genuine env) (ha : Addressed env n acc params) {peer : PeerConfig}
    (hfound : n.peers params.dstEid = some peer) : n.PeerAt env params.dstEid peer acc.peer := by
  rw [Node.PeerAt, hg.bump _ _ hfound, ha.peer.1, env.create_find]

/-- On accounts of the right addresses, the constraints of a reachable store
ask for the peer and the owner of the tokens. -/
theorem tryAccounts_iff (hg : n.Genuine env) (ha : Addressed env n acc params)
    {peer : PeerConfig} : tryAccounts env n acc params = .ok peer ↔
      n.peers params.dstEid = some peer ∧ n.TokenAccountOf acc.signer.pubkey acc.tokenSource := by
  constructor
  · intro h
    exact ⟨(constrained h).found, (constrained h).source⟩
  · rintro ⟨hfound, hsource⟩
    have hescrow : n.EscrowAt acc.tokenEscrow := by
      refine ⟨ha.tokenEscrow.1, ?_⟩
      rw [Node.TokenAccountOf, ha.tokenEscrow.1]
      exact hg.escrow
    simp only [tryAccounts, Except.bind_eq_ok, Except.require_eq_ok, Except.okOr_eq_ok,
      Except.pure_eq_ok]
    exact ⟨(), ha.signer, peer, hfound, (), ⟨peerAt hg ha hfound, ha.peer.2⟩, (), ha.oftStore,
      (), ⟨hsource, ha.tokenSource⟩, (), ⟨hescrow, ha.tokenEscrow.2⟩, (), ha.tokenMint, (),
      ha.tokenProgram, (), ha.eventCpi, rfl⟩

/-! ## when the tokens can be taken -/

/-- An adapter can lock what is received. -/
def Lockable (n : Node) (received : ℕ) : Prop :=
  n.store.oftType = .adapter → n.store.tvlLd.toNat + received < 2 ^ 64

/-- The calls that take the tokens of account `source`: to the escrow, or by
burning what is received and moving the fee to the escrow. -/
def payIn (env : Externals) (n : Node) (epoch : UInt64) (source signer : Pubkey)
    (sent received fee : UInt64) : Option Tokens :=
  match n.store.oftType with
  | .adapter => env.tokenProgram.transferChecked n.tokens epoch source n.store.tokenEscrow signer
      sent n.tokens.mint.decimals
  | .native => (env.tokenProgram.burn n.tokens source signer received).bind fun burnt =>
      if 0 < fee then env.tokenProgram.transferChecked burnt epoch source n.store.tokenEscrow signer
        fee n.tokens.mint.decimals
      else some burnt

theorem isOk_takeTokens (epoch : UInt64) {sent received fee : UInt64}
    (haddress : acc.tokenEscrow.pubkey = n.store.tokenEscrow)
    (hnative : n.store.oftType = .native → received.toNat + fee.toNat = sent.toNat) :
    (takeTokens env n acc epoch sent received fee).isOk ↔ Lockable n received.toNat ∧
      (payIn env n epoch acc.tokenSource.pubkey acc.signer.pubkey sent received fee).isSome := by
  unfold takeTokens Lockable payIn
  rw [haddress]
  cases htype : n.store.oftType with
  | adapter =>
      simp only [if_true, forall_const, Except.isOk_bind, Except.okOr_eq_ok, orAbort_eq_ok,
        UInt64.checkedAdd_eq_some, Option.isSome_iff_exists]
      constructor
      · rintro ⟨tvlLd, htvl, moved, hmoved, -⟩
        have hlt := tvlLd.toNat_lt_two_pow
        exact ⟨by omega, moved, hmoved⟩
      · rintro ⟨hfits, moved, hmoved⟩
        obtain ⟨tvlLd, htvl⟩ := UInt64.exists_toNat_eq hfits
        exact ⟨tvlLd, htvl, moved, hmoved, rfl⟩
  | native =>
      have hsub : sent.checkedSub fee = some received := by
        rw [UInt64.checkedSub_eq_some]
        have hsum := hnative htype
        omega
      have htype' : ¬ OFTType.native = OFTType.adapter := by decide
      rw [if_neg htype', hsub, and_iff_right fun h => absurd h htype']
      simp only [Except.isOk_bind, Except.okOr_eq_ok, orAbort_eq_ok, Option.some.injEq,
        exists_eq_left', Option.isSome_iff_exists, Option.bind_eq_some_iff]
      rw [exists_comm]
      refine exists_congr fun burnt => ?_
      rw [exists_and_left]
      refine and_congr_right fun _ => ?_
      split
      · rw [Except.isOk_bind]
        simp only [Except.okOr_eq_ok]
        exact exists_congr fun _ => and_iff_left rfl
      · exact iff_of_true rfl ⟨burnt, rfl⟩

/-- What a send and its quote both check: the pause, the peer, the least
amount asked for and the options. -/
structure Quotable (env : Externals) (clock : Clock) (n : Node) (params : SendParams)
    (peer : PeerConfig) (options : List UInt8) : Prop where
  running : n.store.paused = false
  found : n.peers params.dstEid = some peer
  slippage : params.minAmountLd.toNat ≤
    n.receivedLd clock.epoch peer.feeBps params.amountLd.toNat
  options : peer.enforcedOptions.combineOptions env params.composeMsg params.options = .ok options

/-- What only a send looks at: the owner of the tokens, the limiters and
their clock, the value locked, the account that stands for the sender, and the
endpoint. -/
structure Takes (clock : Clock) (endpoint : Endpoint) (n : Node) (acc : Accounts)
    (remaining : List LzAccount) (params : SendParams) (peer : PeerConfig)
    (options : List UInt8) : Prop where
  owner : n.TokenAccountOf acc.signer.pubkey acc.tokenSource
  admitted : ∀ l, peer.outboundRateLimiter = some l → ∃ now, clock.currentTime = .ok now ∧
    n.receivedLd clock.epoch peer.feeBps params.amountLd.toNat ≤ l.available now
  refilled : peer.inboundRateLimiter.isSome → ∃ now, clock.currentTime = .ok now
  lockable : Lockable n (n.receivedLd clock.epoch peer.feeBps params.amountLd.toNat)
  sender : remaining[1]?.map (·.pubkey) = some n.key
  sent : (endpoint.send remaining {
    dstEid := params.dstEid
    receiver := peer.peerAddress
    message := MsgCodec.encode params.toAddress (UInt64.ofNat
      (n.receivedLd clock.epoch peer.feeBps params.amountLd.toNat / n.store.ld2sdRate.toNat))
      acc.signer.pubkey params.composeMsg
    options
    nativeFee := params.nativeFee
    lzTokenFee := params.lzTokenFee }).isSome

/-- The token program takes the calls of a send. -/
def CallsTaken (env : Externals) (clock : Clock) (n : Node) (acc : Accounts) (params : SendParams)
    (feeBps : Option UInt16) : Prop :=
  (payIn env n clock.epoch acc.tokenSource.pubkey acc.signer.pubkey
    (UInt64.ofNat (n.sentLd clock.epoch params.amountLd.toNat))
    (UInt64.ofNat (n.receivedLd clock.epoch feeBps params.amountLd.toNat))
    (UInt64.ofNat (n.oftFeeLd clock.epoch feeBps params.amountLd.toNat))).isSome

section

variable {peer : PeerConfig} {options : List UInt8}

/-- A send that succeeds met every condition. -/
theorem takes_of_apply (hg : n.Genuine env) (hc : n.Chargeable) (ha : Addressed env n acc params)
    {r : Outcome × MessagingReceipt × OFTSent}
    (h : apply env clock endpoint n acc remaining params = .ok r) :
    ∃ peer options, Quotable env clock n params peer options ∧
      Takes clock endpoint n acc remaining params peer options ∧
      CallsTaken env clock n acc params peer.feeBps := by
  obtain ⟨hprepare, hsend, -⟩ := apply_eq_ok h
  simp only [prepare, Except.bind_eq_ok, Except.require_eq_ok, Except.pure_eq_ok, orAbort_eq_ok,
    OFTStore.ld2sd_eq_ok] at hprepare
  obtain ⟨peer, hacc, -, hrunning, ⟨sent, received, fee⟩, hamounts, -, hslippage, outbound,
    hconsumed, inbound, hrefilled, taken, htake, senderAcc, hsender, -, hkey, amountSd,
    ⟨-, hsd⟩, options, hoptions, hout⟩ := hprepare
  obtain ⟨hfound, hsource⟩ := (tryAccounts_iff hg ha).mp hacc
  obtain ⟨sent', received', fee', hamounts', hsent, hreceived, hfee⟩ :=
    hc.amounts hfound clock params.amountLd
  obtain ⟨rfl, rfl, rfl⟩ : sent' = sent ∧ received' = received ∧ fee' = fee := by
    simpa only [Except.ok.injEq, Prod.mk.injEq] using hamounts'.symm.trans hamounts
  obtain ⟨hlockable, hpaid⟩ := (isOk_takeTokens clock.epoch ha.tokenEscrow.1
    (charged hamounts).native).mp (Except.isOk_iff.mpr ⟨taken, htake⟩)
  refine ⟨peer, options, {
    running := hrunning
    found := hfound
    slippage := by rw [hreceived]; exact UInt64.le_iff_toNat_le.mp hslippage
    options := hoptions }, {
    owner := hsource
    admitted := by
      rw [hreceived]
      exact RateLimiter.isOk_onLimiter_tryConsume.mp (Except.isOk_iff.mpr ⟨_, hconsumed⟩)
    refilled := LzReceive.isOk_onLimiter_refill.mp (Except.isOk_iff.mpr ⟨_, hrefilled⟩)
    lockable := by rw [hreceived]; exact hlockable
    sender := by rw [hsender, Option.map_some, ← hkey, ha.oftStore.1.1]
    sent := by
      rw [hreceived, hsd, UInt64.ofNat_toNat]
      rw [← hout] at hsend
      exact Option.isSome_of_eq_some hsend }, ?_⟩
  rw [CallsTaken, hsent, hreceived, hfee, UInt64.ofNat_toNat, UInt64.ofNat_toNat,
    UInt64.ofNat_toNat]
  exact hpaid

/-- A send that meets them succeeds. -/
theorem apply_of_takes (hg : n.Genuine env) (hc : n.Chargeable) (ha : Addressed env n acc params)
    (hquotable : Quotable env clock n params peer options)
    (htakes : Takes clock endpoint n acc remaining params peer options)
    (hpaid : CallsTaken env clock n acc params peer.feeBps) :
    (apply env clock endpoint n acc remaining params).isOk := by
  obtain ⟨sent, received, fee, hamounts, hsent, hreceived, hfee⟩ :=
    hc.amounts hquotable.found clock params.amountLd
  have hacc := (tryAccounts_iff hg ha).mpr ⟨hquotable.found, htakes.owner⟩
  have hslippage := hquotable.slippage
  have hadmitted := htakes.admitted
  have hlockable := htakes.lockable
  have hsend := htakes.sent
  rw [hreceived] at hslippage hadmitted hlockable hsend
  rw [CallsTaken, hsent, hreceived, hfee, UInt64.ofNat_toNat, UInt64.ofNat_toNat,
    UInt64.ofNat_toNat] at hpaid
  obtain ⟨outbound, hconsumed⟩ := Except.isOk_iff.mp
    (RateLimiter.isOk_onLimiter_tryConsume.mpr hadmitted)
  obtain ⟨inbound, hrefilled⟩ := Except.isOk_iff.mp
    ((LzReceive.isOk_onLimiter_refill (a := received)).mpr htakes.refilled)
  obtain ⟨taken, htake⟩ := Except.isOk_iff.mp ((isOk_takeTokens clock.epoch ha.tokenEscrow.1
    (charged hamounts).native).mpr ⟨hlockable, hpaid⟩)
  obtain ⟨senderAcc, hsender, hkey⟩ := Option.map_eq_some_iff.mp htakes.sender
  obtain ⟨amountSd, hsd⟩ := UInt64.exists_toNat_eq
    (n := received.toNat / n.store.ld2sdRate.toNat)
    ((Nat.div_le_self _ _).trans_lt received.toNat_lt_two_pow)
  rw [hsd, UInt64.ofNat_toNat] at hsend
  obtain ⟨receipt, hsend⟩ := Option.isSome_iff_exists.mp hsend
  have hstore : acc.oftStore.pubkey = senderAcc.pubkey := ha.oftStore.1.1.trans hkey.symm
  simp only [apply, prepare, Except.isOk_bind, Except.bind_eq_ok, Except.require_eq_ok,
    Except.okOr_eq_ok, orAbort_eq_ok, OFTStore.ld2sd_eq_ok]
  exact ⟨_, ⟨peer, hacc, (), hquotable.running, _, hamounts, (),
    UInt64.le_iff_toNat_le.mpr hslippage, outbound, hconsumed, inbound, hrefilled, taken, htake,
    senderAcc, hsender, (), hstore, amountSd, ⟨hc.rate_ne_zero, hsd⟩, options, hquotable.options,
    rfl⟩, receipt, hsend, rfl⟩

end

/-- In a reachable state, a send to accounts of the right addresses succeeds
when it can be quoted and is taken, by the program and by the token program,
and only then. -/
theorem isOk_apply (hg : n.Genuine env) (hc : n.Chargeable) (ha : Addressed env n acc params) :
    (apply env clock endpoint n acc remaining params).isOk ↔ ∃ peer options,
      Quotable env clock n params peer options ∧
        Takes clock endpoint n acc remaining params peer options ∧
        CallsTaken env clock n acc params peer.feeBps := by
  constructor
  · intro h
    obtain ⟨r, hr⟩ := Except.isOk_iff.mp h
    exact takes_of_apply hg hc ha hr
  · rintro ⟨peer, options, hquotable, htakes, hpaid⟩
    exact apply_of_takes hg hc ha hquotable htakes hpaid

end Send

namespace QuoteSend

open Send (Addressed Quotable)

variable {env : Externals} {clock : Clock} {n : Node} {acc : Send.Accounts} {params : SendParams}

/-- What a quote asks the endpoint. -/
def requestOf (clock : Clock) (n : Node) (params : QuoteSendParams) (peer : PeerConfig)
    (options : List UInt8) : QuoteParams where
  sender := n.key
  dstEid := params.dstEid
  receiver := peer.peerAddress
  message := MsgCodec.encode params.toAddress (UInt64.ofNat
    (n.receivedLd clock.epoch peer.feeBps params.amountLd.toNat)) .default params.composeMsg
  payInLzToken := params.payInLzToken
  options

theorem tryAccounts_iff (hg : n.Genuine env) (ha : Addressed env n acc params)
    {peer : PeerConfig} :
    acc.quote.tryAccounts env n params.dstEid = .ok peer ↔ n.peers params.dstEid = some peer := by
  constructor
  · exact QuoteAccounts.found_of_tryAccounts
  · intro hfound
    have hprogram : env.isTokenProgram n.tokens.mint.tokenProgram := by
      rw [ha.tokenMint.1.2]
      exact ha.tokenProgram
    simp only [QuoteAccounts.tryAccounts, Except.bind_eq_ok, Except.require_eq_ok,
      Except.okOr_eq_ok, Except.pure_eq_ok]
    exact ⟨peer, hfound, (), ha.oftStore.1, (), Send.peerAt hg ha hfound, (),
      ⟨ha.tokenMint.1.1, hprogram⟩, rfl⟩

/-- A quote on the same accounts succeeds when the send can be quoted and the
endpoint names a price. -/
theorem isOk_apply {endpoint : Endpoint} {remaining : List LzAccount} {quoted : QuoteSendParams}
    (hg : n.Genuine env) (hc : n.Chargeable) (ha : Addressed env n acc params)
    (hshared : quoted.shared = params.shared) :
    (apply env clock endpoint n acc.quote remaining quoted).isOk ↔ ∃ peer options,
      Quotable env clock n params peer options ∧
        (endpoint.quote remaining (requestOf clock n quoted peer options)).isSome := by
  simp only [QuoteSendParams.shared, SendParams.shared, Prod.mk.injEq] at hshared
  obtain ⟨hdst, hto, hamount, hmin, hoptions, hcompose⟩ := hshared
  have hkey : acc.quote.oftStore.pubkey = n.key := ha.oftStore.1.1
  simp only [apply, prepare, Except.isOk_bind, Except.bind_eq_ok, Except.require_eq_ok,
    Except.pure_eq_ok, hdst, tryAccounts_iff hg ha, hkey, hamount, hmin, hoptions, hcompose]
  constructor
  · rintro ⟨request, ⟨peer, hfound, -, hrunning, ⟨sent, received, fee⟩, hamounts, -, hslippage,
      options, hcombined, rfl⟩, hquote⟩
    obtain ⟨sent', received', fee', hamounts', -, hreceived, -⟩ :=
      hc.amounts hfound clock params.amountLd
    obtain ⟨rfl, rfl, rfl⟩ : sent' = sent ∧ received' = received ∧ fee' = fee := by
      simpa only [Except.ok.injEq, Prod.mk.injEq] using hamounts'.symm.trans hamounts
    refine ⟨peer, options, ⟨hrunning, hfound, ?_, hcombined⟩, ?_⟩
    · rw [hreceived]
      exact UInt64.le_iff_toNat_le.mp hslippage
    · rw [requestOf, hdst, hamount, hcompose, hreceived, UInt64.ofNat_toNat]
      obtain ⟨fee, hfee⟩ := Except.isOk_iff.mp hquote
      exact Option.isSome_of_eq_some (Except.okOr_eq_ok.mp hfee)
  · rintro ⟨peer, options, hquotable, hpriced⟩
    obtain ⟨sent, received, fee, hamounts, -, hreceived, -⟩ :=
      hc.amounts hquotable.found clock params.amountLd
    have hslippage := hquotable.slippage
    rw [hreceived] at hslippage
    rw [requestOf, hdst, hamount, hcompose, hreceived, UInt64.ofNat_toNat] at hpriced
    obtain ⟨price, hprice⟩ := Option.isSome_iff_exists.mp hpriced
    exact ⟨_, ⟨peer, hquotable.found, (), hquotable.running, _, hamounts, (),
      UInt64.le_iff_toNat_le.mpr hslippage, options, hquotable.options, rfl⟩,
      Except.isOk_iff.mpr ⟨price, Except.okOr_eq_ok.mpr hprice⟩⟩

end QuoteSend

namespace Node

/-- Sending: in every state a run from `init_oft` reaches, a send to accounts
of the right addresses succeeds exactly when it can be quoted, is taken, and
the token program takes its calls, and a quote for the same transfer exactly
when it can be quoted and the endpoint names a price. -/
theorem send_iff (env : Externals) (n₀ : Node) (hinit : InitOFT.Created env n₀)
    (events : List Event) (clock : Clock) (endpoint : Endpoint) (acc : Send.Accounts)
    (remaining : List LzAccount) (params : SendParams) :
    let n := Run.final (step env) n₀ events
    Send.Addressed env n acc params →
    ((Send.apply env clock endpoint n acc remaining params).isOk ↔ ∃ peer options,
      Send.Quotable env clock n params peer options ∧
        Send.Takes clock endpoint n acc remaining params peer options ∧
        Send.CallsTaken env clock n acc params peer.feeBps) ∧
    ∀ quoted : QuoteSendParams, quoted.shared = params.shared →
      ((QuoteSend.apply env clock endpoint n acc.quote remaining quoted).isOk ↔ ∃ peer options,
        Send.Quotable env clock n params peer options ∧
          (endpoint.quote remaining (QuoteSend.requestOf clock n quoted peer options)).isSome) := by
  intro n haddressed
  have hgenuine : n.Genuine env := genuine_final hinit events
  have hchargeable : n.Chargeable := chargeable_final hinit events
  exact ⟨Send.isOk_apply hgenuine hchargeable haddressed,
    fun quoted hshared => QuoteSend.isOk_apply hgenuine hchargeable haddressed hshared⟩

/-- A send through the adapter of `feeRun`. -/
theorem send_iff_example :
    let n := Run.final (step .sample) (sample .adapter feeTokens) feeRun
    ∃ peer options, Send.Quotable .sample ⟨0, 0⟩ n (Instruction.sampleParams 30101 2000500) peer
        options ∧
      Send.Takes ⟨0, 0⟩ .sample n (Instruction.sampleAccounts 30101) Instruction.sampleRemaining
        (Instruction.sampleParams 30101 2000500) peer options ∧
      Send.CallsTaken .sample ⟨0, 0⟩ n (Instruction.sampleAccounts 30101)
        (Instruction.sampleParams 30101 2000500) peer.feeBps := by
  intro n
  have haddressed : Send.Addressed .sample n (Instruction.sampleAccounts 30101)
      (Instruction.sampleParams 30101 2000500) :=
    ⟨rfl, by decide +kernel, by decide +kernel, rfl, by decide +kernel, by decide +kernel,
      by decide +kernel, by decide +kernel⟩
  exact (send_iff .sample _ created_feeTokens feeRun ⟨0, 0⟩ .sample _ _ _ haddressed).1.mp
    (by decide +kernel)

end Node

end CrossChain
