import CrossChain.Solana.Receipts

/-!
# CrossChain.Solana.Agreement

Where the quotes and `send` agree, and where they do not.

The three handlers are written apart, over the same amounts.  They make the
same checks (`Node.checkedAmounts`) and go on whatever the minimum was
(`Checks`), so they pass and fail together, and what `quote_oft` lists as
fees is what the send then costs (`quotes_agree`).  They differ in two
places: `quote_send` writes the amount into its message in local decimals
(`quote_prices_iff`), and `quote_oft` does not look at the rate limiter
(`quoted_limits`).
-/

namespace CrossChain

/-! ## the common checks -/

/-- What a quote and a send are asked alike. -/
def SendParams.transfer (p : SendParams) : UInt32 × UInt64 × UInt64 :=
  (p.dstEid, p.amountLd, p.minAmountLd)

def QuoteOFTParams.transfer (p : QuoteOFTParams) : UInt32 × UInt64 × UInt64 :=
  (p.dstEid, p.amountLd, p.minAmountLd)

def QuoteSendParams.transfer (p : QuoteSendParams) : UInt32 × UInt64 × UInt64 :=
  (p.dstEid, p.amountLd, p.minAmountLd)

namespace Node

/-- The pause and slippage checks, and the amounts they pass on. -/
def checkedAmounts (n : Node) (clock : Clock) (peer : PeerConfig) (amountLd minAmountLd : UInt64) :
    Result (UInt64 × UInt64 × UInt64) := do
  require (n.store.paused = false) (.oft .paused)
  let amounts ←
    computeFeeAndAdjustAmount amountLd n.store n.tokens.mint clock peer.feeBps
  require (minAmountLd ≤ amounts.2.1) (.oft .slippageExceeded)
  pure amounts

theorem checkedAmounts_eq_ok {n : Node} {clock : Clock} {peer : PeerConfig}
    {a minAmountLd : UInt64} {amounts : UInt64 × UInt64 × UInt64} :
    n.checkedAmounts clock peer a minAmountLd = .ok amounts ↔ n.store.paused = false ∧
      computeFeeAndAdjustAmount a n.store n.tokens.mint clock peer.feeBps = .ok amounts ∧
      minAmountLd ≤ amounts.2.1 := by
  simp only [checkedAmounts, Except.bind_eq_ok, Except.require_eq_ok, Except.pure_eq_ok]
  constructor
  · rintro ⟨-, hrunning, amounts', hamounts, -, hmin, rfl⟩
    exact ⟨hrunning, hamounts, hmin⟩
  · rintro ⟨hrunning, hamounts, hmin⟩
    exact ⟨(), hrunning, amounts, hamounts, (), hmin, rfl⟩

/-- As a function of the minimum, `handler` makes these checks and goes on
with the amounts, whatever the minimum was. -/
def Checks {α : Type} (n : Node) (clock : Clock) (peer : PeerConfig) (amountLd : UInt64)
    (handler : UInt64 → Result α) : Prop :=
  ∃ proceed, ∀ minAmountLd,
    handler minAmountLd = n.checkedAmounts clock peer amountLd minAmountLd >>= proceed

section

variable {α : Type} {n : Node} {clock : Clock} {peer : PeerConfig} {a minAmountLd : UInt64}
  {handler : UInt64 → Result α}

theorem Checks.error (h : n.Checks clock peer a handler) {e : Error}
    (he : n.checkedAmounts clock peer a minAmountLd = .error e) :
    handler minAmountLd = .error e := by
  obtain ⟨proceed, h⟩ := h
  rw [h, he]
  rfl

/-- A handler that passed the checks does what it does without a minimum. -/
theorem Checks.passed (h : n.Checks clock peer a handler) {amounts : UInt64 × UInt64 × UInt64}
    (hchecked : n.checkedAmounts clock peer a minAmountLd = .ok amounts) :
    handler minAmountLd = handler 0 := by
  obtain ⟨proceed, h⟩ := h
  obtain ⟨hrunning, hamounts, -⟩ := checkedAmounts_eq_ok.mp hchecked
  have hzero : n.checkedAmounts clock peer a 0 = .ok amounts :=
    checkedAmounts_eq_ok.mpr ⟨hrunning, hamounts, UInt64.zero_le⟩
  rw [h, h, hchecked, hzero]

end

end Node

theorem QuoteOFT.checks {env : Externals} {n : Node} {acc : QuoteAccounts}
    {params : QuoteOFTParams} {peer : PeerConfig} (clock : Clock)
    (hacc : acc.tryAccounts env n params.dstEid = .ok peer) :
    n.Checks clock peer params.amountLd fun minAmountLd =>
      apply env clock n acc { params with minAmountLd } := by
  apply Exists.intro
  intro minAmountLd
  simp only [apply, Node.checkedAmounts, hacc, bind_assoc, pure_bind]
  rfl

theorem QuoteSend.checks {env : Externals} {n : Node} {acc : QuoteAccounts}
    {params : QuoteSendParams} {peer : PeerConfig} (clock : Clock) (endpoint : Endpoint)
    (remaining : List LzAccount) (hacc : acc.tryAccounts env n params.dstEid = .ok peer) :
    n.Checks clock peer params.amountLd fun minAmountLd =>
      apply env clock endpoint n acc remaining { params with minAmountLd } := by
  apply Exists.intro
  intro minAmountLd
  simp only [apply, prepare, Node.checkedAmounts, hacc, bind_assoc, pure_bind]
  rfl

theorem Send.checks {env : Externals} {n : Node} {acc : Accounts} {params : SendParams}
    {peer : PeerConfig} (clock : Clock) (endpoint : Endpoint) (remaining : List LzAccount)
    (hacc : tryAccounts env n acc params = .ok peer) :
    n.Checks clock peer params.amountLd fun minAmountLd =>
      apply env clock endpoint n acc remaining { params with minAmountLd } := by
  have hacc' : ∀ minAmountLd, tryAccounts env n acc { params with minAmountLd } = .ok peer :=
    fun _ => hacc
  apply Exists.intro
  intro minAmountLd
  simp only [apply, prepare, Node.checkedAmounts, hacc', bind_assoc, pure_bind]
  rfl

/-! ## the fee details -/

namespace QuoteOFT

/-- A fee is listed when it is not zero. -/
def feeDetail (description : String) (feeAmountLd : UInt64) : List OFTFeeDetail :=
  if 0 < feeAmountLd then [{ feeAmountLd, description }] else []

theorem mem_feeDetail {description description' : String} {x feeAmountLd : UInt64} :
    (⟨x, description⟩ : OFTFeeDetail) ∈ feeDetail description' feeAmountLd ↔
      description = description' ∧ x ≠ 0 ∧ x = feeAmountLd := by
  unfold feeDetail
  split
  · next hpos =>
    rw [List.mem_singleton, OFTFeeDetail.mk.injEq]
    constructor
    · rintro ⟨rfl, rfl⟩
      exact ⟨rfl, (UInt64.ne_of_lt hpos).symm, rfl⟩
    · rintro ⟨rfl, -, rfl⟩
      exact ⟨rfl, rfl⟩
  · next hzero =>
    have hzero' : feeAmountLd = 0 := UInt64.le_zero_iff.mp (UInt64.not_lt.mp hzero)
    simp only [List.not_mem_nil, false_iff]
    rintro ⟨-, hx, rfl⟩
    exact hx hzero'

theorem sum_feeDetail (description : String) (feeAmountLd : UInt64) :
    ((feeDetail description feeAmountLd).map (·.feeAmountLd.toNat)).sum = feeAmountLd.toNat := by
  unfold feeDetail
  split
  · simp
  · next hzero =>
    rw [UInt64.le_zero_iff.mp (UInt64.not_lt.mp hzero)]
    rfl

/-- What is neither received nor the fee is listed, and nothing underflows. -/
theorem transferFeeDetails_eq {sent received fee withheld : UInt64}
    (h : received.toNat + fee.toNat + withheld.toNat = sent.toNat) :
    transferFeeDetails sent received fee =
      .ok (feeDetail "Token2022 Transfer Fee" withheld) := by
  have hsent := sent.toNat_lt_two_pow
  obtain ⟨accounted, haccounted⟩ :=
    UInt64.exists_toNat_eq (n := received.toNat + fee.toNat) (by omega)
  obtain ⟨afterFee, hafter⟩ := UInt64.exists_toNat_eq (n := sent.toNat - fee.toNat) (by omega)
  have hadd : received.checkedAdd fee = some accounted :=
    UInt64.checkedAdd_eq_some.mpr haccounted
  have hsub : sent.checkedSub fee = some afterFee := UInt64.checkedSub_eq_some.mpr (by omega)
  have hrest : afterFee.checkedSub received = some withheld :=
    UInt64.checkedSub_eq_some.mpr (by omega)
  have hlt : accounted < sent ↔ 0 < withheld := by
    rw [UInt64.lt_iff_toNat_lt, UInt64.lt_iff_toNat_lt, UInt64.toNat_zero]
    omega
  simp only [transferFeeDetails, feeDetail, Except.bind_eq_ok, orAbort_eq_ok]
  refine ⟨accounted, hadd, ?_⟩
  by_cases hpos : 0 < withheld
  · rw [if_pos (hlt.mpr hpos), if_pos hpos]
    simp only [Except.bind_eq_ok, orAbort_eq_ok]
    exact ⟨afterFee, hsub, withheld, hrest, rfl⟩
  · rw [if_neg (mt hlt.mp hpos), if_neg hpos]
    rfl

end QuoteOFT

theorem QuoteOFT.apply_of_checkedAmounts {env : Externals} {clock : Clock} {n : Node}
    {acc : QuoteAccounts} {params : QuoteOFTParams} {peer : PeerConfig}
    {sent received fee withheld : UInt64}
    (hacc : acc.tryAccounts env n params.dstEid = .ok peer)
    (hchecked : n.checkedAmounts clock peer params.amountLd params.minAmountLd =
      .ok (sent, received, fee))
    (hsum : received.toNat + fee.toNat + withheld.toNat = sent.toNat) :
    apply env clock n acc params = .ok {
      oftLimits := ⟨0, 0xffffffffffffffff⟩
      oftFeeDetails :=
        feeDetail "Token2022 Transfer Fee" withheld ++ feeDetail "Cross Chain Fee" fee
      oftReceipt := ⟨sent, received⟩ } := by
  obtain ⟨hrunning, hamounts, hmin⟩ := Node.checkedAmounts_eq_ok.mp hchecked
  simp only [apply, Except.bind_eq_ok, Except.require_eq_ok, Except.pure_eq_ok]
  exact ⟨peer, hacc, (), hrunning, _, hamounts, (), hmin, _, transferFeeDetails_eq hsum, rfl⟩

/-- A quote that was answered passed the checks. -/
theorem QuoteOFT.checkedAmounts_of_apply {env : Externals} {clock : Clock} {n : Node}
    {acc : QuoteAccounts} {params : QuoteOFTParams} {q : QuoteOFTResult} {peer : PeerConfig}
    (h : apply env clock n acc params = .ok q) (hpeer : n.peers params.dstEid = some peer) :
    ∃ fee, n.checkedAmounts clock peer params.amountLd params.minAmountLd =
        .ok (q.oftReceipt.amountSentLd, q.oftReceipt.amountReceivedLd, fee) ∧
      q.oftLimits = ⟨0, 0xffffffffffffffff⟩ := by
  simp only [apply, Except.bind_eq_ok, Except.require_eq_ok, Except.pure_eq_ok] at h
  obtain ⟨peer', hacc, -, hrunning, ⟨sent, received, fee⟩, hamounts, -, hmin, -, -, rfl⟩ := h
  have hfound := QuoteAccounts.found_of_tryAccounts hacc
  obtain rfl : peer = peer' := Option.some.inj (hpeer.symm.trans hfound)
  exact ⟨fee, Node.checkedAmounts_eq_ok.mpr ⟨hrunning, hamounts, hmin⟩, rfl⟩

/-! ## `quote_oft` and `send` -/

/-- The quotes and the send of one transfer, in one state, make the same
checks: they fail together, or all go on as if no minimum had been given.
What `quote_oft` then answers is the receipt of the send, its fees make up
what is sent and not received, and they are what the token program withholds
of the transfer and what the escrow gains beyond the value locked. -/
theorem quotes_agree (env : Externals) (clock : Clock) (endpoint : Endpoint) (n : Node)
    (acc : Send.Accounts) (remaining : List LzAccount) (params : SendParams)
    (oftAcc : QuoteAccounts) (oftParams : QuoteOFTParams) (quoteAcc : QuoteAccounts)
    (quoteRemaining : List LzAccount) (quoteParams : QuoteSendParams) (peer : PeerConfig)
    (hoft : oftParams.transfer = params.transfer)
    (hquote : quoteParams.transfer = params.transfer)
    (hacc : Send.tryAccounts env n acc params = .ok peer)
    (hoftAcc : oftAcc.tryAccounts env n params.dstEid = .ok peer)
    (hquoteAcc : quoteAcc.tryAccounts env n params.dstEid = .ok peer)
    (hsigner : acc.signer.pubkey ≠ n.key)
    (hnative : n.store.oftType = .native → ∀ a, n.tokens.mint.withheld clock.epoch a = 0) :
    (∀ e, n.checkedAmounts clock peer params.amountLd params.minAmountLd = .error e →
      Send.apply env clock endpoint n acc remaining params = .error e ∧
      QuoteOFT.apply env clock n oftAcc oftParams = .error e ∧
      QuoteSend.apply env clock endpoint n quoteAcc quoteRemaining quoteParams = .error e) ∧
    ∀ sent received fee, n.checkedAmounts clock peer params.amountLd params.minAmountLd =
        .ok (sent, received, fee) →
      Send.apply env clock endpoint n acc remaining params =
        Send.apply env clock endpoint n acc remaining { params with minAmountLd := 0 } ∧
      QuoteSend.apply env clock endpoint n quoteAcc quoteRemaining quoteParams =
        QuoteSend.apply env clock endpoint n quoteAcc quoteRemaining
          { quoteParams with minAmountLd := 0 } ∧
      ∃ q, QuoteOFT.apply env clock n oftAcc oftParams = .ok q ∧
        q.oftReceipt = ⟨sent, received⟩ ∧
        (q.oftFeeDetails.map (·.feeAmountLd.toNat)).sum + received.toNat = sent.toNat ∧
        ∀ out msgReceipt event, Send.apply env clock endpoint n acc remaining params =
            .ok (out, msgReceipt, event) →
          out.receipt = q.oftReceipt ∧ event.amountSentLd = sent ∧
          event.amountReceivedLd = received ∧
          (n.store.oftType = .adapter → ∀ x,
            (⟨x, "Token2022 Transfer Fee"⟩ : OFTFeeDetail) ∈ q.oftFeeDetails ↔
              x ≠ 0 ∧ x.toNat = n.tokens.mint.withheld clock.epoch sent.toNat) ∧
          ∀ x, (⟨x, "Cross Chain Fee"⟩ : OFTFeeDetail) ∈ q.oftFeeDetails ↔ x ≠ 0 ∧
            out.node.tokens.balance n.store.tokenEscrow + n.store.tvlLd.toNat =
              n.tokens.balance n.store.tokenEscrow + out.node.store.tvlLd.toNat + x.toNat := by
  obtain ⟨hdst, hamount, hmin⟩ : oftParams.dstEid = params.dstEid ∧
      oftParams.amountLd = params.amountLd ∧ oftParams.minAmountLd = params.minAmountLd := by
    simpa [QuoteOFTParams.transfer, SendParams.transfer] using hoft
  obtain ⟨hdst', hamount', hmin'⟩ : quoteParams.dstEid = params.dstEid ∧
      quoteParams.amountLd = params.amountLd ∧ quoteParams.minAmountLd = params.minAmountLd := by
    simpa [QuoteSendParams.transfer, SendParams.transfer] using hquote
  rw [← hdst] at hoftAcc
  rw [← hdst'] at hquoteAcc
  have hsendChecks := Send.checks clock endpoint remaining hacc
  have hquoteChecks := QuoteSend.checks clock endpoint quoteRemaining hquoteAcc
  have hoftSame : n.checkedAmounts clock peer oftParams.amountLd oftParams.minAmountLd =
      n.checkedAmounts clock peer params.amountLd params.minAmountLd := by rw [hamount, hmin]
  have hquoteSame : n.checkedAmounts clock peer quoteParams.amountLd quoteParams.minAmountLd =
      n.checkedAmounts clock peer params.amountLd params.minAmountLd := by rw [hamount', hmin']
  refine ⟨fun e he => ⟨hsendChecks.error he, ?_, ?_⟩, ?_⟩
  · exact (QuoteOFT.checks clock hoftAcc).error (hoftSame.trans he)
  · exact hquoteChecks.error (hquoteSame.trans he)
  intro sent received fee hchecked
  obtain ⟨hrunning, hamounts, hslippage⟩ := Node.checkedAmounts_eq_ok.mp hchecked
  have hcharged := charged hamounts
  obtain ⟨withheld, hsum, hwithheld⟩ := hcharged.exists_withheld
  refine ⟨hsendChecks.passed hchecked, hquoteChecks.passed (hquoteSame.trans hchecked), _,
    QuoteOFT.apply_of_checkedAmounts hoftAcc (hoftSame.trans hchecked) hsum, rfl, ?_, ?_⟩
  · rw [List.map_append, List.sum_append, QuoteOFT.sum_feeDetail, QuoteOFT.sum_feeDetail]
    omega
  intro out msgReceipt event hsend
  obtain ⟨hprepare, -, hevent⟩ := Send.apply_eq_ok hsend
  obtain ⟨peer', outbound, inbound, hp⟩ := Send.prepared hprepare
  obtain rfl : peer = peer' := by
    have hfound := (Send.constrained hacc).found
    rw [hp.found, Option.some.injEq] at hfound
    exact hfound.symm
  have hsame : (out.receipt.amountSentLd, out.receipt.amountReceivedLd, out.oftFeeLd) =
      (sent, received, fee) := Except.ok.inj (hp.amounts.symm.trans hamounts)
  simp only [Prod.mk.injEq] at hsame
  obtain ⟨rfl, rfl, rfl⟩ := hsame
  have hescrow := hp.taken.escrow hcharged.adapter hnative (Send.source_ne_escrow hprepare hsigner)
  rw [hp.escrow] at hescrow
  simp only at hescrow
  refine ⟨rfl, congrArg (·.amountSentLd) hevent, congrArg (·.amountReceivedLd) hevent, ?_, ?_⟩
  · intro hadapter x
    have hwithheld' := hwithheld hadapter
    simp only [List.mem_append, QuoteOFT.mem_feeDetail, String.reduceEq, false_and, or_false,
      true_and, ← UInt64.toNat_inj]
    exact and_congr_right fun _ => ⟨fun hx => by omega, fun hx => by omega⟩
  · intro x
    simp only [List.mem_append, QuoteOFT.mem_feeDetail, String.reduceEq, false_and, false_or,
      true_and, ← UInt64.toNat_inj]
    exact and_congr_right fun _ => ⟨fun hx => by omega, fun hx => by omega⟩

/-- The accounts of a quote of the send with the accounts `acc`. -/
def Send.Accounts.quote (acc : Accounts) : QuoteAccounts :=
  ⟨acc.oftStore, acc.peer, acc.tokenMint⟩

/-- 2000500 units, with a compose message. -/
def composedSend : SendParams :=
  { Instruction.sampleParams 30101 2000500 with composeMsg := some [1] }

theorem quotes_agree_example :
    let n := Run.final (Node.step .sample) (.sample .adapter Node.feeTokens) Node.feeRun
    let acc := Instruction.sampleAccounts 30101
    ∃ q out msgReceipt event,
      QuoteOFT.apply .sample ⟨0, 0⟩ n acc.quote ⟨30101, .zero 32, 2000500, 0, [], none, false⟩ =
        .ok q ∧
      Send.apply .sample ⟨0, 0⟩ .sample n acc Instruction.sampleRemaining composedSend =
        .ok (out, msgReceipt, event) ∧
      out.receipt = q.oftReceipt := by
  intro n acc
  obtain ⟨-, hpassed⟩ := quotes_agree .sample ⟨0, 0⟩ .sample n acc Instruction.sampleRemaining
    composedSend acc.quote ⟨30101, .zero 32, 2000500, 0, [], none, false⟩ acc.quote []
    ⟨30101, .zero 32, 2000500, 0, [], none, false⟩ Node.feePeer (by decide) (by decide)
    (by decide +kernel) (by decide +kernel) (by decide +kernel) (by decide +kernel)
    (fun htype => absurd htype (by decide +kernel))
  have hok : (n.checkedAmounts ⟨0, 0⟩ Node.feePeer 2000500 0).isOk := by decide +kernel
  have hok' : (Send.apply .sample ⟨0, 0⟩ .sample n acc Instruction.sampleRemaining
      composedSend).isOk := by decide +kernel
  obtain ⟨⟨sent, received, fee⟩, hchecked⟩ := Except.exists_eq_ok_of_isOk hok
  obtain ⟨⟨out, msgReceipt, event⟩, hrun⟩ := Except.exists_eq_ok_of_isOk hok'
  obtain ⟨-, -, q, hquote, -, -, hsend⟩ := hpassed sent received fee hchecked
  exact ⟨q, out, msgReceipt, event, hquote, hrun, (hsend _ _ _ hrun).1⟩

/-! ## `quote_send` and `send` -/

/-- The parameters that a quote and a send share. -/
def SendParams.shared (p : SendParams) :
    UInt32 × FixedBytes 32 × UInt64 × UInt64 × List UInt8 × Option (List UInt8) :=
  (p.dstEid, p.toAddress, p.amountLd, p.minAmountLd, p.options, p.composeMsg)

def QuoteSendParams.shared (p : QuoteSendParams) :
    UInt32 × FixedBytes 32 × UInt64 × UInt64 × List UInt8 × Option (List UInt8) :=
  (p.dstEid, p.toAddress, p.amountLd, p.minAmountLd, p.options, p.composeMsg)

/-- The quote is asked for the message of the send, its sender apart, which
the quote does not know. -/
structure PricesSent (quote : QuoteParams) (send : EndpointSendParams) : Prop where
  dstEid : quote.dstEid = send.dstEid
  receiver : quote.receiver = send.receiver
  options : quote.options = send.options
  length : quote.message.length = send.message.length
  bytes : ∀ i, i < 40 ∨ 72 ≤ i → quote.message[i]? = send.message[i]?
  amountSd : MsgCodec.amountSd quote.message = MsgCodec.amountSd send.message

/-- Requests that agree apart from their messages agree in these when the
amounts are the same. -/
theorem pricesSent_iff {quote : QuoteParams} {send : EndpointSendParams} {dst : FixedBytes 32}
    {sd sd' : UInt64} {sender sender' : Pubkey} {msg : Option (List UInt8)}
    (hdst : quote.dstEid = send.dstEid) (hreceiver : quote.receiver = send.receiver)
    (hoptions : quote.options = send.options)
    (hquote : quote.message = MsgCodec.encode dst sd sender msg)
    (hsend : send.message = MsgCodec.encode dst sd' sender' msg) :
    PricesSent quote send ↔ sd = sd' := by
  constructor
  · intro h
    have hequal := h.amountSd
    rw [hquote, hsend, MsgCodec.amountSd_encode, MsgCodec.amountSd_encode] at hequal
    exact Option.some.inj hequal
  · rintro rfl
    refine ⟨hdst, hreceiver, hoptions, ?_, ?_, ?_⟩
    · rw [hquote, hsend]
      exact MsgCodec.length_encode_eq _ _ _ _ _ _
    · intro i hi
      rw [hquote, hsend]
      exact MsgCodec.getElem?_encode _ _ _ _ _ hi
    · rw [hquote, hsend, MsgCodec.amountSd_encode, MsgCodec.amountSd_encode]

/-- `quote_send` asks for a message with the amount in local decimals, where
the message of the send has it in shared decimals.  So it prices that message
when the two units are one, or when there is nothing to receive: less than
one shared unit is left of the amount.  Fees are below 100%, as every setter
checks (`Node.chargeable_final`). -/
theorem quote_prices_iff (env : Externals) (clock : Clock) (n : Node) (acc : Send.Accounts)
    (remaining : List LzAccount) (params : SendParams) (quoteAcc : QuoteAccounts)
    (quoteParams : QuoteSendParams) (peer : PeerConfig) (request : QuoteParams)
    (out : Send.Outcome) (hshared : quoteParams.shared = params.shared)
    (hpeer : n.peers params.dstEid = some peer)
    (hfee : n.store.finalFeeBps peer.feeBps < ONE_IN_BASIS_POINTS)
    (hquote : QuoteSend.prepare env clock n quoteAcc quoteParams = .ok request)
    (hsend : Send.prepare env clock n acc remaining params = .ok out) :
    PricesSent request out.request ↔ n.store.ld2sdRate = 1 ∨
      n.store.left n.tokens.mint clock.epoch params.amountLd.toNat < n.store.ld2sdRate.toNat := by
  obtain ⟨hdst, hto, hamount, -, hoptions, hcompose⟩ : quoteParams.dstEid = params.dstEid ∧
      quoteParams.toAddress = params.toAddress ∧ quoteParams.amountLd = params.amountLd ∧
      quoteParams.minAmountLd = params.minAmountLd ∧ quoteParams.options = params.options ∧
      quoteParams.composeMsg = params.composeMsg := by
    simpa [QuoteSendParams.shared, SendParams.shared] using hshared
  obtain ⟨quotePeer, hq⟩ := QuoteSend.prepared hquote
  obtain ⟨sendPeer, outbound, inbound, hs⟩ := Send.prepared hsend
  obtain rfl : quotePeer = peer := by
    have hfound := hq.found
    rw [hdst, hpeer, Option.some.injEq] at hfound
    exact hfound.symm
  obtain rfl : quotePeer = sendPeer := by
    have hfound := hs.found
    rw [hpeer, Option.some.injEq] at hfound
    exact hfound
  obtain ⟨sent, received, fee, hamounts, hquoted⟩ := hq.message
  obtain ⟨amountSd, hsd, hsent⟩ := hs.message
  rw [hto, hcompose] at hquoted
  rw [hamount] at hamounts
  have hsame := Except.ok.inj (hamounts.symm.trans hs.amounts)
  simp only [Prod.mk.injEq] at hsame
  obtain ⟨-, hsame, -⟩ := hsame
  rw [← hsame] at hsd
  obtain ⟨hrate, -, hreceived, -⟩ := (amounts_iff hfee.le).mp hamounts
  have hoptions' : request.options = out.request.options := by
    have hcombined := hq.options
    rw [hcompose, hoptions] at hcombined
    exact Except.ok.inj (hcombined.symm.trans hs.options)
  have hprices := pricesSent_iff (hq.dstEid.trans (hdst.trans hs.dstEid.symm))
    (hq.receiver.trans hs.receiver.symm) hoptions' hquoted hsent
  rw [hprices, ← UInt64.toNat_inj, ← hsd, eq_comm, Nat.div_eq_self, ← hreceived,
    Charging.received_eq_zero_iff (Nat.pos_of_ne_zero hrate) hfee, or_comm, ← UInt64.toNat_inj,
    UInt64.toNat_one]

/-- Of 999 units nothing is received, and the quote prices just that. -/
theorem quote_prices_iff_example :
    let n := Run.final (Node.step .sample) (.sample .adapter Node.feeTokens) Node.feeRun
    let acc := Instruction.sampleAccounts 30101
    ∃ request out,
      QuoteSend.prepare .sample ⟨0, 0⟩ n acc.quote ⟨30101, Pubkey.ofByte 22, 999, 0, [], none,
        false⟩ = .ok request ∧
      Send.prepare .sample ⟨0, 0⟩ n acc Instruction.sampleRemaining
        (Instruction.sampleParams 30101 999) = .ok out ∧
      PricesSent request out.request := by
  intro n acc
  have hok : (QuoteSend.prepare .sample ⟨0, 0⟩ n acc.quote
      ⟨30101, Pubkey.ofByte 22, 999, 0, [], none, false⟩).isOk := by decide +kernel
  have hok' : (Send.prepare .sample ⟨0, 0⟩ n acc Instruction.sampleRemaining
      (Instruction.sampleParams 30101 999)).isOk := by decide +kernel
  obtain ⟨request, hquote⟩ := Except.exists_eq_ok_of_isOk hok
  obtain ⟨out, hsend⟩ := Except.exists_eq_ok_of_isOk hok'
  have hprices := quote_prices_iff _ _ _ _ _ _ _ _ Node.feePeer _ _ (by decide) Node.peers_feeRun
    (by decide +kernel) hquote hsend
  exact ⟨request, out, hquote, hsend, hprices.mpr (.inr (by decide +kernel))⟩

/-- Of 2000500 units, the quote has the local amount in its message, and the
send a thousandth of it. -/
theorem quote_not_priced :
    let n := Run.final (Node.step .sample) (.sample .adapter Node.feeTokens) Node.feeRun
    let acc := Instruction.sampleAccounts 30101
    let params := Instruction.sampleParams 30101 2000500
    let quoteParams : QuoteSendParams :=
      ⟨30101, Pubkey.ofByte 22, 2000500, 0, [], none, false⟩
    quoteParams.shared = params.shared ∧ ∃ request out,
      QuoteSend.prepare .sample ⟨0, 0⟩ n acc.quote quoteParams = .ok request ∧
      Send.prepare .sample ⟨0, 0⟩ n acc Instruction.sampleRemaining params = .ok out ∧
      MsgCodec.amountSd request.message = some 1976000 ∧
      MsgCodec.amountSd out.request.message = some 1976 ∧ ¬ PricesSent request out.request := by
  intro n acc params quoteParams
  have hok : (do
      let request ← QuoteSend.prepare .sample ⟨0, 0⟩ n acc.quote quoteParams
      let out ← Send.prepare .sample ⟨0, 0⟩ n acc Instruction.sampleRemaining params
      require (MsgCodec.amountSd request.message = some 1976000 ∧
        MsgCodec.amountSd out.request.message = some 1976) .constraint).isOk := by
    decide +kernel
  obtain ⟨_, hrun⟩ := Except.exists_eq_ok_of_isOk hok
  simp only [Except.bind_eq_ok, Except.require_eq_ok] at hrun
  obtain ⟨request, hquote, out, hsend, hquoted, hsent⟩ := hrun
  refine ⟨by decide, request, out, hquote, hsend, hquoted, hsent, fun h => ?_⟩
  have hequal := h.amountSd
  rw [hquoted, hsent] at hequal
  exact absurd hequal (by decide)

/-! ## `quote_oft` and the rate limiter -/

namespace Send

/-- The checks that `send` makes on its amounts: pause, slippage and the
outbound limiter. -/
def amountChecks (n : Node) (clock : Clock) (peer : PeerConfig) (amountLd minAmountLd : UInt64) :
    Result (Option RateLimiter) := do
  let amounts ← n.checkedAmounts clock peer amountLd minAmountLd
  onLimiter peer.outboundRateLimiter (·.tryConsume clock amounts.2.1)

/-- They come right after the accounts, so what they reject is rejected. -/
theorem apply_of_amountChecks {env : Externals} {n : Node} {acc : Accounts} {params : SendParams}
    {peer : PeerConfig} {clock : Clock} (endpoint : Endpoint) (remaining : List LzAccount)
    (hacc : tryAccounts env n acc params = .ok peer) {e : Error}
    (h : amountChecks n clock peer params.amountLd params.minAmountLd = .error e) :
    apply env clock endpoint n acc remaining params = .error e := by
  have hfirst : ∃ proceed : UInt64 × UInt64 × UInt64 → Option RateLimiter → Result _,
      apply env clock endpoint n acc remaining params = (do
      let amounts ← n.checkedAmounts clock peer params.amountLd params.minAmountLd
      let outbound ← onLimiter peer.outboundRateLimiter (·.tryConsume clock amounts.2.1)
      proceed amounts outbound) := by
    apply Exists.intro
    simp only [apply, prepare, Node.checkedAmounts, hacc, bind_assoc, pure_bind]
    rfl
  obtain ⟨proceed, hfirst⟩ := hfirst
  rw [hfirst]
  unfold amountChecks at h
  generalize n.checkedAmounts clock peer params.amountLd params.minAmountLd = admitted at h ⊢
  cases admitted with
  | error e' => exact congrArg Except.error (Except.error.inj h)
  | ok amounts =>
      have hlimiter : onLimiter peer.outboundRateLimiter (·.tryConsume clock amounts.2.1) =
        .error e := h
      simp only [bind, Except.bind, hlimiter]

end Send

/-- The limits of `quote_oft` are those of the type, whatever the limiter has.
A send of what was quoted passes the pause and slippage checks with the
quoted receipt, and then it is the limiter that decides, on the amount
received and the seconds since it was last touched. -/
theorem quoted_limits (env : Externals) (clock : Clock) (endpoint : Endpoint) (n : Node)
    (oftAcc : QuoteAccounts) (oftParams : QuoteOFTParams) (q : QuoteOFTResult)
    (acc : Send.Accounts) (remaining : List LzAccount) (params : SendParams) (peer : PeerConfig)
    (hquote : QuoteOFT.apply env clock n oftAcc oftParams = .ok q)
    (htransfer : oftParams.transfer = params.transfer)
    (hacc : Send.tryAccounts env n acc params = .ok peer) :
    q.oftLimits = ⟨0, 0xffffffffffffffff⟩ ∧
    (∃ fee, n.checkedAmounts clock peer params.amountLd params.minAmountLd =
      .ok (q.oftReceipt.amountSentLd, q.oftReceipt.amountReceivedLd, fee)) ∧
    ((Send.amountChecks n clock peer params.amountLd params.minAmountLd).isOk ↔
      ∀ l, peer.outboundRateLimiter = some l → ∃ now, clock.currentTime = .ok now ∧
        q.oftReceipt.amountReceivedLd.toNat ≤ l.available now) ∧
    ∀ l now, peer.outboundRateLimiter = some l → clock.currentTime = .ok now →
      l.available now < q.oftReceipt.amountReceivedLd.toNat →
        Send.apply env clock endpoint n acc remaining params =
          .error (.oft .rateLimitExceeded) := by
  obtain ⟨hdst, hamount, hmin⟩ : oftParams.dstEid = params.dstEid ∧
      oftParams.amountLd = params.amountLd ∧ oftParams.minAmountLd = params.minAmountLd := by
    simpa [QuoteOFTParams.transfer, SendParams.transfer] using htransfer
  obtain ⟨fee, hchecked, hlimits⟩ :=
    QuoteOFT.checkedAmounts_of_apply hquote (hdst ▸ (Send.constrained hacc).found)
  rw [hamount, hmin] at hchecked
  have hchecks : Send.amountChecks n clock peer params.amountLd params.minAmountLd =
      onLimiter peer.outboundRateLimiter (·.tryConsume clock q.oftReceipt.amountReceivedLd) := by
    rw [Send.amountChecks, hchecked]
    rfl
  refine ⟨hlimits, ⟨fee, hchecked⟩, ?_, ?_⟩
  · rw [hchecks]
    exact RateLimiter.isOk_onLimiter_tryConsume
  · intro l now hl hclock hlt
    have hdecides :=
      RateLimiter.onLimiter_tryConsume (l := l) hclock q.oftReceipt.amountReceivedLd
    rw [if_neg (Nat.not_le.mpr hlt), ← hl, ← hchecks] at hdecides
    exact Send.apply_of_amountChecks endpoint remaining hacc hdecides

/-- The admin limits what goes out to 1000000, and nothing comes back. -/
def limitRun : List Event :=
  [.sample 10 (.sampleSetPeer 30101 (.outboundRateLimit (some ⟨some 0, some 1000000⟩)))]

def limitPeer : PeerConfig :=
  { PeerConfig.zeroed with outboundRateLimiter := some ⟨1000000, 1000000, 0, 10⟩, bump := 255 }

/-- 500000 units get past the limiter. -/
theorem quoted_limits_example :
    let n := Run.final (Node.step .sample) (.sample .adapter Node.feeTokens) limitRun
    ∃ q, QuoteOFT.apply .sample ⟨10, 0⟩ n (Instruction.sampleAccounts 30101).quote
        ⟨30101, .zero 32, 500000, 0, [], none, false⟩ = .ok q ∧
      (Send.amountChecks n ⟨10, 0⟩ limitPeer 500000 0).isOk := by
  intro n
  have hok : (do
      let q ← QuoteOFT.apply .sample ⟨10, 0⟩ n (Instruction.sampleAccounts 30101).quote
        ⟨30101, .zero 32, 500000, 0, [], none, false⟩
      require (q.oftReceipt.amountReceivedLd.toNat ≤ 1000000) .constraint).isOk := by
    decide +kernel
  obtain ⟨_, hrun⟩ := Except.exists_eq_ok_of_isOk hok
  simp only [Except.bind_eq_ok, Except.require_eq_ok] at hrun
  obtain ⟨q, hquote, hreceived⟩ := hrun
  obtain ⟨-, -, hchecks, -⟩ := quoted_limits .sample ⟨10, 0⟩ .sample n _ _ q
    (Instruction.sampleAccounts 30101) Instruction.sampleRemaining
    (Instruction.sampleParams 30101 500000) limitPeer hquote (by decide) (by decide +kernel)
  refine ⟨q, hquote, hchecks.mpr fun l hl => ⟨10, by decide, ?_⟩⟩
  rw [← Option.some.inj hl]
  exact hreceived

/-- Of 2000500 units, which are within the limits quoted, the limiter rejects
the send. -/
theorem quote_beyond_limiter :
    let n := Run.final (Node.step .sample) (.sample .adapter Node.feeTokens) limitRun
    let acc := Instruction.sampleAccounts 30101
    InitOFT.Created .sample (.sample .adapter Node.feeTokens) ∧
    (∃ q, QuoteOFT.apply .sample ⟨10, 0⟩ n acc.quote
        ⟨30101, .zero 32, 2000500, 0, [], none, false⟩ = .ok q ∧
      q.oftLimits.minAmountLd ≤ 2000500 ∧ 2000500 ≤ q.oftLimits.maxAmountLd) ∧
    Send.apply .sample ⟨10, 0⟩ .sample n acc Instruction.sampleRemaining
      (Instruction.sampleParams 30101 2000500) = .error (.oft .rateLimitExceeded) := by
  intro n acc
  have hok : (do
      let q ← QuoteOFT.apply .sample ⟨10, 0⟩ n acc.quote
        ⟨30101, .zero 32, 2000500, 0, [], none, false⟩
      require (q.oftLimits.minAmountLd ≤ 2000500 ∧ 2000500 ≤ q.oftLimits.maxAmountLd)
        .constraint).isOk := by decide +kernel
  obtain ⟨_, hrun⟩ := Except.exists_eq_ok_of_isOk hok
  simp only [Except.bind_eq_ok, Except.require_eq_ok] at hrun
  refine ⟨Node.created_feeTokens, hrun, ?_⟩
  have hacc : Send.tryAccounts .sample n acc (Instruction.sampleParams 30101 2000500) =
      .ok limitPeer := by decide +kernel
  exact Send.apply_of_amountChecks .sample _ hacc (by decide +kernel)

end CrossChain
