import CrossChain.Solana.Fees

/-!
# CrossChain.Solana.Receipts

What a transfer reports is what it did.

`send` uses one amount six times, in two branches and two units, and
`lz_receive` reassigns its amount in one branch: here each use is compared
with the balances, the supply and the value locked before and after.

Both need the escrow to be no party of the transfer.  The code does not check
it, the runtime does: the store, which is the authority of the escrow, is a
program address and signs nothing, and the escrow, which signed its own
creation, is no associated token account.
-/

namespace CrossChain

/-! ## `send` -/

/-- The token account of a signer is not the escrow, unless the store signs. -/
theorem Send.source_ne_escrow {env : Externals} {clock : Clock} {n : Node} {acc : Accounts}
    {remaining : List LzAccount} {params : SendParams} {out : Outcome}
    (h : prepare env clock n acc remaining params = .ok out)
    (hsigner : acc.signer.pubkey ≠ n.key) : acc.tokenSource.pubkey ≠ acc.tokenEscrow.pubkey := by
  obtain ⟨peer, hacc, -⟩ := Except.bind_eq_ok.mp h
  have hconstrained := constrained hacc
  have hauthority := hconstrained.source
  intro heq
  rw [Node.TokenAccountOf, heq, hconstrained.escrow.2, Option.some.injEq] at hauthority
  exact hsigner hauthority.symm

/-- Both branches take the amount sent from the source, and record the amount
received as backing. -/
theorem Send.Taken.effect {n : Node} {acc : Accounts} {epoch sent received fee tvlLd : UInt64}
    {tokens : Tokens} (h : Taken n acc epoch sent received fee tvlLd tokens)
    (hnative : n.store.oftType = .native → received.toNat + fee.toNat = sent.toNat)
    (hapart : acc.tokenSource.pubkey ≠ acc.tokenEscrow.pubkey) :
    tokens.balance acc.tokenSource.pubkey + sent.toNat =
        n.tokens.balance acc.tokenSource.pubkey ∧
      (n.store.oftType = .adapter → tvlLd.toNat = n.store.tvlLd.toNat + received.toNat) ∧
      (n.store.oftType = .native →
        tokens.mint.supply.toNat + received.toNat = n.tokens.mint.supply.toNat) := by
  cases htype : n.store.oftType with
  | adapter =>
      obtain ⟨htvl, hmoved⟩ := h.adapter htype
      exact ⟨hmoved.debited hapart, fun _ => htvl, nofun⟩
  | native =>
      obtain ⟨-, burnt, burnLd, hsum, hburned, hfee⟩ := h.native htype
      have hsent := hnative htype
      have hdebit := hburned.debited
      have hsupply := hburned.supply
      rcases hfee with ⟨hzero, rfl⟩ | hmoved
      · exact ⟨by omega, nofun, fun _ => by omega⟩
      · have hmoved' := hmoved.debited hapart
        rw [hmoved.mint]
        exact ⟨by omega, nofun, fun _ => by omega⟩

/-- Both branches leave the fee in the escrow, above what is added to the
value locked. -/
theorem Send.Taken.escrow {n : Node} {acc : Accounts} {epoch sent received fee tvlLd : UInt64}
    {tokens : Tokens} (h : Taken n acc epoch sent received fee tvlLd tokens)
    (hadapter : n.store.oftType = .adapter →
      received.toNat + fee.toNat = n.tokens.mint.net epoch sent.toNat)
    (hnative : n.store.oftType = .native → ∀ a, n.tokens.mint.withheld epoch a = 0)
    (hapart : acc.tokenSource.pubkey ≠ acc.tokenEscrow.pubkey) :
    tokens.balance acc.tokenEscrow.pubkey + n.store.tvlLd.toNat =
      n.tokens.balance acc.tokenEscrow.pubkey + tvlLd.toNat + fee.toNat := by
  cases htype : n.store.oftType with
  | adapter =>
      obtain ⟨htvl, hmoved⟩ := h.adapter htype
      have hcredit := hmoved.credited hapart
      have hnet := hadapter htype
      omega
  | native =>
      obtain ⟨rfl, burnt, burnLd, -, hburned, hfee⟩ := h.native htype
      have hescrow : burnt.balance acc.tokenEscrow.pubkey =
          n.tokens.balance acc.tokenEscrow.pubkey := by
        rw [Tokens.balance, hburned.other _ hapart.symm, Tokens.balance]
      rcases hfee with ⟨hzero, rfl⟩ | hmoved
      · omega
      · have hcredit := hmoved.credited hapart
        have hmint : burnt.mint.net epoch fee.toNat = n.tokens.mint.net epoch fee.toNat := by
          rw [Mint.net, hburned.fees, Mint.net]
        have hnet := n.tokens.mint.net_add_withheld epoch fee.toNat
        rw [hnative htype] at hnet
        omega

/-- A send takes the amount it reports from its sender, no more than was
asked for, and everything else it does is about the amount it reports as
received: the message, without loss, the two limiters and the backing. -/
theorem sender_protected (env : Externals) (clock : Clock) (endpoint : Endpoint) (n : Node)
    (acc : Send.Accounts) (remaining : List LzAccount) (params : SendParams)
    (out : Send.Outcome) (msgReceipt : MessagingReceipt) (event : OFTSent)
    (h : Send.apply env clock endpoint n acc remaining params = .ok (out, msgReceipt, event))
    (hsigner : acc.signer.pubkey ≠ n.key) :
    out.node.tokens.balance acc.tokenSource.pubkey + out.receipt.amountSentLd.toNat =
        n.tokens.balance acc.tokenSource.pubkey ∧
      out.receipt.amountSentLd ≤ params.amountLd ∧
      params.minAmountLd ≤ out.receipt.amountReceivedLd ∧
      (∃ amountSd, MsgCodec.amountSd out.request.message = some amountSd ∧
        n.store.sd2ld amountSd = .ok out.receipt.amountReceivedLd) ∧
      (∃ peer peer', n.peers params.dstEid = some peer ∧
        out.node.peers params.dstEid = some peer' ∧
        onLimiter peer.outboundRateLimiter (·.tryConsume clock out.receipt.amountReceivedLd) =
          .ok peer'.outboundRateLimiter ∧
        onLimiter peer.inboundRateLimiter (·.refill clock out.receipt.amountReceivedLd) =
          .ok peer'.inboundRateLimiter) ∧
      (n.store.oftType = .adapter → out.node.store.tvlLd.toNat =
        n.store.tvlLd.toNat + out.receipt.amountReceivedLd.toNat) ∧
      (n.store.oftType = .native → out.node.tokens.mint.supply.toNat +
        out.receipt.amountReceivedLd.toNat = n.tokens.mint.supply.toNat) := by
  have hprepare := (Send.apply_eq_ok h).1
  obtain ⟨peer, outbound, inbound, hp⟩ := Send.prepared hprepare
  have hcharged := charged hp.amounts
  obtain ⟨hdebited, hadapter, hnative⟩ :=
    hp.taken.effect hcharged.native (Send.source_ne_escrow hprepare hsigner)
  refine ⟨hdebited, UInt64.le_iff_toNat_le.mpr hcharged.sent_le, hp.slippage, ?_, ?_, hadapter,
    hnative⟩
  · obtain ⟨amountSd, hsd, hmessage⟩ := hp.message
    refine ⟨amountSd, by rw [hmessage, MsgCodec.amountSd_encode], ?_⟩
    rw [OFTStore.sd2ld_eq_ok, ← hsd]
    exact Nat.div_mul_cancel hcharged.dvd_received
  · refine ⟨peer, { peer with outboundRateLimiter := outbound, inboundRateLimiter := inbound },
      hp.found, ?_, hp.consumed, hp.refilled⟩
    rw [hp.node]
    exact Function.update_self _ _ _

theorem sender_protected_example :
    let n := Run.final (Node.step .sample) (.sample .adapter Node.feeTokens) Node.feeRun
    ∃ out msgReceipt event, Send.apply .sample ⟨0, 0⟩ .sample n (Instruction.sampleAccounts 30101)
        Instruction.sampleRemaining (Instruction.sampleParams 30101 2000500) =
          .ok (out, msgReceipt, event) ∧
      out.node.tokens.balance (.ofByte 21) + out.receipt.amountSentLd.toNat =
        n.tokens.balance (.ofByte 21) := by
  intro n
  have hok : (Send.apply .sample ⟨0, 0⟩ .sample n (Instruction.sampleAccounts 30101)
      Instruction.sampleRemaining (Instruction.sampleParams 30101 2000500)).isOk := by
    decide +kernel
  obtain ⟨⟨out, msgReceipt, event⟩, hrun⟩ := Except.exists_eq_ok_of_isOk hok
  obtain ⟨hdebited, -⟩ := sender_protected _ _ _ _ _ _ _ _ _ _ hrun (by decide +kernel)
  exact ⟨out, msgReceipt, event, hrun, hdebited⟩

/-! ## `lz_receive` -/

/-- Both branches credit the recipient what they report, and take the amount
of the message from the backing. -/
theorem LzReceive.Released.effect {n : Node} {tokens tokens' : Tokens} {acc : Accounts}
    {clock : Clock} {amountLd tvlLd received : UInt64}
    (h : Released n tokens acc clock amountLd tvlLd tokens' received)
    (hapart : acc.tokenEscrow.pubkey ≠ acc.tokenDest.pubkey) :
    tokens'.balance acc.tokenDest.pubkey =
        tokens.balance acc.tokenDest.pubkey + received.toNat ∧
      (n.store.oftType = .adapter → tvlLd.toNat + amountLd.toNat = n.store.tvlLd.toNat ∧
        tokens'.balance acc.tokenEscrow.pubkey + amountLd.toNat =
          tokens.balance acc.tokenEscrow.pubkey) ∧
      (n.store.oftType = .native →
        tokens'.mint.supply.toNat = tokens.mint.supply.toNat + amountLd.toNat) := by
  cases htype : n.store.oftType with
  | adapter =>
      obtain ⟨htvl, hmoved, hpost⟩ := h.adapter htype
      rw [getPostFeeAmountLd_eq_ok] at hpost
      refine ⟨?_, fun _ => ⟨htvl, hmoved.debited hapart⟩, nofun⟩
      rw [hmoved.credited hapart, hpost]
  | native =>
      obtain ⟨-, hminted, rfl⟩ := h.native htype
      exact ⟨hminted.credited, nofun, fun _ => hminted.supply⟩

/-- What a delivery tells its recipient, in the event and in the compose
message, is what the recipient's account gained; everything that concerns
the backing and the limiters uses the amount of the message. -/
theorem receiver_told (env : Externals) (clock : Clock) (endpoint : Endpoint) (n : Node)
    (accounts : List LzAccount) (params : LzReceiveParams) (out : LzReceive.Outcome)
    (h : LzReceive.apply env clock endpoint n accounts params = .ok out)
    (hescrow : ∀ sendTo, MsgCodec.sendTo params.message = some sendTo →
      env.associatedTokenAddress sendTo n.store.tokenMint n.tokens.mint.tokenProgram ≠
        n.store.tokenEscrow) :
    ∃ acc remaining peer peer' amountSd amountLd,
      LzReceive.Accounts.ofList env accounts = some (acc, remaining) ∧
      MsgCodec.amountSd params.message = some amountSd ∧ n.store.sd2ld amountSd = .ok amountLd ∧
      out.node.tokens.balance acc.tokenDest.pubkey =
        n.tokens.balance acc.tokenDest.pubkey + out.event.amountReceivedLd.toNat ∧
      (out.compose.isSome ↔ (MsgCodec.composeMsg params.message).isSome) ∧
      (∀ c ∈ out.compose, c.toAddress = acc.toAddress.pubkey ∧
        ComposeMsgCodec.amountLd c.message = some out.event.amountReceivedLd) ∧
      (n.store.oftType = .adapter →
        out.node.store.tvlLd.toNat + amountLd.toNat = n.store.tvlLd.toNat ∧
        out.node.tokens.balance n.store.tokenEscrow + amountLd.toNat =
          n.tokens.balance n.store.tokenEscrow) ∧
      (n.store.oftType = .native → out.node.tokens.mint.supply.toNat =
        n.tokens.mint.supply.toNat + amountLd.toNat) ∧
      n.peers params.srcEid = some peer ∧ out.node.peers params.srcEid = some peer' ∧
      onLimiter peer.inboundRateLimiter (·.tryConsume clock amountLd) =
        .ok peer'.inboundRateLimiter ∧
      onLimiter peer.outboundRateLimiter (·.refill clock amountLd) =
        .ok peer'.outboundRateLimiter := by
  obtain ⟨acc, remaining, hlist, hdeliver⟩ := LzReceive.apply_eq_ok h
  obtain ⟨peer, outbound, inbound, opened, amountSd, amountLd, hd⟩ := LzReceive.delivered hdeliver
  have hapart : acc.tokenEscrow.pubkey ≠ acc.tokenDest.pubkey := by
    obtain ⟨⟨peer, tokens⟩, hacc, -⟩ := Except.bind_eq_ok.mp hdeliver
    obtain ⟨sendTo, hto, hdest⟩ := (LzReceive.constrained hacc).dest
    rw [hd.escrow, hdest]
    exact (hescrow sendTo hto).symm
  obtain ⟨hcredited, hadapter, hnative⟩ := hd.released.effect hapart
  rw [hd.escrow, hd.opens.balance] at hadapter
  rw [hd.opens.mint] at hnative
  rw [hd.opens.balance] at hcredited
  refine ⟨acc, remaining, peer,
    { peer with outboundRateLimiter := outbound, inboundRateLimiter := inbound }, amountSd,
    amountLd, hlist, hd.decoded, OFTStore.sd2ld_eq_ok.mpr hd.scaled, hcredited, ?_, ?_, hadapter,
    hnative, hd.found, ?_, hd.consumed, hd.refilled⟩
  · rw [hd.compose, Option.isSome_map]
  · intro c hc
    rw [hd.compose] at hc
    obtain ⟨payload, -, rfl⟩ := Option.map_eq_some_iff.mp hc
    exact ⟨rfl, ComposeMsgCodec.amountLd_encode _ _ _ _⟩
  · rw [hd.node]
    exact Function.update_self _ _ _

/-- A composed transfer of 7 shared units to key 22. -/
def composedParams : LzReceiveParams :=
  ⟨30101, FixedBytes.zero 32, 1, FixedBytes.zero 32,
    MsgCodec.encode (Pubkey.ofByte 22) 7 (.ofByte 41) (some [1])⟩

theorem receiver_told_example :
    let n := Run.final (Node.step .sample)
      (.sample .native (.sample 5000000 Node.sampleKey none)) Node.feeRun
    ∃ accounts out acc remaining,
      LzReceive.apply .sample ⟨0, 0⟩ .sample n accounts composedParams = .ok out ∧
      LzReceive.Accounts.ofList .sample accounts = some (acc, remaining) ∧
      out.node.tokens.balance acc.tokenDest.pubkey =
        n.tokens.balance acc.tokenDest.pubkey + out.event.amountReceivedLd.toNat := by
  intro n
  have hok : (do
      let accounts ← LzReceiveTypes.apply .sample ⟨0, 0⟩ n
        ⟨.readonly Node.sampleKey, .readonly (.ofByte 11)⟩ composedParams
      LzReceive.apply .sample ⟨0, 0⟩ .sample n accounts composedParams).isOk := by decide +kernel
  obtain ⟨out, hrun⟩ := Except.exists_eq_ok_of_isOk hok
  obtain ⟨accounts, -, hreceive⟩ := Except.bind_eq_ok.mp hrun
  obtain ⟨acc, remaining, peer, peer', amountSd, amountLd, hlist, -, -, hcredited, -⟩ :=
    receiver_told _ _ _ _ _ _ _ hreceive (by decide +kernel)
  exact ⟨accounts, out, acc, remaining, hreceive, hlist, hcredited⟩

end CrossChain
